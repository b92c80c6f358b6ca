import HclExport.Conversion.Registry
import HclExport.Proofs.Conversion.Draft
import HclExport.Proofs.Graph.Growth
import HclExport.Proofs.Hcl.Header
import HclExport.Proofs.Resource.KeyText

/-!
# Blocks and their resources

The block of a document stands for the resource under which the document was taken in: it
has its identity and its registered name, and starts with its header.

## Main definitions

* `Block.IsFor` — a block stands for a resource.
* `Block.IsMadeOf` — a block is made of the resources that its kind writes.

## Main results

* `Kind.ensures_isFor` — every conversion gives a block for the resource of its document.
* `Kind.ensures_isMadeOf` — and one that is made of the resources that the kind writes.
* `Converter.imports_fault` — only a policy without an application has no imports.
-/

namespace HclExport

theorem orFail_eq_ok_iff {α : Type} {result : Except Fault α} {a : α} :
    orFail result = .ok a ↔ result = .ok a := by
  cases result with
  | error fault => simp [orFail, Except.mapError]
  | ok b => simp [orFail, Except.mapError]

theorem requireText_eq_ok_iff {kind : Kind} {document : Members} {key label text : String} :
    requireText kind document key label = .ok text ↔
      document.text key ≠ "" ∧ text = document.text key := by
  unfold requireText
  split
  next h => simp [h]
  next h => simp [h, eq_comm]

theorem text_ne_of_requireText {kind : Kind} {document : Members} {key label text : String}
    (h : orFail (requireText kind document key label) = .ok text) : document.text key ≠ "" :=
  (requireText_eq_ok_iff.1 (orFail_eq_ok_iff.1 h)).1

/-- The id of a document that may stand in one place only. -/
theorem text_id_ne_of_resourceId {kind : Kind} {document : Members} {id : String}
    (hkind : kind.idMembers = ["id"]) (h : orFail (resourceId kind document) = .ok id) :
    document.text "id" ≠ "" := by
  intro hnone
  rw [orFail_eq_ok_iff, resourceId, hkind] at h
  simp [hnone] at h

/-- A text that is not empty is the member itself. -/
theorem Members.get?_eq_of_text {members : Members} {key : String} (h : members.text key ≠ "") :
    members.get? key = some (.str (members.text key)) := by
  unfold text get at h ⊢
  cases hvalue : members.get? key with
  | none =>
    rw [hvalue] at h
    exact absurd rfl h
  | some value =>
    rw [hvalue] at h
    cases value with
    | str s => rfl
    | _ => exact absurd rfl h

theorem displayMember_of_text {document : Members} {key : String} (h : document.text key ≠ "") :
    displayMember document key = document.text key := by
  unfold displayMember
  rw [Members.get?_eq_of_text h]
  rfl

theorem Graph.lookup_eq_ok_iff {g : Graph} {ref : Ref} {name : String} :
    g.lookup ref = .ok name ↔ ∃ r, g.find? ref = some r ∧ r.name = name := by
  unfold Graph.lookup
  cases h : g.find? ref with
  | none => simp
  | some r => simp

/-- A source keeps the identity that it is asked for. -/
@[simp] theorem Context.ref_sourceOf (context : Context) (ref : Ref) :
    (context.sourceOf ref).ref = ref :=
  Graph.ref_sourceOf _ ref

/-- An id is never empty. -/
theorem resourceId_ne_empty {kind : Kind} {document : Members} {id : String}
    (h : resourceId kind document = .ok id) : id ≠ "" := by
  unfold resourceId at h
  split at h
  next key hkey =>
    have hgiven := List.find?_some hkey
    rw [← Except.ok.inj h]
    simpa using hgiven
  next => cases h

/-! ### Blocks -/

/-- A block stands for a resource: it has its identity and its registered name, and starts
with its header. -/
structure Block.IsFor (context : Context) (ref : Ref) (block : Block) : Prop where
  ref_eq : block.ref = ref
  registered : ∃ r, context.graph.graph.find? ref = some r ∧ r.name = block.name
  header : (Hcl.resourceHeader ref.kind.type block.name).toList <+: block.hcl.toList

theorem Block.isFor_of_lookup {context : Context} {kind : Kind} {document : Members}
    {id id' name : String} (hid : resourceId kind document = .ok id)
    (hid' : orFail (resourceId kind document) = .ok id')
    (hname : orFail (context.graph.graph.lookup ⟨kind, id'⟩) = .ok name)
    (body more : List Hcl.Item) (inputs : List InputVariable) :
    Block.IsFor context ⟨kind, id⟩
      { ref := ⟨kind, id'⟩
        name := name
        hcl := Hcl.Item.renderAll (.braced (Hcl.resourceHeader kind.type name) body :: more)
        inputs := inputs } := by
  rw [orFail_eq_ok_iff, hid] at hid'
  obtain rfl : id = id' := Except.ok.inj hid'
  rw [orFail_eq_ok_iff] at hname
  exact ⟨rfl, Graph.lookup_eq_ok_iff.1 hname,
    Hcl.header_prefix_renderAll (Hcl.resourceHeader_ne_empty _ _) body more⟩

/-- Every conversion gives a block for the resource of its document. -/
theorem Kind.ensures_isFor (kind : Kind) {context : Context} {document : Members} {id : String}
    (hid : resourceId kind document = .ok id) (answer : Request → Hcl.Expression) :
    (kind.converter.draft context document).Ensures answer (Block.IsFor context ⟨kind, id⟩) := by
  -- of all that comes first, only the id and the name that was looked up matter
  cases kind with
  | «variable» =>
    exact .bind fun _ _ => .bind fun _ _ => .bind fun _ _ => .bind fun _ hid' => .bind fun _ hname =>
      .pure (Block.isFor_of_lookup hid hid' hname _ [] _)
  | connectorInstance =>
    exact .bind fun _ _ => .bind fun _ _ => .bind fun _ hid' => .bind fun _ hname =>
      .pure (Block.isFor_of_lookup hid hid' hname _ [] _)
  | flow =>
    refine .bind fun _ _ => .bind fun _ hid' => .bind fun _ _ => .bind fun _ hname => ?_
    exact .bind fun _ _ => .bind fun _ _ => .bind fun _ _ => .bind fun _ _ => .bind fun _ _ =>
      .pure (Block.isFor_of_lookup hid hid' hname _ _ [])
  | application =>
    exact .bind fun _ _ => .bind fun _ hid' => .bind fun _ hname =>
      .pure (Block.isFor_of_lookup hid hid' hname _ [] [])
  | flowPolicy =>
    refine .bind fun _ _ => .bind fun _ hid' => .bind fun _ hname => ?_
    exact .bind fun _ _ => .bind fun _ _ => .bind fun _ _ => .bind fun _ _ =>
      .pure (Block.isFor_of_lookup hid hid' hname _ [] [])

/-- A block is made of resources with given types and bodies: those that its kind writes, under
its name. -/
structure Block.IsMadeOf (parts : List (String × List Hcl.Item)) (block : Block) : Prop where
  types : parts.map Prod.fst = block.ref.kind.converter.types
  hcl : block.hcl = Hcl.Item.renderAll (Hcl.Item.blocks
    (parts.map fun part => (Hcl.resourceHeader part.1 block.name, part.2)))

/-- Every resource that its kind writes stands in a block. -/
theorem Block.IsMadeOf.header_infix {parts : List (String × List Hcl.Item)} {block : Block}
    (h : block.IsMadeOf parts) {type : String} (htype : type ∈ block.ref.kind.converter.types) :
    (Hcl.resourceHeader type block.name).toList <:+: block.hcl.toList := by
  rw [← h.types] at htype
  obtain ⟨part, hpart, rfl⟩ := List.mem_map.1 htype
  rw [h.hcl]
  exact Hcl.Item.header_infix_renderAll (Hcl.resourceHeader_ne_empty _ _)
    (Hcl.Item.braced_mem_blocks (List.mem_map_of_mem hpart))

/-- A block is made of the resources that its kind writes. -/
theorem Kind.ensures_isMadeOf (kind : Kind) (context : Context) (document : Members)
    (answer : Request → Hcl.Expression) :
    (kind.converter.draft context document).Ensures answer fun block =>
      ∃ parts, block.IsMadeOf parts := by
  cases kind with
  | «variable» =>
    exact .bind fun _ _ => .bind fun _ _ => .bind fun _ _ => .bind fun _ _ => .bind fun _ _ =>
      .pure ⟨[(Kind.variable.type, _)], rfl, rfl⟩
  | connectorInstance =>
    exact .bind fun _ _ => .bind fun _ _ => .bind fun _ _ => .bind fun _ _ =>
      .pure ⟨[(Kind.connectorInstance.type, _)], rfl, rfl⟩
  | flow =>
    refine .bind fun _ _ => .bind fun _ _ => .bind fun _ _ => .bind fun _ _ => ?_
    exact .bind fun _ _ => .bind fun _ _ => .bind fun _ _ => .bind fun _ _ => .bind fun _ _ =>
      .pure ⟨[(Kind.flow.type, _), (flowEnableType, _), (flowDeployType, _)], rfl, rfl⟩
  | application =>
    exact .bind fun _ _ => .bind fun _ _ => .bind fun _ _ =>
      .pure ⟨[(Kind.application.type, _)], rfl, rfl⟩
  | flowPolicy =>
    refine .bind fun _ _ => .bind fun _ _ => .bind fun _ _ => ?_
    exact .bind fun _ _ => .bind fun _ _ => .bind fun _ _ => .bind fun _ _ =>
      .pure ⟨[(Kind.flowPolicy.type, _)], rfl, rfl⟩

/-! ### Imports -/

theorem isImportable_type (kind : Kind) : isImportable (.str kind.type) = true := by
  cases kind <;> decide

theorem Kind.parentId_converter {kind : Kind} (h : kind ≠ .flowPolicy) (context : Context)
    (document : Members) : kind.converter.parentId context document = .ok none := by
  cases kind with
  | flowPolicy => exact absurd rfl h
  | _ => rfl

theorem owningApplication_ne_error {context : Context} {document : Members} {id : String}
    (hid : resourceId .flowPolicy document = .ok id) (fault : Fault) :
    owningApplication context document ≠ .error fault := by
  unfold owningApplication
  split
  · simp
  · split
    · simp
    · rw [hid]
      simp [bind, Except.bind, pure, Except.pure]

/-- With an environment, only the import of a policy without an owner is refused. -/
theorem importId_eq_error {kind : Kind} {environment : Json} {id : String} {owner : Option String}
    {fault : Fault} (henvironment : environment.isTruthy = true) (hid : id ≠ "")
    (h : importId (.str kind.type) environment (.str id) (.ofText? owner) = .error fault) :
    kind = .flowPolicy ∧ owner.getD "" = "" := by
  have hgiven : (Json.str id).isTruthy = true := by simpa [Json.isTruthy] using hid
  -- the checks of kind, environment and id are passed, so the one of the owner is not
  unfold importId at h
  rw [isImportable_type, henvironment, hgiven, if_neg (by decide), if_neg (by decide),
    if_neg (by decide)] at h
  split at h
  next htype =>
    refine ⟨Kind.type_injective htype, ?_⟩
    cases owner with
    | none => rfl
    | some parent =>
      by_cases hparent : parent = ""
      · exact hparent
      · simp [Json.ofText?, Json.isTruthy, hparent] at h
  next => cases h

/-- With an environment, only a policy without an application has no imports. -/
theorem Converter.imports_fault {kind : Kind} {context : Context} {document : Members}
    {id name : String} {fault : Fault} (hid : resourceId kind document = .ok id)
    (henvironment : context.environmentId.isTruthy = true)
    (h : kind.converter.imports context document name = .error fault) :
    kind = .flowPolicy ∧
      ∃ owner, owningApplication context document = .ok owner ∧ owner.getD "" = "" := by
  unfold Converter.imports at h
  rw [Kind.kind_converter, hid] at h
  cases hparent : kind.converter.parentId context document with
  | error other =>
    by_cases hkind : kind = .flowPolicy
    · subst hkind
      exact absurd hparent (owningApplication_ne_error hid other)
    · rw [Kind.parentId_converter hkind] at hparent
      cases hparent
  | ok owner =>
    rw [hparent] at h
    cases himport : importId (.str kind.type) context.environmentId (.str id) (.ofText? owner) with
    | ok imported =>
      simp only [bind, Except.bind, himport] at h
      cases h
    | error other =>
      obtain ⟨rfl, howner⟩ := importId_eq_error henvironment (resourceId_ne_empty hid) himport
      exact ⟨rfl, owner, hparent, howner⟩

end HclExport
