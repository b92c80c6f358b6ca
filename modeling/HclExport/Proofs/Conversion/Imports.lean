import HclExport.Proofs.Conversion.Block
import HclExport.Proofs.Conversion.Emission

/-!
# Imports of a document

A document that gives a block gives imports for it as well, if they are asked for: one for the
resource, and for a flow another one for the resource that switches it on. They have the name of
the block and one id, which starts with the environment and names the application of a policy.
Imports come out in the order in which their types are created, those of a type by name.

## Main definitions

* `Kind.importedTypes` — the types of the imports of a document.
* `importedId` — the id under which a resource is imported.
* `ImportBlock.le` — the order in which imports come out.

## Main results

* `importId_eq_ok` — the id of an import that is given.
* `Kind.imports_of_outcome` — the imports of a document that gives a block.
* `sortImports_perm`, `sortImports_pairwise` — imports in order.
* `renderImports_eq_of_perm` — when it does not matter how imports stood.
-/

namespace HclExport

/-! ### Ids -/

/-- The types of the imports of a document. -/
def Kind.importedTypes (kind : Kind) : List String :=
  if kind = .flow then [Kind.flow.type, flowEnableType] else [kind.type]

/-- The id under which a resource is imported: the environment, the application of a policy, and
the id of the resource. -/
def importedId (environmentId : Json) (kind : Kind) (application id : String) : String :=
  if kind = .flowPolicy then environmentId.display ++ "/" ++ application ++ "/" ++ id
  else environmentId.display ++ "/" ++ id

theorem Kind.importedTypes_eq (kind : Kind) :
    kind.importedTypes = kind.converter.kind.type :: kind.converter.companions := by
  cases kind <;> rfl

theorem Kind.mem_importableTypes {kind : Kind} {type : String} (h : type ∈ kind.importedTypes) :
    type ∈ importableTypes := by
  have hall : ∀ type ∈ kind.importedTypes, type ∈ importableTypes := by
    cases kind <;> decide
  exact hall type h

/-- The resources that are imported are among those that the kind writes. -/
theorem Kind.importedTypes_sublist (kind : Kind) :
    kind.importedTypes.Sublist kind.converter.types := by
  cases kind <;> decide

theorem Kind.nodup_importedTypes (kind : Kind) : kind.importedTypes.Nodup := by
  cases kind <;> decide

/-- An id is given if its parts are, and the application of a policy with them. -/
theorem importId_eq_ok {kind : Kind} {environment : Json} {id imported : String}
    {owner : Option String}
    (h : importId (.str kind.type) environment (.str id) (.ofText? owner) = .ok imported) :
    imported = importedId environment kind (owner.getD "") id ∧
      (kind = .flowPolicy → owner.getD "" ≠ "") := by
  unfold importId at h
  rw [isImportable_type, if_neg (by decide)] at h
  split at h
  · cases h
  split at h
  · cases h
  split at h
  next htype =>
    obtain rfl : kind = .flowPolicy := Kind.type_injective htype
    split at h
    · cases h
    next howner =>
      cases owner with
      | none => exact absurd rfl howner
      | some parent =>
        rw [← Except.ok.inj h]
        refine ⟨rfl, fun _ hempty => howner ?_⟩
        obtain rfl : parent = "" := hempty
        rfl
  next htype =>
    have hkind : kind ≠ .flowPolicy := by
      rintro rfl
      exact htype rfl
    rw [← Except.ok.inj h, importedId, if_neg hkind]
    exact ⟨rfl, fun hpolicy => absurd hpolicy hkind⟩

/-! ### Imports of a document -/

/-- The imports of a document: one of each type, all under one name and one id. -/
theorem Kind.imports_eq_ok {kind : Kind} {context : Context} {document : Members} {name : String}
    {imports : List ImportBlock}
    (h : kind.converter.imports context document name = .ok imports) :
    ∃ id owner, resourceId kind document = .ok id ∧
      kind.converter.parentId context document = .ok owner ∧
      (kind = .flowPolicy → owner.getD "" ≠ "") ∧
      imports = kind.importedTypes.map fun type =>
        ⟨type, name, .str (importedId context.environmentId kind (owner.getD "") id)⟩ := by
  unfold Converter.imports at h
  rw [Kind.kind_converter] at h
  cases hid : resourceId kind document with
  | error fault =>
    rw [hid] at h
    cases h
  | ok id =>
    cases howner : kind.converter.parentId context document with
    | error fault =>
      rw [hid, howner] at h
      cases h
    | ok owner =>
      rw [hid, howner] at h
      cases himport : importId (.str kind.type) context.environmentId (.str id)
          (.ofText? owner) with
      | error fault =>
        simp only [bind, Except.bind, himport] at h
        cases h
      | ok imported =>
        obtain ⟨rfl, hgiven⟩ := importId_eq_ok himport
        simp only [bind, Except.bind, himport] at h
        refine ⟨id, owner, rfl, rfl, hgiven, ?_⟩
        rw [← Except.ok.inj h, Kind.importedTypes_eq, Kind.kind_converter]

/-- A document that gives a block gives its imports, if they are asked for. -/
theorem Converter.imports_of_outcome {converter : Converter} {context : Context}
    {document : Members} {block : Block} {imports : List ImportBlock}
    (h : converter.outcome context document = .ok (block, imports)) :
    if context.writesImports then converter.imports context document block.name = .ok imports
    else imports = [] := by
  unfold Converter.outcome at h
  split at h
  next => cases h
  next found hresult =>
    split at h
    next hwrites =>
      rw [if_pos hwrites]
      cases himports : converter.imports context document found.name with
      | error fault =>
        rw [himports] at h
        cases h
      | ok all =>
        rw [himports] at h
        obtain ⟨rfl, rfl⟩ := Prod.mk.inj (Except.ok.inj h)
        exact himports
    next hwrites =>
      rw [if_neg hwrites]
      exact (Prod.mk.inj (Except.ok.inj h)).2.symm

/-- All imports of a document have one id, and the name of its block; their types are importable. -/
theorem Kind.imports_of_outcome {kind : Kind} {context : Context} {document : Members} {block : Block}
    {imports : List ImportBlock}
    (h : kind.converter.outcome context document = .ok (block, imports)) :
    ∃ id, ∀ item ∈ imports,
      item.type ∈ importableTypes ∧ item.name = block.name ∧ item.id = id := by
  have himports := Converter.imports_of_outcome h
  split at himports
  next =>
    obtain ⟨id, owner, -, -, -, rfl⟩ := Kind.imports_eq_ok himports
    refine ⟨.str (importedId context.environmentId kind (owner.getD "") id), ?_⟩
    intro item hitem
    obtain ⟨type, htype, rfl⟩ := List.mem_map.1 hitem
    exact ⟨Kind.mem_importableTypes htype, rfl, rfl⟩
  next =>
    subst himports
    exact ⟨.null, by simp⟩

/-! ### Order -/

namespace ImportBlock

/-- The order in which imports come out: by type, and those of a type by name without regard to
case. -/
def le (a b : ImportBlock) : Bool :=
  importRank a.type < importRank b.type ||
    (importRank a.type == importRank b.type && textLe (lower a.name) (lower b.name))

theorem le_iff {a b : ImportBlock} : a.le b = true ↔
    importRank a.type < importRank b.type ∨
      importRank a.type = importRank b.type ∧ textLe (lower a.name) (lower b.name) = true := by
  simp [le]

theorem le_trans (a b c : ImportBlock) (hab : a.le b = true) (hbc : b.le c = true) :
    a.le c = true := by
  rw [le_iff] at hab hbc ⊢
  rcases hab with hab | ⟨hab, htext⟩
  · rcases hbc with hbc | ⟨hbc, -⟩
    · exact Or.inl (hab.trans hbc)
    · exact Or.inl (hbc ▸ hab)
  · rcases hbc with hbc | ⟨hbc, hmore⟩
    · exact Or.inl (hab ▸ hbc)
    · exact Or.inr ⟨hab.trans hbc, textLe_trans htext hmore⟩

theorem le_total (a b : ImportBlock) : (a.le b || b.le a) = true := by
  rw [Bool.or_eq_true, le_iff, le_iff]
  rcases Nat.lt_trichotomy (importRank a.type) (importRank b.type) with hlt | heq | hgt
  · exact Or.inl (Or.inl hlt)
  · rcases Bool.or_eq_true_iff.1 (textLe_total (lower a.name) (lower b.name)) with htext | htext
    · exact Or.inl (Or.inr ⟨heq, htext⟩)
    · exact Or.inr (Or.inr ⟨heq.symm, htext⟩)
  · exact Or.inr (Or.inl hgt)

theorem le_antisymm {a b : ImportBlock} (hab : a.le b = true) (hba : b.le a = true) :
    importRank a.type = importRank b.type ∧ lower a.name = lower b.name := by
  rw [le_iff] at hab hba
  rcases hab with hab | ⟨hrank, hab⟩
  · omega
  · rcases hba with hba | ⟨-, hba⟩
    · omega
    · exact ⟨hrank, textLe_antisymm hab hba⟩

end ImportBlock

theorem sortImports_eq (blocks : List ImportBlock) :
    sortImports blocks = sortBy ImportBlock.le blocks := by
  have hkeyed : sortBy (fun a b => a.1 < b.1 || (a.1 == b.1 && textLe a.2.1 b.2.1))
      (blocks.map fun block => (importRank block.type, lower block.name, block)) =
      (sortBy ImportBlock.le blocks).map fun block =>
        (importRank block.type, lower block.name, block) :=
    sortBy_map (fun _ _ => rfl) blocks
  unfold sortImports
  dsimp only
  rw [hkeyed, List.map_map]
  exact List.map_id _

theorem sortImports_perm (blocks : List ImportBlock) : (sortImports blocks).Perm blocks := by
  rw [sortImports_eq]
  exact sortBy_perm _ _

/-- Imports come out in order, and those that are equal in it as they stood. -/
theorem sortImports_pairwise (blocks : List ImportBlock) :
    (sortImports blocks).Pairwise fun a b =>
      a.le b = true ∧ (b.le a = true → [a, b].Sublist blocks) := by
  rw [sortImports_eq]
  exact sortBy_stable ImportBlock.le_trans ImportBlock.le_total blocks

/-- Imports of different ranks or names come out in one order. -/
theorem renderImports_eq_of_perm {blocks other : List ImportBlock} (h : blocks.Perm other)
    (hkeys : ∀ a ∈ blocks, ∀ b ∈ blocks, importRank a.type = importRank b.type →
      lower a.name = lower b.name → a = b) : renderImports blocks = renderImports other := by
  have hsorted : sortImports blocks = sortImports other := by
    rw [sortImports_eq, sortImports_eq]
    apply sortBy_eq_of_perm ImportBlock.le_trans ImportBlock.le_total h
    intro a ha b hb hab hba
    obtain ⟨hrank, hname⟩ := ImportBlock.le_antisymm hab hba
    exact hkeys a ha b hb hrank hname
  have hempty : blocks.isEmpty = other.isEmpty := by
    rw [Bool.eq_iff_iff, List.isEmpty_iff, List.isEmpty_iff, ← List.length_eq_zero_iff,
      ← List.length_eq_zero_iff, h.length_eq]
  unfold renderImports
  rw [hempty, hsorted]

end HclExport
