import HclExport.Proofs.Conversion.Matching
import HclExport.Proofs.Export.Alike
import HclExport.Proofs.Export.Outcome
import HclExport.Proofs.Export.Permutation
import HclExport.Proofs.Sorting

/-!
# Documents whose blocks resemble each other

Documents that are identified alike, have the same owner and hold the same references take part in
an export alike, whatever else they hold. If their blocks are the same in some respect, the outputs
of their exports are the same in that respect, block by block. What the skipped documents are
reported with may differ.

## Main definitions

* `Kind.Resembles` — documents of a kind whose blocks are the same in some respect.
* `Batch.Resembles`, `Intake.Resembles`, `ExportResult.Resembles` — batches of such documents, what
  was taken in from them, and what their exports come to.

## Main results

* `Intake.Resembles.take`, `Intake.Resembles.linked` — documents are taken in alike.
* `Batch.Resembles.completes_iff` — exports come to an end alike.
* `Batch.Resembles.resembles_runExport` — **exports of such batches, in the same respect.**
-/

namespace HclExport

/-! ### Related lists -/

theorem flatMap_eq_of_forall₂ {α β γ : Type} {R : α → β → Prop} {f : α → List γ} {g : β → List γ}
    (hf : ∀ a b, R a b → f a = g b) {xs : List α} {ys : List β} (h : List.Forall₂ R xs ys) :
    xs.flatMap f = ys.flatMap g := by
  induction h with
  | nil => rfl
  | cons hab _ ih => rw [List.flatMap_cons, List.flatMap_cons, hf _ _ hab, ih]

theorem forall_mem_iff_of_forall₂ {α β : Type} {R : α → β → Prop} {p : α → Prop} {q : β → Prop}
    (hpq : ∀ a b, R a b → (p a ↔ q b)) {xs : List α} {ys : List β} (h : List.Forall₂ R xs ys) :
    (∀ x ∈ xs, p x) ↔ ∀ y ∈ ys, q y := by
  induction h with
  | nil => simp
  | cons hab _ ih => rw [List.forall_mem_cons, List.forall_mem_cons, hpq _ _ hab, ih]

/-! ### Documents, batches and what is taken in -/

/-- Documents of a kind that are identified alike, have the same owner and hold the same references,
and whose blocks are the same in some respect. -/
structure Kind.Resembles (settings : ExportSettings) (same : Block → Block → Prop) (kind : Kind)
    (a b : Members) : Prop where
  identity : resourceId kind a = resourceId kind b
  label : kind.converter.label a = kind.converter.label b
  owner : ownerOf? kind a = ownerOf? kind b
  references : ∀ source : Resource, source.ref.kind = kind →
    parseReferences source (.obj a) = parseReferences source (.obj b)
  parentId : ∀ context, kind.converter.parentId context a = kind.converter.parentId context b
  draft : ∀ intake : Intake,
    Matches same
      ((kind.converter.draft (intake.context settings) a).result (intake.context settings).answer)
      ((kind.converter.draft (intake.context settings) b).result (intake.context settings).answer)

/-- Documents that read the same resemble each other in every respect. -/
theorem Kind.Alike.resembles {settings : ExportSettings} {same : Block → Block → Prop}
    (hrefl : ∀ block, same block block) {kind : Kind} {a b : Members} (h : kind.Alike a b) :
    kind.Resembles settings same a b :=
  ⟨h.identity, h.label, h.owner, h.references, h.parentId,
    fun _ => .of_eq hrefl (by rw [h.draft])⟩

section Resembles

variable (settings : ExportSettings) (same : Block → Block → Prop)

/-- Batches of such documents, kind by kind in the same order. -/
def Batch.Resembles (batch other : Batch) : Prop :=
  ∀ kind : Kind, List.Forall₂ (kind.Resembles settings same) (batch.of kind) (other.of kind)

/-- Entries under one identity with such documents. -/
def Entry.Resembles (entry other : Entry) : Prop :=
  entry.ref = other.ref ∧ entry.ref.kind.Resembles settings same entry.document other.document

/-- What was taken in from such documents. -/
structure Intake.Resembles (intake other : Intake) : Prop where
  graph : intake.graph = other.graph
  ownership : intake.ownership = other.ownership
  entries : List.Forall₂ (Entry.Resembles settings same) intake.entries other.entries

/-- Results that are the same in some respect, block by block. -/
structure ExportResult.Resembles (result other : ExportResult) : Prop where
  settings_eq : result.settings = other.settings
  blocks : List.Forall₂ (fun output output' : KindOutput =>
    List.Forall₂ same output.blocks output'.blocks) result.outputs other.outputs
  inputs : (∀ a b, same a b → a.inputs = b.inputs) → result.ledger.inputs = other.ledger.inputs
  imports : result.ledger.imports = other.ledger.imports

end Resembles

/-! ### Taking in -/

variable {settings : ExportSettings} {same : Block → Block → Prop}

/-- Documents that are identified alike meet the same fate. -/
theorem Kind.Resembles.fate {kind : Kind} {a b : Members} (h : kind.Resembles settings same a b)
    (scope : Scope) :
    (∃ entry label, scope.fate kind a = .candidate entry label ∧
      scope.fate kind b = .candidate { entry with document := b } label ∧ entry.ref.kind = kind ∧
      entry.document = a) ∨
    (scope.fate kind a).candidate? = none ∧ scope.fate kind a = scope.fate kind b := by
  have hidentify : Intake.identify kind.converter a = Intake.identify kind.converter b := by
    unfold Intake.identify
    rw [kind.kind_converter, h.identity, h.label]
  unfold Scope.fate
  rw [← hidentify]
  by_cases hcovers : scope.covers kind = true
  · rw [if_pos hcovers, if_pos hcovers]
    cases hresult : Intake.identify kind.converter a with
    | error fault => exact Or.inr ⟨rfl, rfl⟩
    | ok found =>
      obtain ⟨ref, label⟩ := found
      have hkind := (Intake.kind_of_identify hresult).trans kind.kind_converter
      by_cases hexcluded : scope.isExcluded ref = true
      · simp [hexcluded]
      · exact Or.inl ⟨⟨ref, a⟩, label, by simp [hexcluded], by simp [hexcluded], hkind, rfl⟩
  · rw [if_neg hcovers, if_neg hcovers]
    exact Or.inr ⟨rfl, rfl⟩

namespace Intake.Resembles

variable {intake other : Intake}

/-- A further document is taken in alike. -/
theorem take (h : intake.Resembles settings same other) {kind : Kind} {a b : Members}
    (hab : kind.Resembles settings same a b) (scope : Scope) :
    (intake.take scope (kind, a)).Resembles settings same (other.take scope (kind, b)) := by
  rcases hab.fate scope with ⟨entry, label, ha, hb, rfl, rfl⟩ | ⟨hnone, hfate⟩
  · have hown : own entry intake.ownership = own { entry with document := b } other.ownership := by
      unfold own
      rw [hab.owner, h.ownership]
    unfold Intake.take
    dsimp only
    rw [ha, hb]
    dsimp only
    rw [← h.graph]
    split
    · exact ⟨rfl, h.ownership, h.entries⟩
    · refine ⟨?_, hown, ?_⟩
      · unfold enlist
        rw [h.graph]
      · exact List.rel_append h.entries (.cons ⟨rfl, hab⟩ .nil)
  · unfold Intake.take
    dsimp only
    rw [← hfate]
    cases hcase : scope.fate kind a with
    | candidate entry label =>
      rw [hcase] at hnone
      cases hnone
    | _ => exact ⟨h.graph, h.ownership, h.entries⟩

/-- Further documents are taken in alike. -/
theorem foldl_take (scope : Scope) {xs ys : List (Kind × Members)}
    (hall : List.Forall₂ (fun x y => x.1 = y.1 ∧ x.1.Resembles settings same x.2 y.2) xs ys)
    (h : intake.Resembles settings same other) :
    (xs.foldl (Intake.take scope) intake).Resembles settings same
      (ys.foldl (Intake.take scope) other) := by
  induction hall generalizing intake other with
  | nil => exact h
  | @cons x y xs ys hxy _ ih =>
    obtain ⟨kind, a⟩ := x
    obtain ⟨kind', b⟩ := y
    obtain ⟨rfl, hab⟩ := hxy
    exact ih (h.take hab scope)

/-- The references of documents are found alike. -/
theorem parse (h : intake.Resembles settings same other) {entry entry' : Entry}
    (hentry : entry.Resembles settings same entry') :
    intake.graph.parse entry = other.graph.parse entry' := by
  obtain ⟨href, hdocuments⟩ := hentry
  unfold Graph.parse
  rw [← h.graph, ← href]
  exact hdocuments.references _ (by rw [Graph.ref_sourceOf])

/-- The references of all documents are recorded alike. -/
theorem linked (h : intake.Resembles settings same other) :
    intake.linked.Resembles settings same other.linked := by
  have hedges : intake.entries.flatMap intake.graph.edgesOf =
      other.entries.flatMap other.graph.edgesOf := by
    refine flatMap_eq_of_forall₂ (fun entry entry' hentry => ?_) h.entries
    unfold Graph.edgesOf
    rw [h.parse hentry]
  refine ⟨?_, h.ownership, h.entries⟩
  unfold Intake.linked Intake.withReferences
  rw [hedges, h.graph]

end Intake.Resembles

/-! ### Whole exports -/

namespace Batch.Resembles

variable {batch other : Batch}

theorem inOrder (h : batch.Resembles settings same other) :
    List.Forall₂ (fun x y => x.1 = y.1 ∧ x.1.Resembles settings same x.2 y.2) batch.inOrder
      other.inOrder := by
  refine List.rel_flatMap (R := Eq) (List.forall₂_same.2 fun _ _ => rfl) ?_
  rintro kind _ rfl
  rw [List.forall₂_map_left_iff, List.forall₂_map_right_iff]
  exact (h kind).imp fun a b hab => ⟨rfl, hab⟩

/-- What is taken in. -/
theorem intake (h : batch.Resembles settings same other) :
    (batch.intake settings).Resembles settings same (other.intake settings) :=
  (Intake.Resembles.foldl_take settings.scope h.inOrder ⟨rfl, rfl, .nil⟩).linked

/-- The documents are converted in one context. -/
theorem context_eq (h : batch.Resembles settings same other) :
    batch.context settings = other.context settings := by
  unfold Batch.context Intake.context
  rw [h.intake.graph, h.intake.ownership]

/-- Documents that take part come to blocks that are the same in that respect, with the same
imports. -/
theorem outcome (h : batch.Resembles settings same other)
    (hname : ∀ a b, same a b → a.name = b.name) {kind : Kind} {a b : Members}
    (hab : kind.Resembles settings same a b) :
    Matches (fun kept kept' => same kept.1 kept'.1 ∧ kept.2 = kept'.2)
      (kind.converter.outcome (batch.context settings) a)
      (kind.converter.outcome (other.context settings) b) := by
  rw [← h.context_eq]
  have himports : kind.converter.imports (batch.context settings) a =
      kind.converter.imports (batch.context settings) b := by
    funext name
    unfold Converter.imports
    rw [kind.kind_converter, hab.identity, hab.parentId]
  have hdraft := hab.draft (batch.intake settings)
  unfold Converter.outcome
  unfold Batch.context at himports ⊢
  generalize (kind.converter.draft _ a).result _ = first at hdraft ⊢
  generalize (kind.converter.draft _ b).result _ = second at hdraft ⊢
  cases hdraft with
  | fault first second => exact .fault first second
  | failure failure => exact .failure failure
  | @ok block block' hsame =>
    dsimp only
    rw [himports, hname block block' hsame]
    split
    · cases orFail (kind.converter.imports (Intake.context settings (batch.intake settings)) b
        block'.name) with
      | error failure => exact .failure failure
      | ok imports => exact .ok ⟨hsame, rfl⟩
    · exact .ok ⟨hsame, rfl⟩

/-- Exports come to an end alike. -/
theorem completes_iff (h : batch.Resembles settings same other)
    (hname : ∀ a b, same a b → a.name = b.name) :
    batch.Completes settings ↔ other.Completes settings := by
  have hidentified : (∀ x ∈ batch.inOrder, (settings.scope.fate x.1 x.2).fault? = none) ↔
      ∀ y ∈ other.inOrder, (settings.scope.fate y.1 y.2).fault? = none := by
    refine forall_mem_iff_of_forall₂ ?_ h.inOrder
    rintro ⟨kind, a⟩ ⟨kind', b⟩ ⟨rfl, hab⟩
    rcases hab.fate settings.scope with ⟨entry, label, ha, hb, -, -⟩ | ⟨-, hfate⟩
    · simp only [ha, hb, Fate.fault?]
    · simp only [hfate]
  have hmet : (∀ entry ∈ (batch.intake settings).entries,
      ((batch.intake settings).graph.unmet? entry).isSome → settings.toleratesUnmetPaths = true) ↔
      ∀ entry ∈ (other.intake settings).entries,
        ((other.intake settings).graph.unmet? entry).isSome →
          settings.toleratesUnmetPaths = true := by
    refine forall_mem_iff_of_forall₂ (fun entry entry' hentry => ?_) h.intake.entries
    unfold Graph.unmet?
    rw [h.intake.parse hentry]
  have hsettles : (∀ entry ∈ (batch.intake settings).entries,
      entry.ref.kind.converter.Settles (batch.context settings) entry.document) ↔
      ∀ entry ∈ (other.intake settings).entries,
        entry.ref.kind.converter.Settles (other.context settings) entry.document := by
    refine forall_mem_iff_of_forall₂ ?_ h.intake.entries
    rintro ⟨ref, a⟩ ⟨ref', b⟩ ⟨rfl, hab⟩
    exact (h.outcome hname hab).settles_iff settings.isStrict
  constructor
  · rintro ⟨⟨hstrict, hpaths⟩, hall⟩
    exact ⟨⟨fun hs => hidentified.1 (hstrict hs), hmet.1 hpaths⟩, hsettles.1 hall⟩
  · rintro ⟨⟨hstrict, hpaths⟩, hall⟩
    exact ⟨⟨fun hs => hidentified.2 (hstrict hs), hmet.2 hpaths⟩, hsettles.2 hall⟩

/-- The documents of a kind that take part. -/
theorem documents (h : batch.Resembles settings same other) (kind : Kind) :
    List.Forall₂ (kind.Resembles settings same) ((batch.intake settings).documents kind)
      ((other.intake settings).documents kind) := by
  refine forall₂_map_filter ?_ ?_ h.intake.entries
  · rintro x y ⟨href, -⟩
    rw [href]
  · rintro x y ⟨-, hdocuments⟩ hx
    rwa [of_decide_eq_true hx] at hdocuments

/-- What is listed for the documents of every kind. -/
theorem flatMap_documents_eq {β : Type} (h : batch.Resembles settings same other)
    {f g : Kind → Members → List β}
    (hfg : ∀ (kind : Kind) a b, kind.Resembles settings same a b → f kind a = g kind b) :
    (Kind.all.flatMap fun kind => ((batch.intake settings).documents kind).flatMap (f kind)) =
      Kind.all.flatMap fun kind => ((other.intake settings).documents kind).flatMap (g kind) := by
  refine List.flatMap_congr fun kind _ => ?_
  exact flatMap_eq_of_forall₂ (hfg kind) (h.documents kind)

/-- The blocks of every kind are the same in that respect, one by one. -/
theorem forall₂_blocks (h : batch.Resembles settings same other)
    (hname : ∀ a b, same a b → a.name = b.name) (kind : Kind) :
    List.Forall₂ same
      (kind.output (batch.context settings) (batch.intake settings).documents).blocks
      (kind.output (other.context settings) (other.intake settings).documents).blocks := by
  rw [Kind.blocks_output, Kind.blocks_output]
  refine List.rel_filterMap ?_ (h.documents kind)
  intro a b hab
  have houtcome := h.outcome hname hab
  unfold Converter.block?
  generalize kind.converter.outcome _ a = first at houtcome ⊢
  generalize kind.converter.outcome _ b = second at houtcome ⊢
  cases houtcome with
  | fault first second => exact .none
  | failure failure => exact .none
  | ok hkept => exact .some hkept.1

/-- What exports come to is the same in that respect. -/
theorem result (h : batch.Resembles settings same other)
    (hname : ∀ a b, same a b → a.name = b.name) :
    (batch.result settings).Resembles same (other.result settings) := by
  refine ⟨rfl, ?_, ?_, ?_⟩
  · unfold Batch.result
    rw [List.forall₂_map_left_iff, List.forall₂_map_right_iff]
    exact List.forall₂_same.2 fun kind _ => h.forall₂_blocks hname kind
  · intro hinputs
    unfold Batch.result
    rw [Emission.inputs_recordKinds, Emission.inputs_recordKinds]
    refine congrArg ([] ++ ·) (h.flatMap_documents_eq fun kind a b hab => ?_)
    have houtcome := h.outcome hname hab
    unfold Converter.taken Converter.block?
    generalize kind.converter.outcome _ a = first at houtcome ⊢
    generalize kind.converter.outcome _ b = second at houtcome ⊢
    cases houtcome with
    | fault first second => rfl
    | failure failure => rfl
    | ok hkept => exact hinputs _ _ hkept.1
  · unfold Batch.result
    rw [Emission.imports_recordKinds, Emission.imports_recordKinds]
    refine congrArg ([] ++ ·) (h.flatMap_documents_eq fun kind a b hab => ?_)
    have houtcome := h.outcome hname hab
    unfold Converter.imported
    generalize kind.converter.outcome _ a = first at houtcome ⊢
    generalize kind.converter.outcome _ b = second at houtcome ⊢
    cases houtcome with
    | fault first second => rfl
    | failure failure => rfl
    | ok hkept => exact hkept.2

/-- **Exports of batches whose documents resemble each other** come to an end alike, and to results
that are the same in that respect. -/
theorem resembles_runExport (h : batch.Resembles settings same other)
    (hname : ∀ a b, same a b → a.name = b.name) :
    Option.Rel (ExportResult.Resembles same) (runExport .standard settings batch).toOption
      (runExport .standard settings other).toOption := by
  by_cases hcompletes : batch.Completes settings
  · rw [runExport_standard.2 ⟨hcompletes, rfl⟩,
      runExport_standard.2 ⟨(h.completes_iff hname).1 hcompletes, rfl⟩]
    exact .some (h.result hname)
  · have hnone : ∀ {batch : Batch}, ¬ batch.Completes settings →
        (runExport .standard settings batch).toOption = none := by
      intro batch hfails
      cases hrun : runExport .standard settings batch with
      | error failure => rfl
      | ok result => exact absurd (runExport_standard.1 hrun).1 hfails
    rw [hnone hcompletes, hnone fun hother => hcompletes ((h.completes_iff hname).2 hother)]
    exact .none

end Batch.Resembles

/-! ### What is put out -/

namespace ExportResult.Resembles

variable {result other : ExportResult}

/-- Where the texts of the blocks are the same, so are those of the configuration. -/
theorem texts_eq (h : result.Resembles same other) (hhcl : ∀ a b, same a b → a.hcl = b.hcl) :
    result.texts = other.texts := by
  have houtputs : result.outputs.map KindOutput.hcl = other.outputs.map KindOutput.hcl := by
    refine map_eq_of_forall₂ (fun output output' hblocks => ?_) h.blocks
    unfold KindOutput.hcl
    rw [map_eq_of_forall₂ hhcl hblocks]
  have hresources : result.resources = other.resources := by
    unfold resources
    rw [houtputs]
  unfold texts hcl provider ExportResult.imports
  rw [hresources, h.settings_eq, h.imports]

theorem inputs_eq (h : result.Resembles same other)
    (hinputs : ∀ a b, same a b → a.inputs = b.inputs) : result.inputs = other.inputs := by
  unfold ExportResult.inputs
  rw [h.inputs hinputs]

end ExportResult.Resembles

/-- What exports of such batches have in common, whenever one comes to an end. -/
theorem Batch.Resembles.toOption_map_eq {batch other : Batch}
    (h : batch.Resembles settings same other) (hname : ∀ a b, same a b → a.name = b.name)
    {β : Type} {f : ExportResult → β}
    (hf : ∀ result other : ExportResult, result.Resembles same other → f result = f other) :
    (runExport .standard settings batch).toOption.map f =
      (runExport .standard settings other).toOption.map f := by
  have hruns := h.resembles_runExport hname
  generalize (runExport .standard settings batch).toOption = first at hruns ⊢
  generalize (runExport .standard settings other).toOption = second at hruns ⊢
  cases hruns with
  | none => rfl
  | some hresults => exact congrArg some (hf _ _ hresults)

end HclExport
