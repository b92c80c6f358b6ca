import HclExport.Export.Run
import HclExport.Proofs.Conversion.Emission
import HclExport.Proofs.Export.Reference

/-!
# What an export consists of

An export that comes to an end, read off the documents that take part: the blocks that are
kept, and what was left behind when the documents were converted. Documents are converted
kind by kind, so what they leave behind is listed in that order.

## Main definitions

* `Entry.outcome`, `Entry.block?`, `Entry.missing`, `Entry.unlinked` — what a document comes to
  and leaves behind.
* `ExportResult.Follows` — a result follows from the documents that take part.
* `ExportResult.keeps` — whether a result has a block for a resource.

## Main results

* `Intake.flatMap_documents_perm` — what is listed kind by kind, document by document.
* `ExportResult.follows_of_runExport` — every export that comes to an end.
* `ExportResult.Follows.mem_blocks_iff`, `ExportResult.Follows.keeps_iff` — which blocks are
  kept.
-/

namespace HclExport

/-- Elements that are listed by a key, key by key. -/
theorem flatMap_filter_perm {α κ : Type} [DecidableEq κ] (key : α → κ) (xs : List α) {keys : List κ}
    (h : keys.Nodup) :
    (keys.flatMap fun k => xs.filter fun x => key x = k).Perm
      (xs.filter fun x => key x ∈ keys) := by
  induction keys with
  | nil => simp
  | cons k rest ih =>
    obtain ⟨hk, hrest⟩ := List.nodup_cons.1 h
    -- what has the first key comes first, and the rest is listed by the other keys
    have hsplit := List.filter_append_perm (fun x => decide (key x = k))
      (xs.filter fun x => key x ∈ k :: rest)
    rw [List.filter_filter, List.filter_filter] at hsplit
    refine List.Perm.trans ?_ hsplit
    rw [List.flatMap_cons]
    refine List.Perm.append (List.Perm.of_eq (List.filter_congr ?_))
      ((ih hrest).trans (List.Perm.of_eq (List.filter_congr ?_)))
    · intro x _
      by_cases hx : key x = k <;> simp [hx]
    · intro x _
      by_cases hx : key x = k
      · simp [hx, hk]
      · simp [hx]

theorem Kind.nodup_all : Kind.all.Nodup := by
  decide

/-! ### Documents that take part -/

namespace Entry

variable (context : Context) (entry : Entry)

/-- What a document comes to. -/
def outcome : Except Failure (Block × List ImportBlock) :=
  entry.ref.kind.converter.outcome context entry.document

/-- What a document asks for. -/
def requests : List Request :=
  entry.ref.kind.converter.requests context entry.document

/-- The block of a document, if it gives one. -/
def block? : Option Block :=
  entry.ref.kind.converter.block? context entry.document

/-- What the references of a document that lead nowhere are recorded as. -/
def missing : List MissingRecord :=
  entry.ref.kind.converter.missing context entry.document

/-- What the references of a document that are written as ids are recorded as. -/
def unlinked : List UnlinkedReference :=
  entry.ref.kind.converter.unlinked context entry.document

variable {context entry}

theorem block?_eq_some_iff {block : Block} :
    entry.block? context = some block ↔ ∃ imports, entry.outcome context = .ok (block, imports) := by
  unfold block? outcome Converter.block?
  split
  next found imports h => simp [h]
  next h => simp [h]

theorem result_of_outcome_ok {block : Block} {imports : List ImportBlock}
    (h : entry.outcome context = .ok (block, imports)) :
    (entry.ref.kind.converter.draft context entry.document).result context.answer = .ok block :=
  Converter.result_of_outcome_ok h

end Entry

namespace Intake

/-- The block of a document that takes part stands for its resource. -/
theorem Registered.isFor_of_block? {intake : Intake} (h : intake.Registered) {entry : Entry}
    (hentry : entry ∈ intake.entries) {context : Context} {block : Block}
    (hblock : entry.block? context = some block) : block.IsFor context entry.ref := by
  obtain ⟨imports, houtcome⟩ := Entry.block?_eq_some_iff.1 hblock
  exact Kind.ensures_isFor entry.ref.kind (h.identified entry hentry) _ block
    (Entry.result_of_outcome_ok houtcome)

/-! ### Documents kind by kind -/

/-- A document that takes part is listed under its kind. -/
theorem mem_documents {intake : Intake} {entry : Entry} (hentry : entry ∈ intake.entries) :
    entry.document ∈ intake.documents entry.ref.kind := by
  have hfiltered : entry ∈ intake.entries.filter fun other => other.ref.kind = entry.ref.kind :=
    List.mem_filter.2 ⟨hentry, by simp⟩
  exact List.mem_map_of_mem hfiltered

theorem flatMap_documents {β : Type} (intake : Intake) (f : Kind → Members → List β)
    (kind : Kind) :
    (intake.documents kind).flatMap (f kind) =
      (intake.entries.filter fun entry => entry.ref.kind = kind).flatMap fun entry =>
        f entry.ref.kind entry.document := by
  unfold documents
  rw [List.flatMap_map]
  refine List.flatMap_congr ?_
  intro entry hentry
  have hkind : entry.ref.kind = kind := by simpa using (List.mem_filter.1 hentry).2
  rw [hkind]

/-- What the documents of a kind give, in order. -/
theorem filterMap_documents (intake : Intake) (context : Context) (kind : Kind) :
    (intake.documents kind).filterMap (kind.converter.block? context) =
      (intake.entries.filter fun entry => entry.ref.kind = kind).filterMap (Entry.block? context) := by
  unfold documents
  rw [List.filterMap_map]
  refine List.filterMap_congr ?_
  intro entry hentry
  have hkind : entry.ref.kind = kind := by simpa using (List.mem_filter.1 hentry).2
  rw [Function.comp_apply, Entry.block?, hkind]

/-- What is listed for the documents of each kind, kind by kind. -/
theorem flatMap_documents_perm {β : Type} (intake : Intake) (f : Kind → Members → List β) :
    (Kind.all.flatMap fun kind => (intake.documents kind).flatMap (f kind)).Perm
      (intake.entries.flatMap fun entry => f entry.ref.kind entry.document) := by
  simp only [flatMap_documents]
  rw [← List.flatMap_assoc]
  refine List.Perm.flatMap_right _ ?_
  -- every kind is listed, so that no document is lost
  have h := flatMap_filter_perm (fun entry : Entry => entry.ref.kind) intake.entries Kind.nodup_all
  simpa [Kind.mem_all] using h

end Intake

/-! ### Results -/

namespace ExportResult

/-- A result follows from the documents that take part. -/
structure Follows (settings : ExportSettings) (result : ExportResult) : Prop where
  settings_eq : result.settings = settings
  complete : result.intake.Complete settings
  outputs : result.outputs =
    Kind.all.map (Kind.output (result.intake.context settings) result.intake.documents)
  missing_perm : result.ledger.missing.Perm
    (result.intake.entries.flatMap (Entry.missing (result.intake.context settings)))
  unlinked_perm : result.ledger.unlinked.Perm
    (result.intake.entries.flatMap (Entry.unlinked (result.intake.context settings)))
  settles : ∀ entry ∈ result.intake.entries,
    entry.ref.kind.converter.Settles (result.intake.context settings) entry.document

/-- Every export that comes to an end follows from the documents that take part. -/
theorem follows_of_runExport {settings : ExportSettings} {batch : Batch} {result : ExportResult}
    (h : runExport .standard settings batch = .ok result) : result.Follows settings := by
  unfold runExport at h
  cases hintake : Intake.ofBatch .standard settings batch with
  | error failure =>
    rw [hintake] at h
    cases h
  | ok intake =>
    rw [hintake] at h
    cases hconvert : Emission.convertAll .standard (intake.context settings) intake.documents {} with
    | mk outputs emission =>
      cases outputs with
      | error failure =>
        simp only [bind, Except.bind, hconvert] at h
        cases h
      | ok found =>
        simp only [bind, Except.bind, hconvert] at h
        obtain rfl := Except.ok.inj h
        obtain ⟨houtputs, hmissing, hunlinked, hsettles⟩ := Emission.convertKinds_eq_ok hconvert
        refine ⟨rfl, Intake.complete_ofBatch hintake, houtputs, ?_, ?_, ?_⟩
        · rw [hmissing]
          exact intake.flatMap_documents_perm fun kind => kind.converter.missing _
        · rw [hunlinked]
          exact intake.flatMap_documents_perm fun kind => kind.converter.unlinked _
        · intro entry hentry
          have hdocument := Intake.mem_documents hentry
          exact hsettles entry.ref.kind (Kind.mem_all _) entry.document hdocument

/-! ### Blocks that are kept -/

/-- Whether a result has a block for a resource. -/
def keeps (result : ExportResult) (ref : Ref) : Bool :=
  result.outputs.any fun output => output.blocks.any fun block => block.ref = ref

namespace Follows

variable {settings : ExportSettings} {result : ExportResult}

/-- The blocks of a result are those that the documents give. -/
theorem mem_blocks_iff (h : result.Follows settings) {block : Block} :
    (∃ output ∈ result.outputs, block ∈ output.blocks) ↔
      ∃ entry ∈ result.intake.entries,
        entry.block? (result.intake.context settings) = some block := by
  rw [h.outputs]
  constructor
  · rintro ⟨output, houtput, hblock⟩
    obtain ⟨kind, -, rfl⟩ := List.mem_map.1 houtput
    rw [Kind.blocks_output, List.mem_filterMap] at hblock
    obtain ⟨document, hdocument, hblock⟩ := hblock
    obtain ⟨entry, hentry, rfl⟩ := List.mem_map.1 hdocument
    obtain ⟨hentry, hkind⟩ := List.mem_filter.1 hentry
    refine ⟨entry, hentry, ?_⟩
    rw [Entry.block?, of_decide_eq_true hkind]
    exact hblock
  · rintro ⟨entry, hentry, hblock⟩
    refine ⟨_, List.mem_map_of_mem (Kind.mem_all entry.ref.kind), ?_⟩
    rw [Kind.blocks_output, List.mem_filterMap]
    exact ⟨entry.document, Intake.mem_documents hentry, hblock⟩

/-- A document that takes part has a block if and only if its resource is kept. -/
theorem keeps_iff (h : result.Follows settings) {entry : Entry}
    (hentry : entry ∈ result.intake.entries) :
    result.keeps entry.ref = true ↔
      (entry.block? (result.intake.context settings)).isSome = true := by
  have hkeeps : result.keeps entry.ref = true ↔
      ∃ block, (∃ output ∈ result.outputs, block ∈ output.blocks) ∧ block.ref = entry.ref := by
    simp only [keeps, List.any_eq_true, decide_eq_true_eq]
    constructor
    · rintro ⟨output, houtput, block, hblock, href⟩
      exact ⟨block, ⟨output, houtput, hblock⟩, href⟩
    · rintro ⟨block, ⟨output, houtput, hblock⟩, href⟩
      exact ⟨output, houtput, block, hblock, href⟩
  rw [hkeeps, Option.isSome_iff_exists]
  constructor
  · rintro ⟨block, hblock, href⟩
    -- the document of a block has the identity of the block, so it is this one
    obtain ⟨other, hother, hblock⟩ := h.mem_blocks_iff.1 hblock
    have hother' := h.complete.isFor_of_block? hother hblock
    rw [hother'.ref_eq] at href
    obtain rfl := h.complete.entry_injective hother hentry href
    exact ⟨block, hblock⟩
  · rintro ⟨block, hblock⟩
    exact ⟨block, h.mem_blocks_iff.2 ⟨entry, hentry, hblock⟩,
      (h.complete.isFor_of_block? hentry hblock).ref_eq⟩

end Follows

end ExportResult

/-! ### Exports that are run -/

/-- A result that passes a test. -/
theorem exists_ok_of_any {ε α : Type} {outcome : Except ε α} {test : α → Bool}
    (h : outcome.toOption.any test = true) : ∃ result, outcome = .ok result ∧ test result = true := by
  cases outcome with
  | error failure => cases h
  | ok result => exact ⟨result, rfl, h⟩

/-- A result of which something is known. -/
theorem exists_ok_of_map {ε α β : Type} {outcome : Except ε α} {f : α → β} {b : β}
    (h : outcome.toOption.map f = some b) : ∃ result, outcome = .ok result ∧ f result = b := by
  cases outcome with
  | error failure => cases h
  | ok result => exact ⟨result, rfl, Option.some.inj h⟩

/-- Settings that ask for nothing. -/
def ExportSettings.plain : ExportSettings where
  environmentId := .str ""
  region := .northAmerica
  skipsReferences := false
  writesImports := false
  usesVariables := false
  toleratesUnmetPaths := false
  mergesOwnership := false
  isStrict := false
  scope := {}
  environment_given := fun _ => ⟨rfl, rfl⟩

/-- A flow with nodes, given their data. -/
def flowWithNodes (id name : String) (nodes : List Members) : Members :=
  [("id", .str id), ("name", .str name),
   ("graphData", .obj [("elements", .obj
     [("nodes", .arr (nodes.map fun data => .obj [("data", .obj data)]))])])]

/-- A connector instance and a flow that uses it. -/
def connectedFlow : Batch where
  documents :=
    [(.connectorInstance,
      [("id", .str "c"), ("name", .str "Form"), ("connector", .obj [("id", .str "formConnector")])]),
     (.flow, flowWithNodes "f" "Login" [[("id", .str "n"), ("connectionId", .str "c")]])]

end HclExport
