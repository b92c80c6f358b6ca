import HclExport.Proofs.Export.Outcome

/-!
# Why a reference leads nowhere

The reason of a missing reference is read off the scope when the reference is written, while its
target is present or absent by what was taken in before. The two agree: a document of a covered
kind that is not left out and has an id is registered, so what is not registered, covered and not
left out is nowhere in the batch.

## Main results

* `Scope.classify_eq_excluded_iff`, `Scope.classify_eq_notIncluded_iff`,
  `Scope.classify_eq_notFound_iff` — what the reasons say of a scope.
* `Batch.has_of_resourceId` — which documents are registered.
* `ExportResult.Follows.find?_target` — the target of a missing reference is not registered.
* `ExportResult.reasons_of_missing` — **the reasons of missing references are right.**
-/

namespace HclExport

/-! ### Reasons -/

namespace Scope

variable {scope : Scope} {ref : Ref} {kind : Kind}

theorem isExcluded_eq_true_iff : scope.isExcluded ref = true ↔ ref ∈ scope.excluded := by
  simp [isExcluded]

theorem covers_eq_true_iff :
    scope.covers kind = true ↔ scope.included = [] ∨ kind ∈ scope.included := by
  simp [covers]

theorem classify_eq_excluded_iff : scope.classify ref = .excluded ↔ ref ∈ scope.excluded := by
  rw [← isExcluded_eq_true_iff, classify]
  split
  next hexcluded => simp [hexcluded]
  next hexcluded => split <;> simp [hexcluded]

/-- The kind of a target plays a part only if the target is not left out. -/
theorem classify_of_not_mem (h : ref ∉ scope.excluded) :
    scope.classify ref = if scope.covers ref.kind then .notFound else .notIncluded := by
  rw [← isExcluded_eq_true_iff] at h
  rw [classify, if_neg h]

theorem classify_eq_notIncluded_iff : scope.classify ref = .notIncluded ↔
    ref ∉ scope.excluded ∧ scope.included ≠ [] ∧ ref.kind ∉ scope.included := by
  rw [← not_or, ← covers_eq_true_iff]
  by_cases hexcluded : ref ∈ scope.excluded
  · simp [classify_eq_excluded_iff.2 hexcluded, hexcluded]
  · rw [classify_of_not_mem hexcluded]
    split
    next hcovers => simp [hcovers]
    next hcovers => simp [hexcluded, hcovers]

theorem classify_eq_notFound_iff : scope.classify ref = .notFound ↔
    ref ∉ scope.excluded ∧ (scope.included = [] ∨ ref.kind ∈ scope.included) := by
  rw [← covers_eq_true_iff]
  by_cases hexcluded : ref ∈ scope.excluded
  · simp [classify_eq_excluded_iff.2 hexcluded, hexcluded]
  · rw [classify_of_not_mem hexcluded]
    split
    next hcovers => simp [hexcluded, hcovers]
    next hcovers => simp [hcovers]

end Scope

/-! ### Documents that are registered -/

/-- A document that has an id has a label, since the id stands in for a name. -/
theorem Kind.exists_label {kind : Kind} {document : Members} {id : String}
    (hid : resourceId kind document = .ok id) :
    ∃ label, kind.converter.label document = .ok label := by
  have hown : ∃ label, labelOf kind document = .ok label := by
    unfold labelOf
    split
    · exact ⟨sanitize id, by rw [hid]; rfl⟩
    · exact ⟨_, rfl⟩
  cases kind with
  | «variable» => exact ⟨_, rfl⟩
  | connectorInstance => exact hown
  | flow => exact hown
  | application => exact hown
  | flowPolicy => exact hown

/-- A document of a covered kind that has an id and is not left out is a candidate. -/
theorem Scope.candidate?_of_resourceId {scope : Scope} {kind : Kind} {document : Members}
    {id : String} (hid : resourceId kind document = .ok id) (hcovers : scope.covers kind = true)
    (hexcluded : (⟨kind, id⟩ : Ref) ∉ scope.excluded) :
    scope.candidate? (kind, document) = some ⟨⟨kind, id⟩, document⟩ := by
  obtain ⟨label, hlabel⟩ := Kind.exists_label hid
  have hidentify : Intake.identify kind.converter document = .ok (⟨kind, id⟩, label) := by
    unfold Intake.identify
    rw [Kind.kind_converter, hid, hlabel]
    rfl
  rw [← isExcluded_eq_true_iff] at hexcluded
  unfold candidate? fate
  rw [if_pos hcovers, hidentify]
  dsimp only
  rw [if_neg hexcluded]
  rfl

namespace Batch

theorem mem_inOrder_iff {batch : Batch} {kind : Kind} {document : Members} :
    (kind, document) ∈ batch.inOrder ↔ document ∈ batch.of kind := by
  simp [inOrder, Kind.mem_all]

/-- A document of a covered kind that has an id and is not left out is registered, under its own
entry or under that of an earlier document. -/
theorem has_of_resourceId {settings : ExportSettings} {batch : Batch} {kind : Kind}
    {document : Members} {id : String} (hdocument : document ∈ batch.of kind)
    (hid : resourceId kind document = .ok id) (hcovers : settings.scope.covers kind = true)
    (hexcluded : (⟨kind, id⟩ : Ref) ∉ settings.scope.excluded) :
    (batch.intake settings).graph.has ⟨kind, id⟩ = true := by
  rw [(batch.accounts_intake settings).has_iff]
  have hcandidate := Scope.candidate?_of_resourceId hid hcovers hexcluded
  exact List.mem_map.2
    ⟨_, List.mem_filterMap.2 ⟨_, mem_inOrder_iff.2 hdocument, hcandidate⟩, rfl⟩

end Batch

/-! ### Missing references -/

/-- The record of a missing reference: its target is not registered, and the reason is that of the
scope. -/
theorem Context.missing?_eq_some {context : Context} {request : Request} {record : MissingRecord}
    (h : context.missing? request = some record) :
    context.graph.graph.find? record.target.ref = none ∧
      record.reason = context.scope.classify record.target.ref := by
  unfold missing? at h
  split at h
  · cases h
  obtain ⟨e, -, h⟩ := Option.bind_eq_some_iff.1 h
  split at h
  next => cases h
  next hnone =>
    obtain rfl := Option.some.inj h
    exact ⟨hnone, rfl⟩

namespace ExportResult

variable {settings : ExportSettings} {batch : Batch} {result : ExportResult}

namespace Follows

/-- Every record comes from a reference that a document asked for. -/
theorem exists_missing? (h : result.Follows settings) {record : MissingRecord}
    (hrecord : record ∈ result.ledger.missing) :
    ∃ request, (result.intake.context settings).missing? request = some record := by
  obtain ⟨entry, -, hentry⟩ := List.mem_flatMap.1 (h.missing_perm.mem_iff.1 hrecord)
  obtain ⟨request, -, hrequest⟩ := List.mem_filterMap.1 hentry
  exact ⟨request, hrequest⟩

theorem reason_eq (h : result.Follows settings) {record : MissingRecord}
    (hrecord : record ∈ result.ledger.missing) :
    record.reason = settings.scope.classify record.target.ref := by
  obtain ⟨request, hrequest⟩ := h.exists_missing? hrecord
  exact (Context.missing?_eq_some hrequest).2

/-- The target of a missing reference is not registered. -/
theorem find?_target (h : result.Follows settings) {record : MissingRecord}
    (hrecord : record ∈ result.ledger.missing) :
    result.intake.graph.find? record.target.ref = none := by
  obtain ⟨request, hrequest⟩ := h.exists_missing? hrecord
  exact (Context.missing?_eq_some hrequest).1

/-- The resource of a block is registered. -/
theorem isSome_find?_of_block (h : result.Follows settings) {output : KindOutput} {block : Block}
    (houtput : output ∈ result.outputs) (hblock : block ∈ output.blocks) :
    (result.intake.graph.find? block.ref).isSome = true := by
  obtain ⟨entry, hentry, hgiven⟩ := h.mem_blocks_iff.1 ⟨output, houtput, hblock⟩
  obtain ⟨r, -, hfound⟩ := h.complete.exists_find? hentry
  rw [(h.complete.isFor_of_block? hentry hgiven).ref_eq, hfound]
  rfl

end Follows

/-- **The reasons of missing references are right.** A target is left out if the scope leaves it
out; otherwise it is not included if the scope is restricted to other kinds, and not found if the
scope covers its kind. Where it is not found, no document of its kind has its id. No output has a
block for the target of a missing reference. -/
theorem reasons_of_missing (h : runExport .standard settings batch = .ok result) :
    ∀ record ∈ result.ledger.missing,
      (record.reason = .excluded ↔ record.target.ref ∈ settings.scope.excluded) ∧
      (record.reason = .notIncluded ↔ record.target.ref ∉ settings.scope.excluded ∧
        settings.scope.included ≠ [] ∧ record.target.ref.kind ∉ settings.scope.included) ∧
      (record.reason = .notFound ↔ record.target.ref ∉ settings.scope.excluded ∧
        (settings.scope.included = [] ∨ record.target.ref.kind ∈ settings.scope.included)) ∧
      (record.reason = .notFound → ∀ document ∈ batch.of record.target.ref.kind,
        resourceId record.target.ref.kind document ≠ .ok record.target.ref.id) ∧
      ∀ output ∈ result.outputs, ∀ block ∈ output.blocks, block.ref ≠ record.target.ref := by
  have hfollows := follows_of_runExport h
  intro record hrecord
  have habsent := hfollows.find?_target hrecord
  rw [hfollows.reason_eq hrecord]
  refine ⟨Scope.classify_eq_excluded_iff, Scope.classify_eq_notIncluded_iff,
    Scope.classify_eq_notFound_iff, ?_, ?_⟩
  · -- a document with the id of the target would have been registered
    intro hreason document hdocument hid
    obtain ⟨hexcluded, hcovers⟩ := Scope.classify_eq_notFound_iff.1 hreason
    have hhas := Batch.has_of_resourceId hdocument hid
      (Scope.covers_eq_true_iff.2 hcovers) hexcluded
    obtain ⟨-, rfl⟩ := runExport_standard.1 h
    have hnone : (batch.intake settings).graph.has record.target.ref = false := by
      rw [Graph.has, Option.isSome_eq_false_iff, Option.isNone_iff_eq_none]
      exact habsent
    rw [hnone] at hhas
    cases hhas
  · intro output houtput block hblock htarget
    have hsome := hfollows.isSome_find?_of_block houtput hblock
    rw [htarget, habsent] at hsome
    cases hsome

/-- A flow that uses two connector instances and a variable, and a connector instance. -/
def scatteredFlow : Batch where
  documents :=
    [(.connectorInstance, [("id", .str "c"), ("name", .str "Form")]),
     (.flow, flowWithNodes "f" "Login"
      [[("id", .str "n"), ("connectionId", .str "c")],
       [("id", .str "m"), ("connectionId", .str "d"),
        ("properties", .obj [("variableId", .str "v")])]])]

/-- Settings that cover flows and connector instances, and leave out one connector instance. -/
def shutSettings : ExportSettings :=
  { ExportSettings.plain with
    scope := { excluded := [⟨.connectorInstance, "c"⟩], included := [.connectorInstance, .flow] } }

/-- All three reasons in one export. -/
theorem reasons_of_missing_scatteredFlow : ∃ result,
    runExport .standard shutSettings scatteredFlow = .ok result ∧
    result.ledger.missing.map MissingRecord.reason = [.notFound, .notIncluded, .excluded] ∧
    ∃ record ∈ result.ledger.missing, record.reason = .notFound ∧
      (∀ document ∈ scatteredFlow.of record.target.ref.kind,
        resourceId record.target.ref.kind document ≠ .ok record.target.ref.id) ∧
      ∀ output ∈ result.outputs, ∀ block ∈ output.blocks, block.ref ≠ record.target.ref := by
  have h : (runExport .standard shutSettings scatteredFlow).toOption.any (fun result =>
      result.ledger.missing.map MissingRecord.reason == [.notFound, .notIncluded, .excluded]) =
        true := by
    decide +kernel
  obtain ⟨result, hresult, htest⟩ := exists_ok_of_any h
  have hreasons := eq_of_beq htest
  have hfound : MissingReason.notFound ∈ result.ledger.missing.map MissingRecord.reason := by
    rw [hreasons]
    decide
  obtain ⟨record, hrecord, hreason⟩ := List.mem_map.1 hfound
  obtain ⟨-, -, -, habsent, hblocks⟩ := reasons_of_missing hresult record hrecord
  exact ⟨result, hresult, hreasons, record, hrecord, hreason, habsent hreason, hblocks⟩

end ExportResult

end HclExport
