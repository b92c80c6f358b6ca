import HclExport.Proofs.Export.Alike
import HclExport.Proofs.Export.Outcome

/-!
# Exports in which nothing goes wrong

Two settings say whether an export goes on when something went wrong: one is for documents at
fault, the other for required paths that are not met. They only ever decide whether the export
ends there. So an export that ends at nothing is one that would go on and has nothing to report,
and both put out the same.

## Main definitions

* `ExportSettings.strict`, `ExportSettings.tolerant` — the same settings, with one of the two set.
* `ExportResult.under` — the same result under other settings.

## Main results

* `Kind.settles_strict_iff` — when a document does not end a strict conversion.
* `Batch.completes_strict_iff`, `Batch.completes_tolerant_iff` — when nothing ends an export.
* `runExport_clean` — **the settings make no difference where there is nothing to report.**
-/

namespace HclExport

/-! ### Strict conversions -/

/-- The same context, in strict mode or not. -/
def Context.strict (context : Context) (isStrict : Bool) : Context :=
  { context with isStrict := isStrict }

namespace Kind

variable (kind : Kind) (context : Context) (isStrict : Bool)

/-- Strict mode has no say in what a document comes to, only in what follows from it. -/
theorem outcome_strict (document : Members) :
    kind.converter.outcome (context.strict isStrict) document =
      kind.converter.outcome context document := by
  cases kind <;> rfl

theorem requests_strict (document : Members) :
    kind.converter.requests (context.strict isStrict) document =
      kind.converter.requests context document := by
  cases kind <;> rfl

theorem add_strict :
    kind.converter.add (context.strict isStrict) = kind.converter.add context := by
  funext output document
  unfold Converter.add
  rw [outcome_strict]

theorem record_strict :
    kind.converter.record (context.strict isStrict) = kind.converter.record context := by
  funext ledger document
  unfold Converter.record
  rw [outcome_strict, requests_strict]
  rfl

theorem output_strict (documents : Kind → List Members) :
    output (context.strict isStrict) documents = output context documents := by
  funext kind
  unfold output
  rw [add_strict]

/-- A document that does not end a strict conversion is one that a conversion which goes on has
nothing to report of. -/
theorem settles_strict_iff (document : Members) :
    kind.converter.Settles (context.strict true) document ↔
      kind.converter.Settles (context.strict false) document ∧
        kind.converter.problem? (context.strict false) document = none := by
  unfold Converter.Settles Converter.problem?
  rw [outcome_strict, outcome_strict]
  cases kind.converter.outcome context document with
  | ok kept => simp
  | error failure =>
    cases failure with
    | fault fault => simp [Context.strict]
    | _ => simp

end Kind

theorem Emission.recordKinds_strict (context : Context) (isStrict : Bool)
    (documents : Kind → List Members) (kinds : List Kind) (ledger : Ledger) :
    recordKinds (context.strict isStrict) documents kinds ledger =
      recordKinds context documents kinds ledger := by
  unfold recordKinds
  simp only [Kind.record_strict]

/-! ### Settings -/

namespace ExportSettings

/-- The same settings, in strict mode or not. -/
def strict (settings : ExportSettings) (isStrict : Bool) : ExportSettings :=
  { settings with isStrict := isStrict }

/-- The same settings, tolerating unmet paths or not. -/
def tolerant (settings : ExportSettings) (tolerates : Bool) : ExportSettings :=
  { settings with toleratesUnmetPaths := tolerates }

end ExportSettings

/-- The same result under other settings. -/
def ExportResult.under (settings : ExportSettings) (result : ExportResult) : ExportResult :=
  { result with settings := settings }

/-- Whether an export goes on is not put out. -/
theorem ExportResult.published_under_strict (result : ExportResult) (isStrict : Bool) :
    (result.under (result.settings.strict isStrict)).published = result.published := rfl

theorem ExportResult.published_under_tolerant (result : ExportResult) (tolerates : Bool) :
    (result.under (result.settings.tolerant tolerates)).published = result.published := rfl

namespace Batch

variable (settings : ExportSettings) (batch : Batch)

/-! ### Faults -/

theorem result_strict (isStrict : Bool) :
    batch.result (settings.strict isStrict) =
      (batch.result settings).under (settings.strict isStrict) := by
  have hcontext : batch.context (settings.strict isStrict) =
      (batch.context settings).strict isStrict := rfl
  unfold result ExportResult.under
  rw [hcontext, Kind.output_strict, Emission.recordKinds_strict]
  rfl

/-- There is nothing to report if every document can be identified, and no document that takes
part meets a fault. -/
theorem problems_eq_nil_iff : (batch.result settings).metrics.problems = [] ↔
    (∀ document ∈ batch.inOrder, (settings.scope.fate document.1 document.2).fault? = none) ∧
    ∀ entry ∈ (batch.intake settings).entries,
      entry.ref.kind.converter.problem? (batch.context settings) entry.document = none := by
  have hintake : (batch.intake settings).problems = [] ↔
      ∀ document ∈ batch.inOrder,
        (settings.scope.fate document.1 document.2).fault? = none := by
    rw [(batch.accounts_intake settings).problems, List.filterMap_eq_nil_iff]
    simp only [Scope.problem?, Option.map_eq_none_iff]
  have houtputs : (batch.result settings).outputs.flatMap KindOutput.problems = [] ↔
      ∀ entry ∈ (batch.intake settings).entries,
        entry.ref.kind.converter.problem? (batch.context settings) entry.document = none := by
    simp only [result, List.flatMap_map, List.flatMap_eq_nil_iff, Kind.problems_output,
      List.filterMap_eq_nil_iff]
    constructor
    · intro h entry hentry
      exact h _ (Kind.mem_all _) _ (Intake.mem_documents hentry)
    · intro h kind _ document hdocument
      obtain ⟨entry, hentry, rfl, rfl⟩ := Intake.mem_documents_iff.1 hdocument
      exact h entry hentry
  rw [← hintake, ← houtputs]
  exact List.append_eq_nil_iff

theorem admissible_strict_iff : batch.Admissible (settings.strict true) ↔
    batch.Admissible (settings.strict false) ∧
      ∀ document ∈ batch.inOrder,
        (settings.scope.fate document.1 document.2).fault? = none := by
  constructor
  · rintro ⟨hidentified, hmet⟩
    exact ⟨⟨fun h => absurd h (by simp [ExportSettings.strict]), hmet⟩, hidentified rfl⟩
  · rintro ⟨⟨-, hmet⟩, hidentified⟩
    exact ⟨fun _ => hidentified, hmet⟩

/-- Nothing ends a strict export exactly if nothing ends the one that goes on after faults, and
that has nothing to report. -/
theorem completes_strict_iff : batch.Completes (settings.strict true) ↔
    batch.Completes (settings.strict false) ∧
      (batch.result (settings.strict false)).metrics.problems = [] := by
  have hsettles (entry : Entry) :=
    entry.ref.kind.settles_strict_iff (batch.context settings) entry.document
  rw [problems_eq_nil_iff]
  constructor
  · rintro ⟨hadmissible, hall⟩
    obtain ⟨hadmissible, hidentified⟩ := (admissible_strict_iff settings batch).1 hadmissible
    refine ⟨⟨hadmissible, ?_⟩, hidentified, ?_⟩
    · intro entry hentry
      exact ((hsettles entry).1 (hall entry hentry)).1
    · intro entry hentry
      exact ((hsettles entry).1 (hall entry hentry)).2
  · rintro ⟨⟨hadmissible, hall⟩, hidentified, hnone⟩
    refine ⟨(admissible_strict_iff settings batch).2 ⟨hadmissible, hidentified⟩, ?_⟩
    intro entry hentry
    exact (hsettles entry).2 ⟨hall entry hentry, hnone entry hentry⟩

/-! ### Unmet paths -/

theorem unmetPaths_eq_nil_iff : (batch.result settings).metrics.unmetPaths = [] ↔
    ∀ entry ∈ (batch.intake settings).entries,
      (batch.intake settings).graph.unmet? entry = none := by
  show (batch.intake settings).unmetPaths.map UnmetPath.record = [] ↔ _
  rw [List.map_eq_nil_iff, (batch.complete_intake settings).unmetPaths, List.filterMap_eq_nil_iff]

/-- Nothing ends an export that does not tolerate unmet paths exactly if nothing ends the one that
does, and that has noted none. -/
theorem completes_tolerant_iff : batch.Completes (settings.tolerant false) ↔
    batch.Completes (settings.tolerant true) ∧
      (batch.result (settings.tolerant true)).metrics.unmetPaths = [] := by
  rw [unmetPaths_eq_nil_iff]
  constructor
  · rintro ⟨⟨hidentified, hmet⟩, hsettles⟩
    refine ⟨⟨⟨hidentified, fun _ _ _ => rfl⟩, hsettles⟩, ?_⟩
    intro entry hentry
    -- an unmet path would have to be tolerated
    cases hunmet : (batch.intake settings).graph.unmet? entry with
    | none => exact hunmet
    | some unmet => cases hmet entry hentry (Option.isSome_of_eq_some hunmet)
  · rintro ⟨⟨⟨hidentified, -⟩, hsettles⟩, hnone⟩
    refine ⟨⟨hidentified, ?_⟩, hsettles⟩
    intro entry hentry hunmet
    rw [show (batch.intake (settings.tolerant false)).graph.unmet? entry = none from
      hnone entry hentry] at hunmet
    cases hunmet

end Batch

/-! ### Exports -/

/-- **Whether an export goes on when something went wrong makes no difference where nothing
does.** A strict export comes to a result exactly if the export that goes on after faults does and
reports no fault; then the results are the same, and so is all that is put out. The same holds of
an export that ends at unmet paths, if the one that tolerates them has noted none. -/
theorem runExport_clean (settings : ExportSettings) (batch : Batch) (result : ExportResult) :
    (runExport .standard (settings.strict true) batch = .ok result ↔
      ∃ other, runExport .standard (settings.strict false) batch = .ok other ∧
        other.metrics.problems = [] ∧ result = other.under (settings.strict true) ∧
        result.published = other.published) ∧
    (runExport .standard (settings.tolerant false) batch = .ok result ↔
      ∃ other, runExport .standard (settings.tolerant true) batch = .ok other ∧
        other.metrics.unmetPaths = [] ∧ result = other.under (settings.tolerant false) ∧
        result.published = other.published) := by
  constructor
  · rw [runExport_standard, Batch.completes_strict_iff]
    have hresult : batch.result (settings.strict true) =
        (batch.result (settings.strict false)).under (settings.strict true) := by
      rw [Batch.result_strict, Batch.result_strict]
      rfl
    constructor
    · rintro ⟨⟨hcompletes, hproblems⟩, rfl⟩
      refine ⟨_, runExport_standard.2 ⟨hcompletes, rfl⟩, hproblems, hresult, ?_⟩
      rw [hresult]
      exact ExportResult.published_under_strict (batch.result (settings.strict false)) true
    · rintro ⟨other, hother, hproblems, rfl, -⟩
      obtain ⟨hcompletes, rfl⟩ := runExport_standard.1 hother
      exact ⟨⟨hcompletes, hproblems⟩, hresult.symm⟩
  · rw [runExport_standard, Batch.completes_tolerant_iff]
    -- what is taken in and converted is the same by definition
    constructor
    · rintro ⟨⟨hcompletes, hunmet⟩, rfl⟩
      refine ⟨_, runExport_standard.2 ⟨hcompletes, rfl⟩, hunmet, rfl, ?_⟩
      exact ExportResult.published_under_tolerant (batch.result (settings.tolerant true)) false
    · rintro ⟨other, hother, hunmet, rfl, -⟩
      obtain ⟨hcompletes, rfl⟩ := runExport_standard.1 hother
      exact ⟨⟨hcompletes, hunmet⟩, rfl⟩

end HclExport
