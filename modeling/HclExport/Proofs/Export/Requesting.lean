import HclExport.Proofs.Export.Skipping

/-!
# Exports with and without imports

Whether imports are asked for has no say in what a document is converted to. But the import is part
of the conversion of a document, and it is refused to a policy that names no application: where
imports are asked for, such a policy is reported and left out, and it ends a strict export.
Everything else comes out the same.

## Main definitions

* `Context.requesting`, `ExportSettings.requesting` — the same, with or without imports.
* `ExportResult.isOwnerless` — whether a resource is a policy that names no application.

## Main results

* `Kind.settles_requesting_iff` — which documents end a conversion with imports.
* `Batch.blocks_requesting` — which blocks are kept with imports.
* `runExport_requesting` — **what becomes of an export when imports are asked for.**
-/

namespace HclExport

/-! ### Documents -/

/-- The same context, with or without imports. -/
def Context.requesting (context : Context) (writes : Bool) : Context :=
  { context with writesImports := writes }

namespace Kind

variable {kind : Kind} {context : Context} {document : Members}

/-- What the conversion of a document comes to does not depend on whether imports are asked for. -/
theorem result_requesting (kind : Kind) (context : Context) (document : Members) (writes : Bool) :
    (kind.converter.draft (context.requesting writes) document).result
        (context.requesting writes).answer =
      (kind.converter.draft context document).result context.answer := by
  cases kind <;> rfl

theorem requests_requesting (kind : Kind) (context : Context) (document : Members)
    (writes : Bool) :
    kind.converter.requests (context.requesting writes) document =
      kind.converter.requests context document := by
  cases kind <;> rfl

theorem missing_requesting (kind : Kind) (context : Context) (writes : Bool) :
    kind.converter.missing (context.requesting writes) = kind.converter.missing context := by
  funext document
  unfold Converter.missing
  rw [requests_requesting]
  rfl

theorem unlinked_requesting (kind : Kind) (context : Context) (writes : Bool) :
    kind.converter.unlinked (context.requesting writes) = kind.converter.unlinked context := by
  funext document
  unfold Converter.unlinked
  rw [requests_requesting]
  rfl

theorem importable_requesting (writes : Bool) :
    kind.Importable (context.requesting writes) document ↔ kind.Importable context document :=
  ⟨fun h => ⟨h.identified, h.environment, h.owned⟩,
    fun h => ⟨h.identified, h.environment, h.owned⟩⟩

theorem outcome_of_error {failure : Failure}
    (h : (kind.converter.draft context document).result context.answer = .error failure)
    (writes : Bool) :
    kind.converter.outcome (context.requesting writes) document = .error failure := by
  unfold Converter.outcome
  rw [result_requesting, h]

theorem outcome_without {block : Block}
    (h : (kind.converter.draft context document).result context.answer = .ok block) :
    kind.converter.outcome (context.requesting false) document = .ok (block, []) := by
  unfold Converter.outcome
  rw [result_requesting, h]
  rfl

/-- Without imports no document has one. -/
theorem imported_without (kind : Kind) (context : Context) (document : Members) :
    kind.converter.imported (context.requesting false) document = [] := by
  unfold Converter.imported
  cases hresult : (kind.converter.draft context document).result context.answer with
  | error failure => rw [outcome_of_error hresult]
  | ok block => rw [outcome_without hresult]

theorem outcome_with {block : Block}
    (h : (kind.converter.draft context document).result context.answer = .ok block)
    (himportable : kind.Importable context document) :
    ∃ imports, kind.converter.outcome (context.requesting true) document = .ok (block, imports) := by
  obtain ⟨imports, himports⟩ := imports_eq_ok_iff.2 ((importable_requesting true).2 himportable)
  refine ⟨imports, ?_⟩
  unfold Converter.outcome
  rw [result_requesting, h]
  dsimp only
  rw [himports]
  rfl

theorem outcome_refused {block : Block}
    (h : (kind.converter.draft context document).result context.answer = .ok block)
    (hrefused : ¬ kind.Importable context document) :
    ∃ fault, kind.converter.outcome (context.requesting true) document =
      .error (.fault fault) := by
  have hnone : ∀ imports, kind.converter.imports (context.requesting true) document block.name ≠
      .ok imports := by
    intro imports himports
    exact hrefused ((importable_requesting true).1 (imports_eq_ok_iff.1 ⟨imports, himports⟩))
  unfold Converter.outcome
  rw [result_requesting, h]
  dsimp only
  cases himports : kind.converter.imports (context.requesting true) document block.name with
  | ok imports => exact absurd himports (hnone imports)
  | error fault => exact ⟨fault, rfl⟩

/-- A document does not end a conversion with imports if it does not end the one without, and
nothing that a strict conversion asks for is refused. -/
theorem settles_requesting_iff : kind.converter.Settles (context.requesting true) document ↔
    kind.converter.Settles (context.requesting false) document ∧
      (context.isStrict = true → kind.Importable context document) := by
  have hstrict (writes : Bool) : (context.requesting writes).isStrict = context.isStrict := rfl
  unfold Converter.Settles
  rw [hstrict, hstrict]
  cases hresult : (kind.converter.draft context document).result context.answer with
  | error failure =>
    rw [outcome_of_error hresult, outcome_of_error hresult]
    constructor
    · rintro (⟨kept, h⟩ | ⟨hlenient, h⟩)
      · cases h
      · exact ⟨Or.inr ⟨hlenient, h⟩, fun h => absurd h (by simp [hlenient])⟩
    · exact fun h => h.1
  | ok block =>
    rw [outcome_without hresult]
    by_cases himportable : kind.Importable context document
    · obtain ⟨imports, houtcome⟩ := outcome_with hresult himportable
      rw [houtcome]
      exact iff_of_true (Or.inl ⟨_, rfl⟩) ⟨Or.inl ⟨_, rfl⟩, fun _ => himportable⟩
    · obtain ⟨fault, houtcome⟩ := outcome_refused hresult himportable
      rw [houtcome]
      constructor
      · rintro (⟨kept, h⟩ | ⟨hlenient, -⟩)
        · cases h
        · exact ⟨Or.inl ⟨_, rfl⟩, fun h => absurd h (by simp [hlenient])⟩
      · rintro ⟨-, hall⟩
        exact Or.inr ⟨Bool.eq_false_iff.2 fun h => himportable (hall h), fault, rfl⟩

/-- A document that can be imported comes to the same block or report. -/
theorem block?_of_importable (himportable : kind.Importable context document) :
    kind.converter.block? (context.requesting true) document =
        kind.converter.block? (context.requesting false) document ∧
      kind.converter.problem? (context.requesting true) document =
        kind.converter.problem? (context.requesting false) document := by
  unfold Converter.block? Converter.problem?
  cases hresult : (kind.converter.draft context document).result context.answer with
  | error failure =>
    rw [outcome_of_error hresult, outcome_of_error hresult]
    exact ⟨rfl, rfl⟩
  | ok block =>
    obtain ⟨imports, houtcome⟩ := outcome_with hresult himportable
    rw [houtcome, outcome_without hresult]
    exact ⟨rfl, rfl⟩

/-- A document that cannot be imported comes to no block. -/
theorem block?_of_refused (hrefused : ¬ kind.Importable context document) :
    kind.converter.block? (context.requesting true) document = none := by
  unfold Converter.block?
  cases hresult : (kind.converter.draft context document).result context.answer with
  | error failure => rw [outcome_of_error hresult]
  | ok block =>
    obtain ⟨fault, houtcome⟩ := outcome_refused hresult hrefused
    rw [houtcome]

/-- Whatever is reported without imports is reported with them. -/
theorem problem?_requesting {problem : Problem}
    (h : kind.converter.problem? (context.requesting false) document = some problem) :
    kind.converter.problem? (context.requesting true) document = some problem := by
  unfold Converter.problem? at h ⊢
  cases hresult : (kind.converter.draft context document).result context.answer with
  | error failure =>
    rw [outcome_of_error hresult] at h ⊢
    exact h
  | ok block =>
    rw [outcome_without hresult] at h
    cases h

/-- A policy takes nothing from outside. -/
theorem taken_flowPolicy (context : Context) (document : Members) :
    Kind.flowPolicy.converter.taken context document = [] := by
  unfold Converter.taken
  split
  next block hblock =>
    unfold Converter.block? at hblock
    split at hblock
    next found imports houtcome =>
      obtain rfl := Option.some.inj hblock
      exact Kind.ensures_inputs .flowPolicy context document context.answer found
        (Converter.result_of_outcome_ok houtcome)
    next => cases hblock
  next => rfl

end Kind

/-! ### Settings -/

/-- The same settings, with or without imports; the environment is given. -/
def ExportSettings.requesting (settings : ExportSettings)
    (henvironment : settings.environmentId.isTruthy = true) (writes : Bool) : ExportSettings :=
  { settings with
    writesImports := writes
    environment_given := fun hnone => by
      rw [hnone] at henvironment
      cases henvironment }

/-- Whether a resource is a policy that names no application. -/
def ExportResult.isOwnerless (result : ExportResult) (ref : Ref) : Bool :=
  result.intake.entries.any fun entry => decide (entry.ref = ref ∧ entry.IsOwnerless)

namespace Batch

variable {settings : ExportSettings} {batch : Batch}
  (henvironment : settings.environmentId.isTruthy = true)

/-! ### Documents that take part -/

include henvironment in
theorem importable_iff {entry : Entry} (hentry : entry ∈ (batch.intake settings).entries) :
    entry.ref.kind.Importable (batch.context settings) entry.document ↔ ¬ entry.IsOwnerless :=
  (batch.complete_intake settings).importable_iff henvironment hentry

include henvironment in
/-- A document that takes part takes the same from outside. -/
theorem taken_requesting {entry : Entry} (hentry : entry ∈ (batch.intake settings).entries) :
    entry.taken ((batch.context settings).requesting true) =
      entry.taken ((batch.context settings).requesting false) := by
  unfold Entry.taken
  by_cases hownerless : entry.IsOwnerless
  · rw [hownerless.1, Kind.taken_flowPolicy, Kind.taken_flowPolicy]
  · unfold Converter.taken
    rw [(Kind.block?_of_importable ((importable_iff henvironment hentry).2 hownerless)).1]

/-- Nothing ends an export with imports exactly if nothing ends the one without, and a strict one
meets no policy that names no application. -/
theorem completes_requesting_iff :
    batch.Completes (settings.requesting henvironment true) ↔
      batch.Completes (settings.requesting henvironment false) ∧
        (settings.isStrict = true →
          ∀ entry ∈ (batch.intake settings).entries, ¬ entry.IsOwnerless) := by
  have hsettles {entry : Entry} (hentry : entry ∈ (batch.intake settings).entries) :
      entry.ref.kind.converter.Settles ((batch.context settings).requesting true)
          entry.document ↔
        entry.ref.kind.converter.Settles ((batch.context settings).requesting false)
            entry.document ∧ (settings.isStrict = true → ¬ entry.IsOwnerless) := by
    rw [Kind.settles_requesting_iff, importable_iff henvironment hentry]
    rfl
  constructor
  · rintro ⟨⟨hidentified, hmet⟩, hall⟩
    refine ⟨⟨⟨hidentified, hmet⟩, ?_⟩, ?_⟩
    · intro entry hentry
      exact ((hsettles hentry).1 (hall entry hentry)).1
    · intro hstrict entry hentry
      exact ((hsettles hentry).1 (hall entry hentry)).2 hstrict
  · rintro ⟨⟨⟨hidentified, hmet⟩, hall⟩, howned⟩
    refine ⟨⟨hidentified, hmet⟩, ?_⟩
    intro entry hentry
    exact (hsettles hentry).2 ⟨hall entry hentry, fun hstrict => howned hstrict entry hentry⟩

/-! ### Results -/

theorem context_requesting (writes : Bool) :
    batch.context (settings.requesting henvironment writes) =
      (batch.context settings).requesting writes := rfl

/-- The block of a document with imports is the one without, unless it is of a policy that names no
application. -/
theorem block?_requesting {entry : Entry} (hentry : entry ∈ (batch.intake settings).entries) :
    entry.block? ((batch.context settings).requesting true) =
      (entry.block? ((batch.context settings).requesting false)).filter fun block =>
        !(batch.result (settings.requesting henvironment false)).isOwnerless block.ref := by
  have hregistered := (batch.complete_intake settings).toRegistered
  -- the block of a document stands for its resource, which no other document has
  have hblock {block : Block}
      (hblock : entry.block? ((batch.context settings).requesting false) = some block) :
      (batch.result (settings.requesting henvironment false)).isOwnerless block.ref =
        decide entry.IsOwnerless := by
    rw [(hregistered.isFor_of_block? hentry hblock).ref_eq, Bool.eq_iff_iff, decide_eq_true_iff]
    simp only [ExportResult.isOwnerless, List.any_eq_true, decide_eq_true_eq]
    constructor
    · rintro ⟨other, hother, href, hownerless⟩
      rwa [← hregistered.entry_injective hother hentry href]
    · intro hownerless
      exact ⟨entry, hentry, rfl, hownerless⟩
  have himportable := importable_iff henvironment hentry
  have hwith : entry.block? ((batch.context settings).requesting true) =
      if entry.IsOwnerless then none
      else entry.block? ((batch.context settings).requesting false) := by
    split
    next hownerless => exact Kind.block?_of_refused fun h => himportable.1 h hownerless
    next howned => exact (Kind.block?_of_importable (himportable.2 howned)).1
  rw [hwith]
  cases hresult : entry.block? ((batch.context settings).requesting false) with
  | none => simp
  | some block =>
    by_cases hownerless : entry.IsOwnerless
    · simp [Option.filter, hblock hresult, hownerless]
    · simp [Option.filter, hblock hresult, hownerless]

/-- The blocks of each kind with imports are those without, apart from policies that name no
application. -/
theorem blocks_requesting :
    (batch.result (settings.requesting henvironment true)).outputs.map
        (fun output => (output.kind, output.blocks)) =
      (batch.result (settings.requesting henvironment false)).outputs.map fun output =>
        (output.kind, output.blocks.filter fun block =>
          !(batch.result (settings.requesting henvironment false)).isOwnerless block.ref) := by
  show (Kind.all.map _).map _ = (Kind.all.map _).map _
  rw [List.map_map, List.map_map]
  refine List.map_congr_left ?_
  intro kind _
  simp only [Function.comp_apply, Kind.kind_output, Kind.blocks_output,
    Intake.filterMap_documents, List.filter_filterMap]
  refine congrArg (Prod.mk kind) (List.filterMap_congr ?_)
  intro entry hentry
  exact block?_requesting henvironment (List.mem_filter.1 hentry).1

/-- The reports without imports stand, in the same order, among those with them. -/
theorem problems_requesting :
    (batch.result (settings.requesting henvironment false)).metrics.problems.Sublist
      (batch.result (settings.requesting henvironment true)).metrics.problems := by
  refine List.Sublist.append (List.Sublist.refl _) ?_
  show ((Kind.all.map _).flatMap _).Sublist ((Kind.all.map _).flatMap _)
  rw [List.flatMap_map, List.flatMap_map]
  simp only [Kind.problems_output]
  induction Kind.all with
  | nil => exact List.Sublist.refl _
  | cons kind rest ih =>
    rw [List.flatMap_cons, List.flatMap_cons]
    refine List.Sublist.append ?_ ih
    rw [context_requesting, context_requesting]
    exact filterMap_sublist_filterMap (fun _ _ => Kind.problem?_requesting) _

/-- The same inputs and references are listed, with imports or without. -/
theorem ledger_requesting :
    let on := (batch.result (settings.requesting henvironment true)).ledger
    let off := (batch.result (settings.requesting henvironment false)).ledger
    on.inputs = off.inputs ∧ on.missing = off.missing ∧ on.unlinked = off.unlinked ∧
      off.imports = [] := by
  dsimp only [result]
  rw [context_requesting, context_requesting]
  refine ⟨?_, ?_, ?_, ?_⟩
  · rw [Emission.inputs_recordKinds, Emission.inputs_recordKinds]
    refine congrArg _ (List.flatMap_congr fun kind _ => List.flatMap_congr ?_)
    intro document hdocument
    obtain ⟨entry, hentry, rfl, rfl⟩ := Intake.mem_documents_iff.1 hdocument
    exact taken_requesting henvironment hentry
  · simp only [Emission.missing_recordKinds, Kind.missing_requesting]
    rfl
  · simp only [Emission.unlinked_recordKinds, Kind.unlinked_requesting]
    rfl
  · rw [Emission.imports_recordKinds]
    simp [Kind.imported_without]

/-- An export that does not tolerate unmet paths has no policy that names no application. -/
theorem Admissible.not_isOwnerless (h : batch.Admissible settings)
    (htolerates : settings.toleratesUnmetPaths = false) {entry : Entry}
    (hentry : entry ∈ (batch.intake settings).entries) : ¬ entry.IsOwnerless := by
  rintro ⟨hkind, hunnamed⟩
  obtain ⟨unmet, hparse⟩ := Intake.Complete.exists_unmet_of_unnamed hkind hunnamed
  have hunmet : ((batch.intake settings).graph.unmet? entry).isSome := by
    rw [Graph.unmet?, hparse]
    rfl
  rw [h.met entry hentry hunmet] at htolerates
  cases htolerates

end Batch

namespace ExportResult

variable {settings : ExportSettings}

/-- Results with the same blocks of each kind have the same resources. -/
theorem resources_congr {result other : ExportResult}
    (h : result.outputs.map (fun output => (output.kind, output.blocks)) =
      other.outputs.map fun output => (output.kind, output.blocks)) :
    result.resources = other.resources ∧ result.metrics.generated = other.metrics.generated := by
  have hresources (r : ExportResult) : r.outputs.map KindOutput.hcl =
      (r.outputs.map fun output => (output.kind, output.blocks)).map fun listed =>
        Hcl.sortBlocks (listed.2.map Block.hcl) := by
    rw [List.map_map]
    rfl
  have hgenerated (r : ExportResult) : r.metrics.generated =
      (r.outputs.map fun output => (output.kind, output.blocks)).foldl
        (fun counts listed => counts.set listed.1 listed.2.length) {} := by
    rw [List.foldl_map]
    rfl
  constructor
  · unfold resources
    rw [hresources, hresources, h]
  · rw [hgenerated, hgenerated, h]

/-- Each document that takes part gives a block or a report, with imports or without. -/
theorem total_requesting (henvironment : settings.environmentId.isTruthy = true) {batch : Batch}
    (hon : batch.Completes (settings.requesting henvironment true))
    (hoff : batch.Completes (settings.requesting henvironment false)) :
    (batch.result (settings.requesting henvironment true)).metrics.generated.total +
        (batch.result (settings.requesting henvironment true)).metrics.problems.length =
      (batch.result (settings.requesting henvironment false)).metrics.generated.total +
        (batch.result (settings.requesting henvironment false)).metrics.problems.length := by
  have hontotal := length_converted hon
  have hofftotal := length_converted hoff
  have hproblems (settings : ExportSettings) : (batch.result settings).metrics.problems.length =
      (batch.intake settings).problems.length +
        ((batch.result settings).outputs.flatMap KindOutput.problems).length :=
    List.length_append
  have hintake (writes : Bool) : batch.intake (settings.requesting henvironment writes) =
      batch.intake settings := rfl
  rw [hproblems, hproblems, hintake, hintake]
  rw [hintake] at hontotal hofftotal
  omega

/-- Where no policy is kept that names no application, none is left out. -/
theorem filter_isOwnerless {result : ExportResult}
    (hkept : ∀ entry ∈ result.intake.entries, entry.IsOwnerless → result.keeps entry.ref = false)
    {output : KindOutput} (houtput : output ∈ result.outputs) :
    (output.blocks.filter fun block => !result.isOwnerless block.ref) = output.blocks := by
  rw [List.filter_eq_self]
  intro block hblock
  rw [Bool.not_eq_true', Bool.eq_false_iff]
  intro hownerless
  obtain ⟨entry, hentry, hmatch⟩ := List.any_eq_true.1 hownerless
  obtain ⟨href, hentryOwnerless⟩ := of_decide_eq_true hmatch
  have hkeeps : result.keeps entry.ref = true := by
    rw [href]
    exact List.any_eq_true.2 ⟨output, houtput, List.any_eq_true.2 ⟨block, hblock, by simp⟩⟩
  rw [hkept entry hentry hentryOwnerless] at hkeeps
  cases hkeeps

end ExportResult

/-- **What becomes of an export when imports are asked for.** It comes to a result exactly if it
does without imports and, where it is strict, no policy takes part that names no application. Then
the same is taken in, and the same inputs, missing references and written ids are listed. The blocks
are those without imports, apart from the policies that name no application; every one of these that
is left out is reported, along with all that is reported without imports. So where no such policy is
kept, and in any case where unmet paths are not tolerated, the resources, their counts and the
reports are the same. -/
theorem runExport_requesting {settings : ExportSettings}
    (henvironment : settings.environmentId.isTruthy = true) (batch : Batch) :
    ((∃ on, runExport .standard (settings.requesting henvironment true) batch = .ok on) ↔
      ∃ off, runExport .standard (settings.requesting henvironment false) batch = .ok off ∧
        (settings.isStrict = true → ∀ entry ∈ off.intake.entries, ¬ entry.IsOwnerless)) ∧
    ∀ on off,
      runExport .standard (settings.requesting henvironment true) batch = .ok on →
      runExport .standard (settings.requesting henvironment false) batch = .ok off →
        on.intake = off.intake ∧ on.inputs = off.inputs ∧
        on.ledger.missing = off.ledger.missing ∧ on.ledger.unlinked = off.ledger.unlinked ∧
        off.ledger.imports = [] ∧
        on.outputs.map (fun output => (output.kind, output.blocks)) =
          off.outputs.map (fun output =>
            (output.kind, output.blocks.filter fun block => !off.isOwnerless block.ref)) ∧
        off.metrics.problems.Sublist on.metrics.problems ∧
        on.metrics.generated.total + on.metrics.problems.length =
          off.metrics.generated.total + off.metrics.problems.length ∧
        (settings.toleratesUnmetPaths = false ∨
            (∀ entry ∈ off.intake.entries, entry.IsOwnerless → off.keeps entry.ref = false) →
          on.resources = off.resources ∧ on.metrics.generated = off.metrics.generated ∧
          on.metrics.problems = off.metrics.problems) := by
  constructor
  · constructor
    · rintro ⟨on, hon⟩
      obtain ⟨hcompletes, -⟩ := runExport_standard.1 hon
      obtain ⟨hcompletes, howned⟩ := (Batch.completes_requesting_iff henvironment).1 hcompletes
      exact ⟨_, runExport_standard.2 ⟨hcompletes, rfl⟩, howned⟩
    · rintro ⟨off, hoff, howned⟩
      obtain ⟨hcompletes, rfl⟩ := runExport_standard.1 hoff
      have hboth := (Batch.completes_requesting_iff henvironment).2 ⟨hcompletes, howned⟩
      exact ⟨_, runExport_standard.2 ⟨hboth, rfl⟩⟩
  · intro on off hon hoff
    obtain ⟨hcompletesOn, rfl⟩ := runExport_standard.1 hon
    obtain ⟨hcompletesOff, rfl⟩ := runExport_standard.1 hoff
    obtain ⟨hinputs, hmissing, hunlinked, himports⟩ :=
      @Batch.ledger_requesting settings batch henvironment
    have hblocks := @Batch.blocks_requesting settings batch henvironment
    have hproblems := @Batch.problems_requesting settings batch henvironment
    have htotal := ExportResult.total_requesting henvironment hcompletesOn hcompletesOff
    refine ⟨rfl, ?_, hmissing, hunlinked, himports, hblocks, hproblems, htotal, ?_⟩
    · unfold ExportResult.inputs
      rw [hinputs]
    · intro hcase
      have hkept : ∀ entry ∈ (batch.intake settings).entries, entry.IsOwnerless →
          (batch.result (settings.requesting henvironment false)).keeps entry.ref = false := by
        rcases hcase with htolerates | hkept
        · intro entry hentry hownerless
          exact absurd hownerless (hcompletesOff.not_isOwnerless htolerates hentry)
        · exact hkept
      -- nothing is left out, so as many documents are reported
      have hsame := hblocks.trans (List.map_congr_left fun output houtput =>
        congrArg (Prod.mk output.kind) (ExportResult.filter_isOwnerless hkept houtput))
      obtain ⟨hresources, hgenerated⟩ := ExportResult.resources_congr hsame
      refine ⟨hresources, hgenerated, (hproblems.eq_of_length ?_).symm⟩
      rw [hgenerated] at htotal
      omega

/-- With imports the policy is left out and reported, although its flow is listed either way. -/
theorem runExport_requesting_skippedDocuments :
    ExportSettings.importing.lenient.environmentId.isTruthy = true ∧
    ∃ on off,
      runExport .standard (ExportSettings.importing.lenient.requesting rfl true)
        skippedDocuments = .ok on ∧
      runExport .standard (ExportSettings.importing.lenient.requesting rfl false)
        skippedDocuments = .ok off ∧
      on.ledger.unlinked = off.ledger.unlinked ∧
      off.metrics.problems.Sublist on.metrics.problems ∧
      on.metrics.generated.total + on.metrics.problems.length =
        off.metrics.generated.total + off.metrics.problems.length ∧
      off.metrics.generated.total = 1 := by
  have h : (runExport .standard (ExportSettings.importing.lenient.requesting rfl false)
      skippedDocuments).toOption.any (fun off => off.metrics.generated.total == 1) = true := by
    decide +kernel
  obtain ⟨off, hoff, htotal⟩ := exists_ok_of_any h
  obtain ⟨hreturns, hsame⟩ :=
    @runExport_requesting ExportSettings.importing.lenient rfl skippedDocuments
  obtain ⟨on, hon⟩ := hreturns.2 ⟨off, hoff, fun hstrict => by cases hstrict⟩
  obtain ⟨-, -, -, hunlinked, -, -, hproblems, hboth, -⟩ := hsame on off hon hoff
  exact ⟨rfl, on, off, hon, hoff, hunlinked, hproblems, hboth, eq_of_beq htotal⟩

/-- **Asking for imports loses a block.** Without imports the policy is converted, with the id of its
flow written as it is, and with imports nothing is. -/
theorem generated_requesting_skippedDocuments :
    ∃ on off,
      runExport .standard (ExportSettings.importing.lenient.requesting rfl true)
        skippedDocuments = .ok on ∧
      runExport .standard (ExportSettings.importing.lenient.requesting rfl false)
        skippedDocuments = .ok off ∧
      on.metrics.generated.total = 0 ∧ off.metrics.generated.total = 1 := by
  have hon : (runExport .standard (ExportSettings.importing.lenient.requesting rfl true)
      skippedDocuments).toOption.map (fun on => on.metrics.generated.total) = some 0 := by
    decide +kernel
  have hoff : (runExport .standard (ExportSettings.importing.lenient.requesting rfl false)
      skippedDocuments).toOption.map (fun off => off.metrics.generated.total) = some 1 := by
    decide +kernel
  obtain ⟨on, hon, hnone⟩ := exists_ok_of_map hon
  obtain ⟨off, hoff, hone⟩ := exists_ok_of_map hoff
  exact ⟨on, off, hon, hoff, hnone, hone⟩

end HclExport
