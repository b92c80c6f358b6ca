import HclExport.Proofs.Conversion.Skipping
import HclExport.Proofs.Export.Imports
import HclExport.Proofs.Export.Missing

/-!
# What skipped documents leave in an export

An export with imports has an environment, so an import is only refused to a policy that names no
application. Such a policy is skipped after its references were written. They are all written as
ids, since its required paths are not met, and these ids are what an export lists of documents that
are not in its output; everything else that it lists belongs to a block that is kept.

## Main definitions

* `Entry.IsOwnerless` — a policy that names no application.

## Main results

* `Intake.Registered.importable_iff` — which imports an export can write.
* `skipped_leave_nothing_unless_refused` — **what documents that are skipped leave behind.**
-/

namespace HclExport

/-- A policy that names no application. -/
def Entry.IsOwnerless (entry : Entry) : Prop :=
  entry.ref.kind = .flowPolicy ∧ entry.document.text "applicationId" = ""

instance : DecidablePred Entry.IsOwnerless := fun entry =>
  inferInstanceAs (Decidable (entry.ref.kind = .flowPolicy ∧
    entry.document.text "applicationId" = ""))

variable {settings : ExportSettings}

/-- Of the documents that take part, all can be imported but policies that name no application. -/
theorem Intake.Registered.importable_iff {intake : Intake} (h : intake.Registered)
    (henvironment : settings.environmentId.isTruthy = true) {entry : Entry}
    (hentry : entry ∈ intake.entries) :
    entry.ref.kind.Importable (intake.context settings) entry.document ↔ ¬ entry.IsOwnerless := by
  constructor
  · rintro ⟨-, -, howned⟩ ⟨hkind, hunnamed⟩
    obtain ⟨owner, howner, hgiven⟩ := howned hkind
    rw [h.owningApplication_eq hentry hkind, if_pos hunnamed] at howner
    rw [← Except.ok.inj howner] at hgiven
    exact hgiven rfl
  · intro howned
    refine ⟨⟨_, h.identified entry hentry⟩, henvironment, fun hkind => ?_⟩
    have hnamed : entry.document.text "applicationId" ≠ "" := fun hnone => howned ⟨hkind, hnone⟩
    refine ⟨_, h.owningApplication_eq hentry hkind, ?_⟩
    rw [if_neg hnamed]
    exact hnamed

namespace ExportResult.Follows

variable {result : ExportResult}

/-- A document that takes part is kept, or leaves no references behind, or is a policy without an
application whose import was refused. -/
theorem keeps_of_requests (h : result.Follows settings) {entry : Entry}
    (hentry : entry ∈ result.intake.entries) {request : Request}
    (hrequest : request ∈ entry.requests (result.intake.context settings)) :
    result.keeps entry.ref = true ∨ settings.writesImports = true ∧ entry.IsOwnerless := by
  rcases h.settles entry hentry with ⟨⟨block, imports⟩, houtcome⟩ | ⟨-, fault, hfault⟩
  · left
    rw [h.keeps_iff hentry, Entry.block?_eq_some_iff.2 ⟨imports, houtcome⟩]
    rfl
  · rcases Kind.requests_of_skipped hfault with ⟨-, hnone⟩ | ⟨-, -, hasked, hrefused⟩
    · unfold Entry.requests at hrequest
      rw [hnone] at hrequest
      cases hrequest
    · have hwrites : settings.writesImports = true := hasked
      refine Or.inr ⟨hwrites, ?_⟩
      rw [h.complete.importable_iff (settings.environment_of_writesImports hwrites) hentry,
        not_not] at hrefused
      exact hrefused

/-- What is recorded as missing belongs to a block that is kept. -/
theorem keeps_of_mem_missing (h : result.Follows settings) {record : MissingRecord}
    (hrecord : record ∈ result.ledger.missing) : result.keeps record.source.ref = true := by
  obtain ⟨entry, hentry, hrecord⟩ := List.mem_flatMap.1 (h.missing_perm.mem_iff.1 hrecord)
  by_cases hskip : settings.skipsReferences = true
  · -- without references nothing is recorded
    obtain ⟨request, -, hmissing⟩ := List.mem_filterMap.1 hrecord
    have hskip' : (result.intake.context settings).skipsReferences = true := hskip
    rw [Context.missing?, if_pos hskip'] at hmissing
    cases hmissing
  · have hperm := h.missing_entry_perm (Bool.eq_false_iff.2 hskip) hentry
    obtain ⟨e, he, rfl⟩ := List.mem_map.1 (hperm.mem_iff.1 hrecord)
    exact (Bool.and_eq_true_iff.1 (List.mem_filter.1 he).2).2

/-- An id that was written belongs to a block that is kept, or to a policy without an application
whose import was refused. -/
theorem keeps_of_mem_unlinked (h : result.Follows settings) {reference : UnlinkedReference}
    (hreference : reference ∈ result.ledger.unlinked) :
    ∃ entry ∈ result.intake.entries, reference.source = entry.ref.key ∧
      (result.keeps entry.ref = true ∨ settings.writesImports = true ∧ entry.IsOwnerless) := by
  obtain ⟨entry, hentry, hreference⟩ := List.mem_flatMap.1 (h.unlinked_perm.mem_iff.1 hreference)
  obtain ⟨-, hsource, -⟩ :=
    h.complete.exists_unmet_of_mem_unlinked hentry (h.settles entry hentry) hreference
  obtain ⟨request, hrequest, -⟩ := List.mem_filterMap.1 hreference
  exact ⟨entry, hentry, hsource, h.keeps_of_requests hentry hrequest⟩

end ExportResult.Follows

namespace ExportResult

variable {batch : Batch} {result : ExportResult}

/-- An import belongs to a block that is kept. -/
theorem exists_block_of_mem_imports (h : runExport .standard settings batch = .ok result)
    {item : ImportBlock} (hitem : item ∈ result.ledger.imports) :
    ∃ output ∈ result.outputs, ∃ block ∈ output.blocks, item.name = block.name ∧
      item.type ∈ block.ref.kind.importedTypes := by
  have hfollows := follows_of_runExport h
  obtain ⟨entry, hentry, himported⟩ := List.mem_flatMap.1 ((imports_perm h).mem_iff.1 hitem)
  have hwrites : settings.writesImports = true := by
    obtain ⟨block, imports, houtcome, hmem⟩ := Entry.exists_of_mem_imported himported
    have himports := Converter.imports_of_outcome houtcome
    by_contra hnone
    have hnone' : ¬ (result.intake.context settings).writesImports = true := hnone
    rw [if_neg hnone'] at himports
    rw [himports] at hmem
    cases hmem
  obtain ⟨block, hblock, hname, htype⟩ := hfollows.complete.of_mem_imported hwrites hentry himported
  obtain ⟨output, houtput, hkept⟩ := hfollows.mem_blocks_iff.2 ⟨entry, hentry, hblock⟩
  rw [← (hfollows.complete.isFor_of_block? hentry hblock).ref_eq] at htype
  exact ⟨output, houtput, block, hkept, hname, htype⟩

end ExportResult

/-- **What documents that are skipped leave behind.** In every context, a document that is skipped
adds no input and no import, and it leaves everything as it was unless its block was written and
its import was refused; then its references have been recorded. So without the documents that meet
a fault a conversion keeps the same blocks and leaves the same behind. Every input, every import and
every missing reference that an export lists belongs to a block that is kept, and so does every id
that was written, except for those of policies which name no application and whose import was
refused. -/
theorem skipped_leave_nothing_unless_refused (context : Context) (kind : Kind) :
    (∀ (document : Members) (ledger left : Ledger) (fault : Fault),
      (Emission.convertDocument context kind.converter document).run ledger =
          (.error (.fault fault), left) →
        left.inputs = ledger.inputs ∧ left.imports = ledger.imports ∧
        (left = ledger ∨ kind.Refuses context document ∧
          left.missing = ledger.missing ++ kind.converter.missing context document ∧
          left.unlinked = ledger.unlinked ++ kind.converter.unlinked context document)) ∧
    (∀ (documents : List Members) (output final : KindOutput) (emission after : Emission),
      Emission.convertDocuments context kind.converter output emission documents =
          (.ok final, after) →
        ∃ final' after',
          Emission.convertDocuments context kind.converter output emission
            (documents.filter (kind.converter.writes context)) = (.ok final', after') ∧
          final'.blocks = final.blocks ∧ after'.ledger = after.ledger) ∧
    (∀ (settings : ExportSettings) (batch : Batch) (result : ExportResult),
      runExport .standard settings batch = .ok result →
        (∀ v ∈ result.ledger.inputs,
          ∃ output ∈ result.outputs, ∃ block ∈ output.blocks, v ∈ block.inputs) ∧
        (∀ item ∈ result.ledger.imports,
          ∃ output ∈ result.outputs, ∃ block ∈ output.blocks, item.name = block.name ∧
            item.type ∈ block.ref.kind.importedTypes) ∧
        (∀ record ∈ result.ledger.missing, result.keeps record.source.ref = true) ∧
        (∀ reference ∈ result.ledger.unlinked,
          ∃ entry ∈ result.intake.entries, reference.source = entry.ref.key ∧
            (result.keeps entry.ref = true ∨
              settings.writesImports = true ∧ entry.IsOwnerless))) := by
  refine ⟨?_, ?_, ?_⟩
  · intro document ledger left fault h
    exact Emission.run_convertDocument_skipped h
  · intro documents output final emission after h
    exact Emission.convertDocuments_filter_writes h
  · intro settings batch result h
    have hfollows := ExportResult.follows_of_runExport h
    refine ⟨?_, ?_, ?_, ?_⟩
    · intro v hv
      exact ExportResult.exists_block_of_mem_inputs h hv
    · intro item hitem
      exact ExportResult.exists_block_of_mem_imports h hitem
    · intro record hrecord
      exact hfollows.keeps_of_mem_missing hrecord
    · intro reference hreference
      exact hfollows.keeps_of_mem_unlinked hreference

/-- A flow without a name that uses a connector instance, and a policy without an application that
distributes requests over a flow. -/
def skippedDocuments : Batch where
  documents :=
    [(.flow, flowWithNodes "f" "" [[("id", .str "n"), ("connectionId", .str "c")]]),
     (.flowPolicy,
      [("id", .str "p"), ("name", .str "Default"),
       ("flowDistributions", .arr [.obj [("id", .str "g")]])])]

/-- The flow leaves nothing behind, and the id that is listed is one of the policy. -/
theorem skipped_leave_nothing_unless_refused_skippedDocuments :
    ∃ result,
      runExport .standard ExportSettings.importing.lenient skippedDocuments = .ok result ∧
      result.metrics.problems.length = 2 ∧ result.ledger.unlinked ≠ [] ∧
      ∀ reference ∈ result.ledger.unlinked, ∃ entry ∈ result.intake.entries,
        reference.source = entry.ref.key ∧ (result.keeps entry.ref = true ∨
          ExportSettings.importing.lenient.writesImports = true ∧ entry.IsOwnerless) := by
  have h : (runExport .standard ExportSettings.importing.lenient skippedDocuments).toOption.any
      (fun result => result.metrics.problems.length == 2 && result.ledger.unlinked != []) =
        true := by
    decide +kernel
  obtain ⟨result, hresult, htest⟩ := exists_ok_of_any h
  obtain ⟨hproblems, hunlinked⟩ := Bool.and_eq_true_iff.1 htest
  obtain ⟨-, -, hexport⟩ := skipped_leave_nothing_unless_refused
    (result.intake.context ExportSettings.importing.lenient) .flowPolicy
  obtain ⟨-, -, -, hids⟩ := hexport _ _ _ hresult
  exact ⟨result, hresult, eq_of_beq hproblems, bne_iff_ne.1 hunlinked, hids⟩

/-- **An id is listed for a document that is not in the output.** The policy is skipped, and the id
of its flow is still listed. -/
theorem unlinked_of_skipped_policy :
    ∃ result,
      runExport .standard ExportSettings.importing.lenient skippedDocuments = .ok result ∧
      result.metrics.generated.total = 0 ∧
      result.metrics.unlinked =
        [⟨(⟨.flowPolicy, "p"⟩ : Ref).key, "flow_id", "g"⟩] := by
  have h : (runExport .standard ExportSettings.importing.lenient skippedDocuments).toOption.any
      (fun result => result.metrics.generated.total == 0 && decide (result.metrics.unlinked =
        [⟨(⟨.flowPolicy, "p"⟩ : Ref).key, "flow_id", "g"⟩])) = true := by
    decide +kernel
  obtain ⟨result, hresult, htest⟩ := exists_ok_of_any h
  obtain ⟨htotal, hunlinked⟩ := Bool.and_eq_true_iff.1 htest
  exact ⟨result, hresult, eq_of_beq htotal, of_decide_eq_true hunlinked⟩

end HclExport
