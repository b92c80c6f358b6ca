import HclExport.Proofs.Conversion.Settling
import HclExport.Proofs.Export.Census

/-!
# Exports that go on

Outside strict mode, and where unmet paths are tolerated, an export goes on after faults: a
document at fault is reported, and the others are converted. What ends such an export is a value
that is used without a look and cannot be used.

## Main definitions

* `Batch.participants` — the documents of a kind that take part.

## Main results

* `Batch.completes_iff` — when no document ends the export.
* `runExport_lenient` — **when an export that goes on comes to an end, and what it reports then.**
-/

namespace HclExport

namespace Batch

/-- The documents of a kind that take part: of the candidates, the first of each identity. -/
def participants (batch : Batch) (scope : Scope) (kind : Kind) : List Members :=
  (firstsBy Entry.ref (batch.candidates scope kind)).map Entry.document

variable {settings : ExportSettings} {batch : Batch}

theorem documents_intake (settings : ExportSettings) (batch : Batch) (kind : Kind) :
    (batch.intake settings).documents kind = batch.participants settings.scope kind :=
  (batch.accounts_intake settings).documents kind

/-- A document that takes part does not end an export outside strict mode, if it gives a block or
is at fault. -/
theorem settles_iff_of_mem (hstrict : settings.isStrict = false) {entry : Entry}
    (hentry : entry ∈ (batch.intake settings).entries) :
    entry.ref.kind.converter.Settles (batch.context settings) entry.document ↔
      entry.ref.kind.Handles settings.skipsReferences entry.document := by
  have hregistered := (batch.complete_intake settings).toRegistered
  obtain ⟨r, -, hfound⟩ := hregistered.exists_find? hentry
  have hsome : ((batch.context settings).graph.graph.find? entry.ref).isSome = true :=
    Option.isSome_of_eq_some hfound
  exact Kind.settles_iff hstrict (hregistered.identified entry hentry) hsome

theorem admissible_of_lenient (hstrict : settings.isStrict = false)
    (htolerates : settings.toleratesUnmetPaths = true) : batch.Admissible settings :=
  ⟨fun h => absurd h (by simp [hstrict]), fun _ _ _ => htolerates⟩

/-- Where faults and unmet paths do not end an export, only what is used without a look does. -/
theorem completes_iff (hstrict : settings.isStrict = false)
    (htolerates : settings.toleratesUnmetPaths = true) :
    batch.Completes settings ↔ ∀ kind, ∀ document ∈ batch.participants settings.scope kind,
      kind.Handles settings.skipsReferences document := by
  constructor
  · intro hcompletes kind document hdocument
    rw [← documents_intake] at hdocument
    obtain ⟨entry, hentry, rfl, rfl⟩ := Intake.mem_documents_iff.1 hdocument
    exact (settles_iff_of_mem hstrict hentry).1 (hcompletes.settles entry hentry)
  · intro hhandles
    refine ⟨admissible_of_lenient hstrict htolerates, fun entry hentry => ?_⟩
    refine (settles_iff_of_mem hstrict hentry).2 (hhandles _ _ ?_)
    rw [← documents_intake]
    exact Intake.mem_documents hentry

end Batch

/-- A document that settles gives a block or a report, and not both. -/
theorem Converter.Settles.isSome_ne {converter : Converter} {context : Context} {document : Members}
    (h : converter.Settles context document) :
    (converter.block? context document).isSome ≠ (converter.problem? context document).isSome := by
  unfold block? problem?
  rcases h with ⟨⟨block, imports⟩, houtcome⟩ | ⟨-, fault, houtcome⟩
  · simp [houtcome]
  · simp [houtcome]

variable {settings : ExportSettings} {batch : Batch}

theorem noFault_runExport (hstrict : settings.isStrict = false)
    (htolerates : settings.toleratesUnmetPaths = true) :
    NoFault (runExport .standard settings batch) := by
  have hadmissible : batch.Admissible settings := Batch.admissible_of_lenient hstrict htolerates
  have hintake := Intake.ofBatch_standard.2 ⟨hadmissible, rfl⟩
  have hconvert : NoFault (Emission.convertAll .standard ((batch.intake settings).context settings)
      (batch.intake settings).documents {}).1 := Emission.noFault_convertKinds hstrict _ _ _
  unfold runExport
  rw [hintake]
  exact hconvert.bind fun outputs => NoFault.ok _

/-- **Exports that go on after faults.** No fault ends them. They come to an end exactly if every
document that takes part gives a block or a fault. Then the documents that cannot be identified
and those that meet a fault are reported, each once and in order; and the blocks of each kind are
those of all other documents that take part. -/
theorem runExport_lenient (hstrict : settings.isStrict = false)
    (htolerates : settings.toleratesUnmetPaths = true) :
    NoFault (runExport .standard settings batch) ∧
    ((∃ result, runExport .standard settings batch = .ok result) ↔
      ∀ kind, ∀ document ∈ batch.participants settings.scope kind,
        kind.Handles settings.skipsReferences document) ∧
    ∀ result, runExport .standard settings batch = .ok result →
      result.metrics.problems = batch.inOrder.filterMap settings.scope.problem? ++
        Kind.all.flatMap (fun kind => (batch.participants settings.scope kind).filterMap
          (kind.converter.problem? (batch.context settings))) ∧
      result.outputs.map (fun output => (output.kind, output.blocks)) =
        Kind.all.map (fun kind => (kind, (batch.participants settings.scope kind).filterMap
          (kind.converter.block? (batch.context settings)))) ∧
      ∀ kind, ∀ document ∈ batch.participants settings.scope kind,
        (kind.converter.block? (batch.context settings) document).isSome ≠
          (kind.converter.problem? (batch.context settings) document).isSome := by
  refine ⟨noFault_runExport hstrict htolerates, ?_, ?_⟩
  · rw [← Batch.completes_iff hstrict htolerates]
    simp [runExport_standard]
  · intro result h
    obtain ⟨hcompletes, rfl⟩ := runExport_standard.1 h
    refine ⟨?_, ?_, ?_⟩
    · show (batch.intake settings).problems ++ (batch.result settings).outputs.flatMap
        KindOutput.problems = _
      rw [(batch.accounts_intake settings).problems]
      simp [Batch.result, List.flatMap_map, Batch.documents_intake]
    · simp [Batch.result, Batch.documents_intake]
    · intro kind document hdocument
      rw [← Batch.documents_intake] at hdocument
      obtain ⟨entry, hentry, rfl, rfl⟩ := Intake.mem_documents_iff.1 hdocument
      exact (hcompletes.settles entry hentry).isSome_ne

/-- Two flows, the second of which has a number as its links to scripts. -/
def flowsWithNumberedScripts (naming : Members) : Members :=
  [("flow", .arr [.obj [("id", .str "f"), ("name", .str "Login")],
    .obj (("id", .str "g") :: naming ++ [("settings", .obj [("jsLinks", .num (.int 5))])])])]

/-- Without a name the second flow is at fault before its settings are used. -/
theorem runExport_lenient_nameless : ∃ batch result,
    Batch.ofJson (.obj (flowsWithNumberedScripts [])) = .ok batch ∧
    runExport .standard ExportSettings.plain.lenient batch = .ok result ∧
    result.metrics.problems.length = 1 ∧ result.metrics.generated.total = 1 ∧
    ∀ kind, ∀ document ∈ batch.participants {} kind, kind.Handles false document := by
  have h : (Batch.ofJson (.obj (flowsWithNumberedScripts []))).toOption.any (fun batch =>
      (runExport .standard ExportSettings.plain.lenient batch).toOption.any fun result =>
        result.metrics.problems.length == 1 && result.metrics.generated.total == 1) = true := by
    decide +kernel
  obtain ⟨batch, hbatch, h⟩ := exists_ok_of_any h
  obtain ⟨result, hresult, htest⟩ := exists_ok_of_any h
  obtain ⟨hproblems, hblocks⟩ := Bool.and_eq_true_iff.1 htest
  have hhandles := (runExport_lenient rfl rfl).2.1.1 ⟨result, hresult⟩
  exact ⟨batch, result, hbatch, hresult, eq_of_beq hproblems, eq_of_beq hblocks, hhandles⟩

/-- Whether a computation ends because a value cannot be used at all. -/
def isMistyped {α : Type} : Except Failure α → Bool
  | .error .mistyped => true
  | _ => false

theorem eq_error_of_isMistyped {α : Type} {outcome : Except Failure α}
    (h : isMistyped outcome = true) : outcome = .error .mistyped := by
  unfold isMistyped at h
  split at h
  · rfl
  · cases h

/-- With a name it ends the export: it is not reported, and the first flow is not converted. -/
theorem runExport_mistyped_numberedScripts : ∃ batch,
    Batch.ofJson (.obj (flowsWithNumberedScripts [("name", .str "Sign in")])) = .ok batch ∧
    runExport .standard ExportSettings.plain.lenient batch = .error .mistyped := by
  have h : (Batch.ofJson (.obj (flowsWithNumberedScripts [("name", .str "Sign in")]))).toOption.any
      (fun batch => isMistyped (runExport .standard ExportSettings.plain.lenient batch)) =
        true := by
    decide +kernel
  obtain ⟨batch, hbatch, htest⟩ := exists_ok_of_any h
  exact ⟨batch, hbatch, eq_error_of_isMistyped htest⟩

end HclExport
