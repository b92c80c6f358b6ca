import HclExport.Export.Intake
import HclExport.Export.Provider
import HclExport.Export.Report

/-!
# Running an export

An export takes in a batch, seals the graph, and converts every kind against it, what others
refer to first.

## Main definitions

* `ExportResult` — everything that an export produces.
* `Intake.context` — the context in which what was taken in is converted.
* `runExport` — the export of a batch.
-/

namespace HclExport

/-- Everything that an export produces. -/
structure ExportResult where
  settings : ExportSettings
  batch : Batch
  intake : Intake
  outputs : List KindOutput
  ledger : Ledger

/-- The context in which what was taken in is converted. -/
def Intake.context (settings : ExportSettings) (intake : Intake) : Context where
  graph := intake.graph.close
  environmentId := settings.environmentId
  skipsReferences := settings.skipsReferences
  writesImports := settings.writesImports
  usesVariables := settings.usesVariables
  isStrict := settings.isStrict
  scope := settings.scope
  ownership := some intake.ownership

/-- The export of a batch. -/
def runExport (registry : ConverterRegistry) (settings : ExportSettings) (batch : Batch) :
    Except Failure ExportResult := do
  let intake ← Intake.ofBatch registry settings batch
  let (outputs, emission) :=
    Emission.convertAll registry (intake.context settings) intake.documents {}
  return ⟨settings, batch, intake, ← outputs, emission.ledger⟩

namespace ExportResult

/-- The sealed graph. -/
def graph (result : ExportResult) : SealedGraph :=
  result.intake.graph.close

/-- The resources, kind by kind, each kind with blocks one empty line below the one before. -/
def resources (result : ExportResult) : String :=
  match (result.outputs.map KindOutput.hcl).filter (· != "") with
  | [] => ""
  | found => "\n\n".intercalate found ++ "\n"

/-- The provider and the environment; nothing when no references are written. -/
def provider (result : ExportResult) : String :=
  if result.settings.skipsReferences then ""
  else providerBlocks (.str result.settings.region.name) ++ "\n" ++ environmentDeclaration

/-- The whole configuration. -/
def hcl (result : ExportResult) : String :=
  let top := banner result.settings.environment? result.settings.region.name
  "\n".intercalate ([top, result.provider, result.resources].filter (· != ""))

/-- The declarations of the values that are taken from outside. -/
def inputs (result : ExportResult) : String :=
  renderInputs Kind.all result.ledger.inputs

/-- The import blocks. -/
def imports (result : ExportResult) : String :=
  renderImports result.ledger.imports

/-- What was counted and what went wrong. -/
def metrics (result : ExportResult) : Metrics where
  received := .ofEach fun kind => (result.batch.of kind).length
  outOfScope := result.intake.outOfScope
  excluded := result.intake.excluded
  duplicates := result.intake.duplicates
  registered := result.intake.registered result.settings
  edges := result.intake.edgeCounts
  ownershipRecords := result.intake.ownership.records.length
  generated := result.outputs.foldl
    (fun counts output => counts.set output.kind output.blocks.length) {}
  inputs := result.ledger.inputs.length
  imports := result.ledger.imports.length
  todos := countTodos result.resources
  unmetPaths := result.intake.unmetPaths.map UnmetPath.record
  problems := result.intake.problems ++ result.outputs.flatMap KindOutput.problems
  unlinked := result.ledger.unlinked

/-- The report on the graph. -/
def graphReport (result : ExportResult) : GraphReport :=
  result.graph.graph.report result.ledger.missing.length

/-- The references that lead nowhere, in words. -/
def missingSummary (result : ExportResult) : String :=
  HclExport.missingSummary result.ledger.missing

/-- The report at the end. -/
def report (result : ExportResult) : ExportReport where
  figures := .ofMetrics result.metrics
  graph := result.graphReport
  missingSummary := result.missingSummary
  environment := result.settings.environment?.getD ""
  region := result.settings.region.name

end ExportResult

end HclExport
