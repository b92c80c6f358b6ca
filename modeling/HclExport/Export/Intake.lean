import HclExport.Export.Batch
import HclExport.Export.Metrics
import HclExport.Export.Settings

/-!
# Taking in a batch

Before anything is converted, every document that the export covers is registered under its
identity, its owner is recorded, and its references become edges of the graph. So every
reference is written with full knowledge of what the batch holds.

## Main definitions

* `Entry` — a document that takes part in an export.
* `Intake` — what was taken in so far.
* `Intake.accept`, `Intake.acceptBatch` — take in a document and a batch.
* `Intake.link`, `Intake.linkAll` — record the references of a document and of all.
-/

namespace HclExport

/-- A document that takes part in an export, under its identity. -/
structure Entry where
  ref : Ref
  document : Members

/-- What was taken in so far, and what was not. -/
structure Intake where
  graph : Graph := {}
  ownership : Ownership := {}
  entries : List Entry := []
  outOfScope : Nat := 0
  excluded : Nat := 0
  duplicates : Nat := 0
  problems : List Problem := []
  unmetPaths : List UnmetPath := []

/-- The owner that a document names: the application of a flow policy, or the flow of a
variable. -/
def ownerOf? (kind : Kind) (document : Members) : Option Ref :=
  let named (parent : Kind) (id : String) : Option Ref :=
    if id = "" then none else some ⟨parent, id⟩
  match kind with
  | .flowPolicy => named .application (document.text "applicationId")
  | .variable => named .flow ((document.inner "flow").text "id")
  | _ => none

namespace Intake

/-- The documents of a kind that were taken in. -/
def documents (intake : Intake) (kind : Kind) : List Members :=
  (intake.entries.filter fun entry => entry.ref.kind = kind).map Entry.document

/-- Record the owner that a document names. -/
def own (entry : Entry) (ownership : Ownership) : Ownership :=
  match ownerOf? entry.ref.kind entry.document with
  | none => ownership
  | some owner => ownership.add owner entry.ref.kind [entry.ref.id]

/-- The identity and the label of a document. -/
def identify (converter : Converter) (document : Members) : Except Fault (Ref × String) := do
  let id ← resourceId converter.kind document
  let label ← converter.label document
  return (⟨converter.kind, id⟩, label)

/-- The report of a document that cannot be identified. -/
def unidentified (kind : Kind) (document : Members) (fault : Fault) : Problem :=
  ⟨kind.type, (document.get? "name").getD (.str "unknown"), fault.text⟩

/-- Take in a document. One that cannot be identified is reported, or refused when the
export is strict; one that is left out, or whose identity is taken, is counted. -/
def accept (settings : ExportSettings) (converter : Converter) (intake : Intake)
    (document : Members) : Except Failure Intake :=
  match identify converter document with
  | .error fault =>
    if settings.isStrict then .error (.fault fault)
    else
      let problem := unidentified converter.kind document fault
      .ok { intake with problems := intake.problems ++ [problem] }
  | .ok (ref, label) =>
    if settings.scope.isExcluded ref then .ok { intake with excluded := intake.excluded + 1 }
    else if intake.graph.has ref then .ok { intake with duplicates := intake.duplicates + 1 }
    else
      match intake.graph.register ref label with
      | .error fault => .error (.fault fault)
      | .ok (_, graph) =>
        let entry := ⟨ref, document⟩
        .ok { intake with
          graph := graph
          ownership := own entry intake.ownership
          entries := intake.entries ++ [entry] }

/-- The fault of a kind that no converter takes. -/
def noConverterFault (kind : Kind) : Fault :=
  Fault.of .general ("No handler registered for " ++ kind.type) []

/-- Take in the documents of a kind, or count them when the kind is not covered. -/
def acceptKind (registry : ConverterRegistry) (settings : ExportSettings) (batch : Batch)
    (intake : Intake) (kind : Kind) : Except Failure Intake :=
  let documents := batch.of kind
  if settings.scope.covers kind then
    match registry.converter? kind with
    | .error failure => .error failure
    | .ok none => .error (.fault (noConverterFault kind))
    | .ok (some converter) => documents.foldlM (accept settings converter) intake
  else .ok { intake with outOfScope := intake.outOfScope + documents.length }

/-- Take in a batch kind by kind. -/
def acceptBatch (registry : ConverterRegistry) (settings : ExportSettings) (batch : Batch) :
    Except Failure Intake :=
  Kind.all.foldlM (acceptKind registry settings batch)
    { ownership := { merges := settings.mergesOwnership } }

/-! ### References -/

/-- Record the references of a document. If a required path is not met, none is recorded,
and the export ends unless it tolerates that. -/
def link (settings : ExportSettings) (intake : Intake) (entry : Entry) :
    Except Failure Intake := do
  let name ← orFail (intake.graph.lookup entry.ref)
  match parseReferences ⟨entry.ref, name⟩ (.obj entry.document) with
  | .error unmet =>
    if settings.toleratesUnmetPaths then
      return { intake with unmetPaths := intake.unmetPaths ++ [unmet] }
    else .error (.fault unmet.fault)
  | .ok edges =>
    match intake.graph.addEdges edges with
    | (.error fault, _) => .error (.fault fault)
    | (.ok (), graph) => return { intake with graph := graph }

/-- Record the references of all documents that were taken in. -/
def linkAll (settings : ExportSettings) (intake : Intake) : Except Failure Intake :=
  intake.entries.foldlM (link settings) intake

/-- Take in a batch with its references. -/
def ofBatch (registry : ConverterRegistry) (settings : ExportSettings) (batch : Batch) :
    Except Failure Intake := do
  linkAll settings (← acceptBatch registry settings batch)

/-! ### Counts -/

/-- How many documents of each covered kind were taken in. -/
def registered (settings : ExportSettings) (intake : Intake) : KindCounts where
  count? := fun kind =>
    if settings.scope.covers kind then some (intake.documents kind).length else none

/-- How many references start at resources of each kind. -/
def edgeCounts (intake : Intake) : KindCounts :=
  .ofEach fun kind => intake.graph.edges.countP fun e => e.source.ref.kind = kind

end Intake

end HclExport
