import HclExport.Export.Metrics
import HclExport.Graph.Report

/-!
# The report of an export

The report is written from figures, which are the numbers and records of an export in words.

## Main definitions

* `ReportFigures`, `ReportFigures.ofMetrics` — the figures, and those of metrics.
* `ExportReport` — the figures, the report on the graph and the missing references.
* `ExportReport.text` — the report in words.
-/

namespace HclExport

/-- The numbers and records of an export in words. -/
structure ReportFigures where
  received : Kind → String
  registered : Kind → String
  edges : Kind → String
  generated : Kind → String
  totalGenerated : String
  totalEdges : String
  ownershipRecords : String
  /-- A number of documents that were left out, if there are any. -/
  outOfScope : Option String
  excluded : Option String
  duplicates : Option String
  inputs : String
  imports : String
  todos : String
  unmetPaths : List String
  problems : List String
  unlinked : List String

namespace ReportFigures

/-- A count, unless it is zero. -/
def ofCount (count : Nat) : Option String :=
  if count = 0 then none else some (toString count)

/-- A path that was not met. -/
def unmetText (resource error : String) : String :=
  s!"{resource}: {error}"

/-- A document that was skipped. -/
def problemText (type resource error : String) : String :=
  s!"{type} {resource}: {error}"

/-- An id that was written as it is. -/
def unlinkedText (source field targetId : String) : String :=
  s!"{source} {field} = \"{targetId}\""

/-- Metrics in words. -/
def ofMetrics (metrics : Metrics) : ReportFigures where
  received kind := toString (metrics.received.countOf kind)
  registered kind := toString (metrics.registered.countOf kind)
  edges kind := toString (metrics.edges.countOf kind)
  generated kind := toString (metrics.generated.countOf kind)
  totalGenerated := toString metrics.generated.total
  totalEdges := toString metrics.edges.total
  ownershipRecords := toString metrics.ownershipRecords
  outOfScope := ofCount metrics.outOfScope
  excluded := ofCount metrics.excluded
  duplicates := ofCount metrics.duplicates
  inputs := toString metrics.inputs
  imports := toString metrics.imports
  todos := toString metrics.todos
  unmetPaths := metrics.unmetPaths.map fun r => unmetText r.resource r.error
  problems := metrics.problems.map fun p => problemText p.type p.resource.display p.error
  unlinked := metrics.unlinked.map fun r => unlinkedText r.source r.field r.targetId

end ReportFigures

/-- What an export has to say at its end. -/
structure ExportReport where
  figures : ReportFigures
  graph : GraphReport
  missingSummary : String
  environment : String := ""
  region : String := ""

namespace ExportReport

/-- A line across the page. -/
def rule (c : Char) : String :=
  String.ofList (List.replicate 80 c)

/-- A labelled value, left out when it is empty. -/
def labelled (label value : String) : List String :=
  if value = "" then [] else [label ++ value]

/-- A labelled count, left out when there is none. -/
def counted (label : String) (count? : Option String) : List String :=
  match count? with
  | none => []
  | some count => [label ++ count]

/-- One row of the table of kinds. -/
def row (title received registered edges generated : String) : String :=
  "  " ++ padRight 42 title ++ padLeft 8 received ++ padLeft 8 registered ++
    padLeft 8 edges ++ padLeft 8 generated

/-- The table of kinds and the sums. -/
def resourceLines (figures : ReportFigures) : List String :=
  ["RESOURCES", rule '-', row "Kind" "Input" "Graph" "Edges" "Output"] ++
  (Kind.all.map fun kind =>
    row kind.type (figures.received kind) (figures.registered kind) (figures.edges kind)
      (figures.generated kind)) ++
  ["  Total Generated:          " ++ figures.totalGenerated,
   "  Total Edges:              " ++ figures.totalEdges,
   "  Hierarchy Records:        " ++ figures.ownershipRecords] ++
  counted "  Not Included (scope):     " figures.outOfScope ++
  counted "  Excluded:                 " figures.excluded ++
  counted "  Duplicate IDs (skipped):  " figures.duplicates ++ [""]

/-- What was written beside the resources. -/
def outputLines (figures : ReportFigures) : List String :=
  ["OUTPUTS", rule '-',
   "  Variables Extracted:      " ++ figures.inputs,
   "  Import Blocks:            " ++ figures.imports,
   "  TODO Comments:            " ++ figures.todos, ""]

/-- A list with a title and the number of its items, left out when there are none. -/
def listLines (title : String) (items : List String) : List String :=
  if items.isEmpty then []
  else [s!"{title} ({items.length})", rule '-'] ++ items.map ("  • " ++ ·) ++ [""]

/-- The report in words. -/
def text (report : ExportReport) : String :=
  "\n".intercalate
    (["", rule '=', "DAVINCI TERRAFORM EXPORT REPORT", rule '='] ++
     labelled "  Environment: " report.environment ++
     labelled "  Region:      " report.region ++ [""] ++
     resourceLines report.figures ++ outputLines report.figures ++
     [report.graph.text, ""] ++
     listLines "PARSE ERRORS" report.figures.unmetPaths ++
     listLines "CONVERSION ERRORS" report.figures.problems ++
     listLines "LITERAL REFERENCES" report.figures.unlinked ++
     [trimLineFeeds report.missingSummary, "", rule '=', ""])

end ExportReport

end HclExport
