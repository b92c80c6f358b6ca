import HclExport.Conversion.Emission
import HclExport.Graph.Reference

/-!
# The metrics of an export

## Main definitions

* `UnmetRecord` — a required path at which a document held nothing, in words.
* `Metrics` — what was counted and what went wrong in an export.
* `Metrics.toMembers` — metrics as the members of an object.
-/

namespace HclExport

/-- A required path at which the document of a resource held nothing. -/
structure UnmetRecord where
  resource : String
  path : String
  error : String

/-- The record of an unmet path. -/
def UnmetPath.record (unmet : UnmetPath) : UnmetRecord :=
  ⟨unmet.source.key, unmet.path, unmet.message⟩

/-- What was counted and what went wrong in an export. -/
structure Metrics where
  received : KindCounts := {}
  outOfScope : Nat := 0
  excluded : Nat := 0
  duplicates : Nat := 0
  registered : KindCounts := {}
  edges : KindCounts := {}
  ownershipRecords : Nat := 0
  generated : KindCounts := {}
  inputs : Nat := 0
  imports : Nat := 0
  todos : Nat := 0
  unmetPaths : List UnmetRecord := []
  problems : List Problem := []
  unlinked : List UnlinkedReference := []

/-! ### Members -/

/-- A count. -/
def Json.ofCount (count : Nat) : Json :=
  .num (.int count)

/-- Counts under the names of their types. -/
def KindCounts.toJson (counts : KindCounts) : Json :=
  .obj (counts.toList.map fun (kind, count) => (kind.type, .ofCount count))

/-- The record of an unmet path. -/
def UnmetRecord.toJson (unmet : UnmetRecord) : Json :=
  .obj [("resource", .str unmet.resource), ("path", .str unmet.path), ("error", .str unmet.error)]

/-- The record of a document that was skipped. -/
def Problem.toJson (problem : Problem) : Json :=
  .obj [("kind", .str problem.type), ("resource", problem.resource), ("error", .str problem.error)]

/-- The record of an id that was written as it is. -/
def UnlinkedReference.toJson (reference : UnlinkedReference) : Json :=
  .obj [("source", .str reference.source), ("field", .str reference.field),
    ("target_id", .str reference.targetId)]

/-- Metrics as the members of an object. -/
def Metrics.toMembers (metrics : Metrics) : Members :=
  [("documents_received", metrics.received.toJson),
   ("documents_out_of_scope", .ofCount metrics.outOfScope),
   ("documents_excluded", .ofCount metrics.excluded),
   ("documents_duplicate", .ofCount metrics.duplicates),
   ("resources_registered", metrics.registered.toJson),
   ("edges_by_kind", metrics.edges.toJson),
   ("hierarchy_records", .ofCount metrics.ownershipRecords),
   ("resources_generated", metrics.generated.toJson),
   ("variables_extracted", .ofCount metrics.inputs),
   ("import_blocks_generated", .ofCount metrics.imports),
   ("todo_comments", .ofCount metrics.todos),
   ("parse_errors", .arr (metrics.unmetPaths.map UnmetRecord.toJson)),
   ("conversion_errors", .arr (metrics.problems.map Problem.toJson)),
   ("unlinked_references", .arr (metrics.unlinked.map UnlinkedReference.toJson))]

end HclExport
