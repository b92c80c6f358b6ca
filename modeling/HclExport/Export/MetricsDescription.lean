import HclExport.Export.Report

/-!
# Described metrics

Metrics can be described by the members of an object. A count may then be a value of any kind;
some of these cannot be put into a table or summed up, and then there are no figures.

## Main definitions

* `MetricsDescription`, `MetricsDescription.ofMembers` — described metrics.
* `MetricsDescription.figures` — the figures of a report, if there are any.
* `MetricsDescription.checkedMembers` — the members that were described.
-/

namespace HclExport

/-- Metrics by name, each with a value of any kind; counts by kind stand under the names of
the types. -/
structure MetricsDescription where
  members : Members

namespace MetricsDescription

/-! ### Reading -/

/-- The names of the metrics that count by kind. -/
def countNames : List String :=
  ["documents_received", "resources_registered", "edges_by_kind", "resources_generated"]

/-- The names of the metrics that are records. -/
def recordNames : List String :=
  ["parse_errors", "conversion_errors", "unlinked_references"]

/-- Counts under the short names of kinds, put under the names of the types. A value that is no
object stays as it is. -/
def countsOf (value : Json) : Except Failure Json := do
  let some members := value.members? | return value
  let counts ← members.mapM fun (name, count) =>
    match Kind.all.find? fun kind => kind.shortName = name with
    | some kind => .ok (kind.type, count)
    | none => .error (.undeclared name)
  return .obj counts

/-- The metrics that members describe, of which every object counts by kind; what they leave
open is zero or empty. A name that is no metric is refused. -/
def ofMembers (given : Members) : Except Failure MetricsDescription := do
  let given : Members ← given.mapM fun (name, value) =>
    (countsOf value).map fun counts => (name, counts)
  let defaults := ({} : Metrics).toMembers
  if given.any fun m => (defaults.get? m.1).isNone then .error .mistyped
  return ⟨defaults.map fun (name, value) => (name, (given.get? name).getD value)⟩

/-! ### Figures -/

/-- A value in a table. Truth values count as one and zero; what is neither a number nor a
text cannot stand in a table. -/
def cellText : Json → Except Failure String
  | .bool b => .ok (if b then "1" else "0")
  | .num n => .ok n.text
  | .str s => .ok s
  | _ => .error .mistyped

/-- The count of a kind in a table, which only an object can hold. -/
def cell (described : MetricsDescription) (name : String) (kind : Kind) :
    Except Failure String :=
  match described.members.get name with
  | .obj counts => cellText ((Members.get? counts kind.type).getD (.ofCount 0))
  | _ => .error .unsupported

/-- The value as a number in a sum: truth values count as one and zero. -/
def addend? : Json → Option Number
  | .bool b => some (.int (if b then 1 else 0))
  | .num n => some n
  | _ => none

/-- The sum of the counts of all kinds, in the order of the members. -/
def total (described : MetricsDescription) (name : String) : Except Failure Number :=
  (described.members.inner name).foldlM (fun sum m =>
    match addend? m.2 with
    | none => .error .mistyped
    | some n =>
      match sum.add? n with
      | some sum => .ok sum
      | none => .error .overflow) (.int 0)

/-- A sum in words. An integer with too many digits cannot be written out. -/
def sumText (sum : Number) : Except Failure String :=
  match sum with
  | .int i =>
    if Number.digitLimit < (toString i.natAbs).length then
      .error (.invalid (s!"Exceeds the limit ({Number.digitLimit} digits) for integer string " ++
        "conversion; use sys.set_int_max_str_digits() to increase the limit"))
    else .ok sum.text
  | .real _ => .ok sum.text

/-- A kind in words, from the name of its type. -/
def kindText (type : String) : String :=
  let name := ((Kind.ofType? type).map Kind.shortName).getD ""
  "<ResourceKind." ++ upper name ++ ": " ++ quoted type ++ ">"

/-- A metric in words. -/
def shown (described : MetricsDescription) (name : String) : String :=
  match described.members.get name with
  | .obj counts =>
    let entries := counts.map fun (type, count) => kindText type ++ ": " ++ count.quotedText
    "\x7b" ++ ", ".intercalate entries ++ "\x7d"
  | value => value.display

/-- A metric in words, if it is given. -/
def shown? (described : MetricsDescription) (name : String) : Option String :=
  if (described.members.get name).isTruthy then some (described.shown name) else none

/-- A member of a record in words. -/
def entryText (record : Members) (name : String) : Except Failure String :=
  match record.get? name with
  | some value => .ok value.display
  | none => .error (.undeclared name)

/-- The records under a name in words. -/
def records (described : MetricsDescription) (name : String)
    (text : Members → Except Failure String) : Except Failure (List String) := do
  let value := described.members.get name
  if !value.isTruthy then return []
  let some parts := value.elements? | .error .mistyped
  parts.mapM fun part =>
    match part with
    | .obj record => text record
    | _ => .error .mistyped

/-- The rows of a table: a text for every kind and metric. -/
def cells (described : MetricsDescription) : Except Failure (Kind → String → String) := do
  let rows ← Kind.all.mapM fun kind => do
    let row ← countNames.mapM fun name => do return (name, ← described.cell name kind)
    return (kind, row)
  return fun kind name => (((rows.lookup kind).getD []).lookup name).getD ""

/-- The figures of a report, or the first thing in it that has none. -/
def figures (described : MetricsDescription) : Except Failure ReportFigures := do
  let cells ← described.cells
  let generated ← sumText (← described.total "resources_generated")
  let edges ← sumText (← described.total "edges_by_kind")
  let unmetPaths ← described.records "parse_errors" fun record => do
    return ReportFigures.unmetText (← entryText record "resource") (← entryText record "error")
  let problems ← described.records "conversion_errors" fun record => do
    return ReportFigures.problemText (← entryText record "kind") (← entryText record "resource")
      (← entryText record "error")
  let unlinked ← described.records "unlinked_references" fun record => do
    return ReportFigures.unlinkedText (← entryText record "source") (← entryText record "field")
      (← entryText record "target_id")
  return {
    received := fun kind => cells kind "documents_received"
    registered := fun kind => cells kind "resources_registered"
    edges := fun kind => cells kind "edges_by_kind"
    generated := fun kind => cells kind "resources_generated"
    totalGenerated := generated
    totalEdges := edges
    ownershipRecords := described.shown "hierarchy_records"
    outOfScope := described.shown? "documents_out_of_scope"
    excluded := described.shown? "documents_excluded"
    duplicates := described.shown? "documents_duplicate"
    inputs := described.shown "variables_extracted"
    imports := described.shown "import_blocks_generated"
    todos := described.shown "todo_comments"
    unmetPaths := unmetPaths
    problems := problems
    unlinked := unlinked }

/-- The members that were described; records are those that a value consists of. -/
def checkedMembers (described : MetricsDescription) : Except Failure Members :=
  described.members.mapM fun (name, value) =>
    if recordNames.contains name then
      match value.elements? with
      | some parts => .ok (name, .arr parts)
      | none => .error .mistyped
    else .ok (name, value)

end MetricsDescription

end HclExport
