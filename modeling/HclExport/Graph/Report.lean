import HclExport.Graph.Order

/-!
# The state of a graph

What is wrong with a graph, and a report on it: sizes, cycles, and whether its resources
can be put in order.

## Main definitions

* `Graph.issues`, `Graph.validate` — cycles and references that lead nowhere.
* `GraphReport`, `Graph.report` — the state of a graph.
* `GraphReport.text` — the report in words.
-/

namespace HclExport
namespace Graph

/-- What is wrong with a reference. -/
def edgeIssues (g : Graph) (e : Edge) : List String :=
  (if g.has e.source.ref then [] else
    ["edge references missing source: " ++ e.source.ref.key]) ++
  (if g.has e.target then [] else
    [e.source.ref.key ++ " references missing resource " ++ e.target.key ++
      " (field: " ++ e.field ++ ")"])

/-- Everything wrong with the graph: its cycles, then the references that lead nowhere. -/
def issues (g : Graph) : List String :=
  (g.cycles.map fun cycle => "circular dependency: " ++ cycleText cycle) ++
    g.edges.flatMap g.edgeIssues

/-- The message about the issues of a graph. -/
def issuesMessage (issues : List String) : String :=
  "dependency graph validation failed:\n  " ++ "\n  ".intercalate issues

/-- Refuse a graph with issues. -/
def validate (g : Graph) : Except Fault Unit :=
  match g.issues with
  | [] => .ok ()
  | found => .error (Fault.of .invalidGraph (issuesMessage found) [])

end Graph

/-- The state of a graph. -/
structure GraphReport where
  resources : Nat
  references : Nat
  missing : Nat
  byKind : List (Kind × Nat)
  cycles : List (List Ref)
  /-- The number of waves of creation, or why there is no order. -/
  order : Except String Nat

/-- The state of a graph, with the number of references that lead nowhere. -/
def Graph.report (g : Graph) (missing : Nat) : GraphReport where
  resources := g.resources.length
  references := g.edges.length
  missing := missing
  byKind := (Kind.all.map fun kind => (kind, g.countOf kind)).filter fun c => c.2 != 0
  cycles := g.cycles
  order :=
    match g.creationOrder, g.waveCount with
    | .error fault, _ => .error fault.message
    | .ok _, .error fault => .error fault.message
    | .ok _, .ok n => .ok n

/-- Texts with their numbers from one on. -/
def numbered : Nat → List String → List String
  | _, [] => []
  | n, s :: rest => s!"  {n}. {s}" :: numbered (n + 1) rest

/-- The report in words. -/
def GraphReport.text (report : GraphReport) : String :=
  let cycles := match report.cycles with
    | [] => ["✓ No circular dependencies detected"]
    | found => s!"✗ Circular dependencies detected: {found.length}" ::
        numbered 1 (found.map cycleText)
  let order := match report.order with
    | .ok n => ["✓ Resources can be ordered by dependencies", s!"  Suggested order: {n} levels"]
    | .error why => ["✗ Cannot order resources: " ++ why]
  "\n".intercalate
    (["Dependency Graph Validation Report", String.ofList (List.replicate 60 '='), "",
      s!"Total Resources: {report.resources}",
      s!"Total Dependencies: {report.references}",
      s!"Missing Dependencies (TODOs): {report.missing}", "",
      "Resources by Type:"] ++
     (report.byKind.map fun (kind, n) => s!"  {kind.type}: {n}") ++ [""] ++
     cycles ++ [""] ++ order)

end HclExport
