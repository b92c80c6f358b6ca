import HclExport.Graph.Basic

/-!
# Cycles of references

A depth-first search from every resource that no earlier search visited. Each search
reports the first cycle that it closes and ends there; what it visited stays visited.

## Main definitions

* `Graph.targets` — the identities that an identity refers to.
* `Search` — the identities visited, and the cycle found.
* `Graph.search` — the search from one identity.
* `Graph.cycles` — the cycles that the searches report.
-/

namespace HclExport

/-- The state of a search: the identities visited, and the cycle that ended it. -/
structure Search where
  visited : List Ref
  cycle : Option (List Ref)

/-- The cycle that a reference back to `target` closes: the path from there on, and
`target` once more. -/
def closedCycle (path : List Ref) (target : Ref) : List Ref :=
  path.dropWhile (· != target) ++ [target]

/-- Go through the targets of the last identity of a path. One that lies on the path closes
a cycle, one that was not visited is entered, and the first cycle ends the search. -/
def scanTargets (enter : Ref → List Ref → Search) (path : List Ref) :
    List Ref → List Ref → Search
  | [], visited => ⟨visited, none⟩
  | target :: rest, visited =>
    if path.contains target then ⟨visited, some (closedCycle path target)⟩
    else if visited.contains target then scanTargets enter path rest visited
    else
      let inner := enter target visited
      if inner.cycle.isSome then inner else scanTargets enter path rest inner.visited

namespace Graph

/-- The identities that an identity refers to, in the order of the references. -/
def targets (g : Graph) (ref : Ref) : List Ref :=
  (g.edges.filter fun e => e.source.ref = ref).map Edge.target

/-- The search below an identity that `path` leads to. Every nested step lengthens the
path, which holds no identity twice, so the number of steps is bounded by the size of the
graph. -/
def search (g : Graph) : Nat → List Ref → Ref → List Ref → Search
  | 0, _, _, visited => ⟨visited, none⟩
  | steps + 1, path, ref, visited =>
    let path := path ++ [ref]
    scanTargets (fun target visited => g.search steps path target visited) path
      (g.targets ref) (ref :: visited)

/-- A bound on the length of a path without repetitions. -/
def pathBound (g : Graph) : Nat :=
  g.resources.length + g.edges.length + 1

/-- The cycles reported by the searches from the given identities on. -/
def cyclesFrom (g : Graph) : List Ref → List Ref → List (List Ref)
  | [], _ => []
  | ref :: rest, visited =>
    if visited.contains ref then cyclesFrom g rest visited
    else
      let found := g.search g.pathBound [] ref visited
      match found.cycle with
      | none => cyclesFrom g rest found.visited
      | some cycle => cycle :: cyclesFrom g rest found.visited

/-- The cycles of references, at most one for every resource. -/
def cycles (g : Graph) : List (List Ref) :=
  g.cyclesFrom (g.resources.map Resource.ref) []

end Graph

/-- A cycle in one text. -/
def cycleText (cycle : List Ref) : String :=
  " → ".intercalate (cycle.map Ref.key)

/-- The message about a circular reference through the given texts. -/
def cycleMessage (path : List String) : String :=
  "circular dependency detected: " ++ " → ".intercalate path

/-- The fault of a cycle. -/
def cycleFault (cycle : List Ref) : Fault :=
  Fault.of .cyclic (cycleMessage (cycle.map Ref.key)) []

end HclExport
