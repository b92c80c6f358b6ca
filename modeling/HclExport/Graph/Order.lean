import HclExport.Graph.Cycle

/-!
# Orders of creation

Resources in an order in which each comes after everything it refers to, and the number
of waves in which they can be created.

## Main definitions

* `Graph.creationOrder` — the resources in order, or the first cycle.
* `Graph.waveCount` — the number of waves, or the first cycle.
* `Graph.orderingEdges` — which registered resource has to precede which.
-/

namespace HclExport
namespace Graph

/-! ### One resource after the other -/

/-- How many references of a resource lead to registered resources. -/
def degree (g : Graph) (ref : Ref) : Nat :=
  (g.edges.filter fun e => e.source.ref = ref && g.has e.target).length

/-- The sources of the references to an identity, once for every reference. -/
def dependents (g : Graph) (ref : Ref) : List Ref :=
  (g.edges.filter fun e => e.target = ref).map fun e => e.source.ref

/-- Take one reference off the count of a waiting resource; at zero it is ready. -/
def release (ref : Ref) : List (Resource × Nat) → Option Resource × List (Resource × Nat)
  | [] => (none, [])
  | (r, count) :: rest =>
    if r.ref = ref then
      if count ≤ 1 then (some r, rest) else (none, (r, count - 1) :: rest)
    else
      let (ready, others) := release ref rest
      (ready, (r, count) :: others)

/-- Take one reference off for every dependent in turn: the resources that become ready,
in that order, and those that still wait. -/
def releaseAll : List Ref → List (Resource × Nat) → List Resource × List (Resource × Nat)
  | [], waiting => ([], waiting)
  | ref :: rest, waiting =>
    let (ready, others) := release ref waiting
    let (more, left) := releaseAll rest others
    (ready.toList ++ more, left)

/-- Serve a queue of ready resources, first come first served; each step serves one, so
their number bounds the steps. -/
def serve (g : Graph) : Nat → List Resource → List (Resource × Nat) → List Resource
  | 0, _, _ => []
  | _ + 1, [], _ => []
  | steps + 1, r :: queue, waiting =>
    let (ready, left) := releaseAll (g.dependents r.ref) waiting
    r :: g.serve steps (queue ++ ready) left

/-- The resources in the order in which they are served. -/
def served (g : Graph) : List Resource :=
  let counted := g.resources.map fun r => (r, g.degree r.ref)
  let ready := (counted.filter fun c => c.2 == 0).map Prod.fst
  g.serve g.resources.length ready (counted.filter fun c => c.2 != 0)

/-- The resources in an order in which each comes after everything it refers to. -/
def creationOrder (g : Graph) : Except Fault (List Resource) :=
  match g.cycles with
  | cycle :: _ => .error (cycleFault cycle)
  | [] =>
    let order := g.served
    if order.length = g.resources.length then .ok order
    else .error (Fault.of .resolution
      s!"topological sort failed: sorted {order.length} of {g.resources.length} resources" [])

/-! ### Waves -/

/-- Whether a resource refers to one of the given resources. -/
def waitsFor (g : Graph) (pending : List Resource) (r : Resource) : Bool :=
  (g.targets r.ref).any fun target => pending.any fun p => p.ref = target

/-- The number of waves until nothing is pending: each wave takes the resources that refer
to nothing pending. None if a wave would be empty; each takes one at least, so the number
of resources bounds the waves. -/
def wavesOf (g : Graph) : Nat → List Resource → Option Nat
  | _, [] => some 0
  | 0, _ :: _ => none
  | steps + 1, pending =>
    let left := pending.filter (g.waitsFor pending)
    if left.length = pending.length then none
    else (g.wavesOf steps left).map (· + 1)

/-- The number of waves in which the resources can be created. -/
def waveCount (g : Graph) : Except Fault Nat :=
  match g.wavesOf g.resources.length g.resources with
  | some n => .ok n
  | none => .error (cycleFault ((g.cycles.head?).getD []))

/-! ### The order as a graph -/

/-- Set the field of a pair of resources; a known pair keeps its place. -/
def setField (source : Ref) (field : String) : List (Ref × String) → List (Ref × String)
  | [] => [(source, field)]
  | (r, f) :: rest =>
    if r = source then (r, field) :: rest else (r, f) :: setField source field rest

/-- For every registered resource in turn, the registered resources that refer to it, each
with the field of its last reference. -/
def orderingEdges (g : Graph) : List (Ref × Ref × String) :=
  g.resources.flatMap fun r =>
    let arriving := g.edges.filter fun e => e.target = r.ref && g.has e.source.ref
    let sources := arriving.foldl (fun found e => setField e.source.ref e.field found) []
    sources.map fun (source, field) => (r.ref, source, field)

end Graph
end HclExport
