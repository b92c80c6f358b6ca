import HclExport.Graph.Report
import HclExport.Proofs.Graph.Network
import HclExport.Proofs.Graph.Wave

/-!
# Levels of an order

The levels of an order can also be counted without waves, by the longest path through the
resources: from what is referred to, to what refers to it, with parallel references taken as one
and dangling ones left out. Whatever measures paths right counts as many levels as there are
waves, and meets the same cycle.

## Main definitions

* `Graph.ordering`, `Graph.levels` — the order of a graph as a network, and its levels.
* `Graph.attemptOrder` — the attempt at an order in a report.

## Main results

* `Graph.arc_ordering_iff` — the arcs of an order.
* `Graph.WellFormed.acyclic_ordering_iff` — when an order has no circles.
* `Graph.WellFormed.levels_eq_waveCount` — there are as many levels as waves.
* `Graph.levels_of_history` — **the levels of the graph after any history.**
-/

namespace HclExport

open Relation (TransGen)

/-! ### The order of a graph as a network -/

namespace Graph

theorem mem_map_setField {ref source : Ref} {field : String} {found : List (Ref × String)} :
    ref ∈ (setField source field found).map Prod.fst ↔
      ref = source ∨ ref ∈ found.map Prod.fst := by
  induction found with
  | nil => simp [setField]
  | cons pair rest ih =>
    obtain ⟨r, f⟩ := pair
    unfold setField
    by_cases hr : r = source
    · rw [if_pos hr, List.map_cons, List.map_cons, List.mem_cons, hr]
      simp
    · rw [if_neg hr, List.map_cons, List.mem_cons, ih, List.map_cons, List.mem_cons]
      exact or_left_comm

theorem mem_map_foldl_setField {ref : Ref} {edges : List Edge} {found : List (Ref × String)} :
    ref ∈ (edges.foldl (fun found e => setField e.source.ref e.field found) found).map Prod.fst ↔
      (∃ e ∈ edges, e.source.ref = ref) ∨ ref ∈ found.map Prod.fst := by
  induction edges generalizing found with
  | nil => simp
  | cons e rest ih =>
    rw [List.foldl_cons, ih, mem_map_setField, List.exists_mem_cons_iff, or_assoc, or_left_comm,
      eq_comm]

/-- The sources of the references that arrive at a resource. -/
theorem mem_arriving_iff {g : Graph} {r : Resource} {b : Ref} :
    b ∈ ((g.edges.filter fun e => e.target = r.ref && g.has e.source.ref).foldl
        (fun found e => setField e.source.ref e.field found) []).map Prod.fst ↔
      b ∈ g.resources.map Resource.ref ∧ g.Refers b r.ref := by
  rw [mem_map_foldl_setField]
  simp only [List.map_nil, List.not_mem_nil, or_false, List.mem_filter, Bool.and_eq_true,
    decide_eq_true_eq, has_iff_mem_refs]
  constructor
  · rintro ⟨e, ⟨he, htarget, hregistered⟩, rfl⟩
    exact ⟨hregistered, e, he, rfl, htarget⟩
  · rintro ⟨hregistered, e, he, rfl, htarget⟩
    exact ⟨e, ⟨he, htarget, hregistered⟩, rfl⟩

/-- Which registered resource has to precede which. -/
theorem mem_orderingEdges_iff {g : Graph} {a b : Ref} :
    (a, b) ∈ (g.orderingEdges.map fun arc => (arc.1, arc.2.1)) ↔
      a ∈ g.resources.map Resource.ref ∧ b ∈ g.resources.map Resource.ref ∧ g.Refers b a := by
  unfold orderingEdges
  simp only [List.map_flatMap, List.map_map, List.mem_flatMap]
  constructor
  · rintro ⟨r, hr, harc⟩
    obtain ⟨pair, hpair, heq⟩ := List.mem_map.1 harc
    obtain ⟨rfl, rfl⟩ := Prod.mk.inj heq
    exact ⟨List.mem_map_of_mem hr, mem_arriving_iff.1 (List.mem_map_of_mem hpair)⟩
  · rintro ⟨ha, hb⟩
    obtain ⟨r, hr, rfl⟩ := List.mem_map.1 ha
    obtain ⟨pair, hpair, rfl⟩ := List.mem_map.1 (mem_arriving_iff.2 hb)
    exact ⟨r, hr, List.mem_map.2 ⟨pair, hpair, rfl⟩⟩

/-- The order of a graph as a network: from what is referred to, to what refers to it. -/
def ordering (g : Graph) : Network where
  nodes := g.resources.map Resource.ref
  arcs := g.orderingEdges.map fun arc => (arc.1, arc.2.1)
  arcs_mem := by
    rintro ⟨a, b⟩ harc
    obtain ⟨ha, hb, -⟩ := mem_orderingEdges_iff.1 harc
    exact ⟨ha, hb⟩

/-- The arcs of an order are the references between registered resources. -/
theorem arc_ordering_iff {g : Graph} {a b : Ref} :
    g.ordering.Arc a b ↔
      a ∈ g.resources.map Resource.ref ∧ b ∈ g.resources.map Resource.ref ∧ g.Refers b a :=
  mem_orderingEdges_iff

/-! ### Levels -/

/-- The number of levels of an order: none without resources, and else one more than the longest
path has arcs; or the first cycle. -/
def levels (measure : PathMeasure) (g : Graph) : Except Fault Nat :=
  if g.resources.isEmpty then .ok 0
  else if measure.isAcyclic g.ordering then .ok (measure.longestPath g.ordering + 1)
  else .error (cycleFault ((g.cycles.head?).getD []))

variable {g : Graph}

/-- The order has circles exactly if the references contain a cycle. -/
theorem WellFormed.acyclic_ordering_iff (h : g.WellFormed) : g.ordering.Acyclic ↔ ¬g.Cyclic := by
  constructor
  · rintro hacyclic ⟨ref, hcycle⟩
    -- whatever leads on to a reference is registered, and so the way back is a row of arcs
    have hback : ∀ {a b : Ref}, TransGen g.Refers a b → b ∈ g.resources.map Resource.ref →
        TransGen g.ordering.Arc b a := by
      intro a b hab hb
      induction hab using TransGen.head_induction_on with
      | single hrefers =>
        exact TransGen.single (arc_ordering_iff.2 ⟨hb, h.mem_refs_of_refers hrefers, hrefers⟩)
      | head hrefers hrest ih =>
        have harc := arc_ordering_iff.2
          ⟨h.mem_refs_of_transGen hrest, h.mem_refs_of_refers hrefers, hrefers⟩
        exact ih.tail harc
    exact hacyclic ref (hback hcycle (h.mem_refs_of_transGen hcycle))
  · rintro hacyclic ref hcircle
    refine hacyclic ⟨ref, Relation.transGen_swap.1 ?_⟩
    exact TransGen.mono (fun _ _ harc => (arc_ordering_iff.1 harc).2.2) _ _ hcircle

/-- A chain of resources is a path of the order, read backwards. -/
theorem IsChainOf.isPath {chain : List Resource} (h : g.IsChainOf g.resources chain) :
    g.ordering.IsPath (chain.map Resource.ref).reverse where
  subset := by
    intro ref href
    obtain ⟨r, hr, rfl⟩ := List.mem_map.1 (List.mem_reverse.1 href)
    exact List.mem_map_of_mem (h.subset hr)
  arcs := by
    rw [List.isChain_reverse, List.isChain_map]
    refine h.refers.imp_of_mem_imp ?_
    intro a b ha hb hrefers
    exact arc_ordering_iff.2
      ⟨List.mem_map_of_mem (h.subset hb), List.mem_map_of_mem (h.subset ha), hrefers⟩

/-- A path of the order is a chain of resources, read backwards. -/
theorem isChainOf_of_isPath {path : List Ref} (h : g.ordering.IsPath path) :
    g.IsChainOf g.resources (path.reverse.map g.sourceOf) where
  subset := by
    intro r hr
    obtain ⟨ref, href, rfl⟩ := List.mem_map.1 hr
    obtain ⟨found, hfound⟩ :=
      Option.isSome_iff_exists.1 (has_iff_mem_refs.2 (h.subset (List.mem_reverse.1 href)))
    rw [sourceOf_of_find? hfound]
    exact mem_of_find? hfound
  refers := by
    rw [List.isChain_map, List.isChain_reverse]
    refine h.arcs.imp ?_
    intro a b harc
    rw [ref_sourceOf, ref_sourceOf]
    exact (arc_ordering_iff.1 harc).2.2

/-- A chain of as many resources as there are waves is a path, and no path has more resources, since
each of them is in another wave. -/
theorem WellFormed.levels_eq_waveCount (h : g.WellFormed) (measure : PathMeasure) :
    g.levels measure = g.waveCount := by
  unfold levels
  by_cases hnone : g.resources = []
  · rw [waveCount, hnone]
    rfl
  rw [if_neg (by simpa using hnone)]
  by_cases hcyclic : g.Cyclic
  · have hcircle : ¬measure.isAcyclic g.ordering = true := by
      rw [measure.isAcyclic_iff, h.acyclic_ordering_iff, not_not]
      exact hcyclic
    obtain ⟨cycle, others, hcycles, -, hwaves, -⟩ := h.waveCount_of_cyclic hcyclic
    rw [if_neg hcircle, hwaves, hcycles, List.head?_cons, Option.getD_some]
  · have hacyclic := h.acyclic_ordering_iff.2 hcyclic
    obtain ⟨n, hn⟩ := exists_waveCount_of_acyclic hcyclic
    obtain ⟨chain, hchain, hlength⟩ := exists_chain_of_wavesOf (wavesOf_of_waveCount hn)
    obtain ⟨path, hpath, hlongest⟩ :=
      measure.exists_path g.ordering hacyclic fun hnodes => hnone (List.map_eq_nil_iff.1 hnodes)
    have hle : n ≤ measure.longestPath g.ordering + 1 := by
      have hmeasured := measure.length_le _ hacyclic _ hchain.isPath
      rwa [List.length_reverse, List.length_map, hlength] at hmeasured
    have hge : measure.longestPath g.ordering + 1 ≤ n := by
      have hfits := (isLeast_of_waveCount hn).1.length_le (isChainOf_of_isPath hpath)
      rwa [List.length_map, List.length_reverse, hlongest] at hfits
    rw [if_pos ((measure.isAcyclic_iff _).2 hacyclic), hn, Nat.le_antisymm hge hle]

end Graph

/-! ### The order in a report -/

namespace GraphReport

/-- The number of levels in a report, if there is an order. -/
def levels? (report : GraphReport) : Option Nat :=
  match report.order with
  | .ok n => some n
  | .error _ => none

/-- Why a report has no order, if it has none. -/
def obstacle? (report : GraphReport) : Option String :=
  match report.order with
  | .ok _ => none
  | .error why => some why

/-- Whether a report has an order. -/
def isOrderable (report : GraphReport) : Bool :=
  report.obstacle?.isNone

end GraphReport

namespace Graph

variable {g : Graph}

/-- The attempt at an order: the number of levels, or why there is none. A fault that is not one of
resolution is not taken for an answer. -/
def attemptOrder (measure : PathMeasure) (g : Graph) :
    Except Fault (Option Nat × Option String) :=
  match g.creationOrder.bind fun _ => g.levels measure with
  | .ok n => .ok (some n, none)
  | .error fault =>
    if fault.kind.isA .resolution then .ok (none, some fault.message) else .error fault

/-- The order in the report on a graph without a cycle. -/
theorem WellFormed.order_report_of_acyclic (h : g.WellFormed) (hacyclic : ¬g.Cyclic) {n : Nat}
    (hn : g.waveCount = .ok n) (missing : Nat) : (g.report missing).order = .ok n := by
  unfold report
  rw [h.creationOrder_of_acyclic hacyclic, hn]

/-- The order in the report on a graph with a cycle. -/
theorem WellFormed.order_report_of_cyclic (h : g.WellFormed) (hcyclic : g.Cyclic) (missing : Nat) :
    ∃ fault, g.creationOrder = .error fault ∧ fault.kind = .cyclic ∧
      (g.report missing).order = .error fault.message := by
  obtain ⟨cycle, others, -, horder⟩ := h.creationOrder_of_cyclic hcyclic
  refine ⟨_, horder, rfl, ?_⟩
  unfold report
  rw [horder]

/-- Every attempt at an order is an answer, and the one in the report. -/
theorem WellFormed.attemptOrder_eq (h : g.WellFormed) (measure : PathMeasure) (missing : Nat) :
    g.attemptOrder measure = .ok ((g.report missing).levels?, (g.report missing).obstacle?) := by
  unfold attemptOrder GraphReport.levels? GraphReport.obstacle?
  by_cases hcyclic : g.Cyclic
  · obtain ⟨fault, horder, hkind, hreport⟩ := h.order_report_of_cyclic hcyclic missing
    rw [horder, hreport]
    have hcaught : fault.kind.isA .resolution = true := by
      rw [hkind]
      decide
    exact if_pos hcaught
  · obtain ⟨n, hn⟩ := exists_waveCount_of_acyclic hcyclic
    rw [h.creationOrder_of_acyclic hcyclic, h.order_report_of_acyclic hcyclic hn missing,
      h.levels_eq_waveCount, hn]
    rfl

/-- A report has a number of levels exactly if it has no cycles, and else an obstacle. -/
theorem WellFormed.order_report_iff (h : g.WellFormed) (missing : Nat) :
    ((g.report missing).isOrderable = true ↔ g.cycles = []) ∧
      ((g.report missing).levels?.isSome = true ↔ g.cycles = []) := by
  unfold GraphReport.isOrderable GraphReport.levels? GraphReport.obstacle?
  rw [h.cycles_eq_nil_iff]
  by_cases hcyclic : g.Cyclic
  · obtain ⟨fault, -, -, hreport⟩ := h.order_report_of_cyclic hcyclic missing
    simp [hreport, hcyclic]
  · obtain ⟨n, hn⟩ := exists_waveCount_of_acyclic hcyclic
    simp [h.order_report_of_acyclic hcyclic hn missing, hcyclic]

/-- **The levels of the graph after any history of operations**, by any right measure of paths. They
are the waves. There are none exactly if there is no order, for the same fault, and it names the
first cycle, which is never empty. Otherwise their number is the least number of waves in which the
resources can be created, and zero without resources. So a report always comes about; and that it
has an order, that it has no cycles and that it has a number of levels are the same. -/
theorem levels_of_history (measure : PathMeasure) (history : List Operation) :
    let g := after history
    g.levels measure = g.waveCount ∧
      (∀ fault, g.levels measure = .error fault ↔ g.creationOrder = .error fault) ∧
      (∀ fault, g.levels measure = .error fault → ∃ cycle others,
        g.cycles = cycle :: others ∧ cycle ≠ [] ∧ fault = cycleFault cycle) ∧
      (∀ n, g.levels measure = .ok n → IsLeast {m | g.HasWaves g.resources m} n) ∧
      (g.resources = [] → g.levels measure = .ok 0) ∧
      ∀ missing,
        g.attemptOrder measure = .ok ((g.report missing).levels?, (g.report missing).obstacle?) ∧
        ((g.report missing).isOrderable = true ↔ (g.report missing).cycles = []) ∧
        ((g.report missing).levels?.isSome = true ↔ (g.report missing).cycles = []) := by
  intro g
  have h : g.WellFormed := wellFormed_after history
  rw [h.levels_eq_waveCount measure]
  refine ⟨rfl, fun fault => h.waveCount_eq_error_iff, ?_, fun n hn => isLeast_of_waveCount hn,
    ?_, ?_⟩
  · intro fault hfault
    obtain ⟨cycle, others, hcycles, hne, hwaves, -⟩ :=
      h.waveCount_of_cyclic (cyclic_of_waveCount hfault)
    rw [hwaves] at hfault
    exact ⟨cycle, others, hcycles, hne, (Except.error.inj hfault).symm⟩
  · intro hnone
    rw [waveCount, hnone]
    rfl
  · intro missing
    exact ⟨h.attemptOrder_eq measure missing, h.order_report_iff missing⟩

/-- Flows that call each other. -/
def callingFlows (ids : List String) (calls : List (String × String)) : List Operation :=
  (ids.map fun id => .register ⟨.flow, id⟩ id) ++ calls.map fun (source, target) =>
    .addEdge ⟨.flow, source⟩ ⟨.flow, target⟩ "subflow_id" "t"

/-- A flow with two sub-flows that share one of their own. -/
def diamond : List Operation :=
  callingFlows ["a", "b", "c", "d"] [("a", "b"), ("a", "c"), ("b", "d"), ("c", "d")]

/-- A flow and its sub-flow, which calls the flow. -/
def loop : List Operation :=
  callingFlows ["a", "b"] [("a", "b"), ("b", "a")]

/-- The shared sub-flow comes first, then the two, then the flow; and a loop has no levels. -/
theorem levels_of_history_diamond_loop :
    ((after diamond).levels .bySteps = .ok 3 ∧
      IsLeast {m | (after diamond).HasWaves (after diamond).resources m} 3) ∧
    ∃ fault cycle others, (after loop).levels .bySteps = .error fault ∧
      (after loop).creationOrder = .error fault ∧ (after loop).cycles = cycle :: others ∧
      cycle ≠ [] ∧ fault = cycleFault cycle := by
  have hdiamond : ((after diamond).levels .bySteps).toOption = some 3 := by
    decide +kernel
  have hloop : ((after loop).levels .bySteps).toOption = none := by
    decide +kernel
  constructor
  · cases hcount : (after diamond).levels .bySteps with
    | error fault =>
      rw [hcount] at hdiamond
      cases hdiamond
    | ok n =>
      rw [hcount] at hdiamond
      obtain rfl : n = 3 := Option.some.inj hdiamond
      exact ⟨rfl, (levels_of_history .bySteps diamond).2.2.2.1 3 hcount⟩
  · cases hcount : (after loop).levels .bySteps with
    | error fault =>
      obtain ⟨-, horder, hcycle, -⟩ := levels_of_history .bySteps loop
      obtain ⟨cycle, others, hcycles, hne, hfault⟩ := hcycle fault hcount
      exact ⟨fault, cycle, others, rfl, (horder fault).1 hcount, hcycles, hne, hfault⟩
    | ok n =>
      rw [hcount] at hloop
      cases hloop

end Graph
end HclExport
