import HclExport.Proofs.Graph.Levels

/-!
# The order of creation, wave by wave

The depth of a resource is the number of references in the longest chain that starts at it. A
resource becomes ready when the last one that it refers to is served, and that is the deepest of
them; so whatever becomes ready is one deeper than what is being served. The queue never holds more
than two depths, and resources are served in the order of their depths.

## Main definitions

* `Graph.hasChain`, `Graph.depth` — whether some references in a row start at an identity, and the
  depth of a resource.
* `Graph.Layered` — what was served and what is ready stand in the order of their depths.

## Main results

* `Graph.WellFormed.isGreatest_depth` — the depth is the length of the longest chain.
* `Graph.Layered.serve`, `Graph.Layered.run` — the order of depths, over one step and over a run.
* `Graph.WellFormed.filter_served` — the resources that refer to nothing stand as they were
  registered.
* `Graph.depths_of_history` — **the order of creation after any history, by depth.**
-/

namespace HclExport
namespace Graph

variable {g : Graph}

/-! ### Depth -/

/-- Whether some references in a row between registered resources start at an identity. -/
def hasChain (g : Graph) : Nat → Ref → Bool
  | 0, _ => true
  | steps + 1, ref => (g.targets ref).any fun target => g.has target && g.hasChain steps target

/-- The number of references in the longest chain of resources that starts at a resource. Without a
cycle no chain has as many references as there are resources. -/
def depth (g : Graph) (r : Resource) : Nat :=
  Nat.findGreatest (fun steps => g.hasChain steps r.ref = true) g.resources.length

theorem IsChainOf.of_cons {pending rest : List Resource} {r : Resource}
    (h : g.IsChainOf pending (r :: rest)) : g.IsChainOf pending rest :=
  ⟨(List.cons_subset.1 h.subset).2, h.refers.tail⟩

theorem hasChain_iff {steps : Nat} {r : Resource} (hr : r ∈ g.resources) :
    g.hasChain steps r.ref = true ↔
      ∃ rest, g.IsChainOf g.resources (r :: rest) ∧ rest.length = steps := by
  induction steps generalizing r with
  | zero =>
    refine ⟨fun _ => ⟨[], ⟨by simpa using hr, List.isChain_singleton r⟩, rfl⟩, fun _ => rfl⟩
  | succ steps ih =>
    simp only [hasChain, List.any_eq_true, Bool.and_eq_true, mem_targets]
    constructor
    · rintro ⟨target, hrefers, hhas, hchain⟩
      obtain ⟨next, hnext⟩ := Option.isSome_iff_exists.1 hhas
      obtain rfl := ref_of_find? hnext
      obtain ⟨rest, hrest, rfl⟩ := (ih (mem_of_find? hnext)).1 hchain
      exact ⟨next :: rest,
        ⟨List.cons_subset.2 ⟨hr, hrest.subset⟩, hrest.refers.cons_cons hrefers⟩, rfl⟩
    · rintro ⟨rest, hchain, hlength⟩
      cases rest with
      | nil => cases hlength
      | cons next rest =>
        have hnext : next ∈ g.resources := hchain.of_cons.subset List.mem_cons_self
        exact ⟨next.ref, hchain.refers.rel, has_iff_mem_refs.2 (List.mem_map_of_mem hnext),
          (ih hnext).2 ⟨rest, hchain.of_cons, by simpa using hlength⟩⟩

/-- Without a cycle no chain comes back to a resource. -/
theorem WellFormed.length_le_of_chain (h : g.WellFormed) (hacyclic : ¬g.Cyclic)
    {chain : List Resource} (hchain : g.IsChainOf g.resources chain) :
    chain.length ≤ g.resources.length := by
  have hle := hchain.isPath.length_le (h.acyclic_ordering_iff.2 hacyclic)
  simpa [ordering] using hle

/-- The depth is the length of the longest chain. -/
theorem WellFormed.isGreatest_depth (h : g.WellFormed) (hacyclic : ¬g.Cyclic) {r : Resource}
    (hr : r ∈ g.resources) :
    IsGreatest {n | ∃ rest, g.IsChainOf g.resources (r :: rest) ∧ rest.length = n}
      (g.depth r) := by
  constructor
  · exact (hasChain_iff hr).1 (Nat.findGreatest_spec
      (P := fun steps => g.hasChain steps r.ref = true) (Nat.zero_le _) rfl)
  · rintro n ⟨rest, hchain, rfl⟩
    have hle := h.length_le_of_chain hacyclic hchain
    rw [List.length_cons] at hle
    exact Nat.le_findGreatest (by omega) ((hasChain_iff hr).2 ⟨rest, hchain, rfl⟩)

section Acyclic

variable (hwf : g.WellFormed) (hacyclic : ¬g.Cyclic)

include hwf hacyclic

/-- A resource is deeper than those that it refers to. -/
theorem depth_lt_of_refers {a b : Resource} (ha : a ∈ g.resources) (hb : b ∈ g.resources)
    (hrefers : g.Refers a.ref b.ref) : g.depth b < g.depth a := by
  obtain ⟨rest, hchain, hlength⟩ := (hwf.isGreatest_depth hacyclic hb).1
  have hlonger : g.IsChainOf g.resources (a :: b :: rest) :=
    ⟨List.cons_subset.2 ⟨ha, hchain.subset⟩, hchain.refers.cons_cons hrefers⟩
  have hle := (hwf.isGreatest_depth hacyclic ha).2 ⟨_, hlonger, rfl⟩
  rw [List.length_cons] at hle
  omega

/-- A resource is no deeper than a number that exceeds the depths of those that it refers to. -/
theorem depth_le_of_forall {a : Resource} (ha : a ∈ g.resources) {n : Nat}
    (h : ∀ b ∈ g.resources, g.Refers a.ref b.ref → g.depth b < n) : g.depth a ≤ n := by
  obtain ⟨rest, hchain, hlength⟩ := (hwf.isGreatest_depth hacyclic ha).1
  cases rest with
  | nil => exact hlength ▸ Nat.zero_le n
  | cons b rest =>
    have hb : b ∈ g.resources := hchain.of_cons.subset List.mem_cons_self
    have hlt := h b hb hchain.refers.rel
    have hle := (hwf.isGreatest_depth hacyclic hb).2 ⟨rest, hchain.of_cons, rfl⟩
    rw [List.length_cons] at hlength
    omega

/-- The resources of depth zero refer to no registered resource. -/
theorem depth_eq_zero_iff {r : Resource} (hr : r ∈ g.resources) :
    g.depth r = 0 ↔ g.degree r.ref = 0 := by
  rw [← pending_nil, pending_eq_zero_iff]
  constructor
  · intro hzero target hrefers hhas
    obtain ⟨next, hnext⟩ := Option.isSome_iff_exists.1 hhas
    obtain rfl := ref_of_find? hnext
    have hlt := depth_lt_of_refers hwf hacyclic hr (mem_of_find? hnext) hrefers
    omega
  · intro hnone
    refine Nat.le_zero.1 (depth_le_of_forall hwf hacyclic hr fun b hb hrefers => ?_)
    have hmem := hnone b.ref hrefers (has_iff_mem_refs.2 (List.mem_map_of_mem hb))
    cases hmem

end Acyclic

/-! ### The service, layer by layer -/

/-- What was served and what is ready stand in the order of their depths, and what is ready differs
by one in depth at most. -/
structure Layered (g : Graph) (done queue : List Resource) : Prop where
  sorted : (done ++ queue).Pairwise fun a b => g.depth a ≤ g.depth b
  span : ∀ a ∈ queue, ∀ b ∈ queue, g.depth b ≤ g.depth a + 1

/-- What becomes ready when a resource is served waited for that resource. -/
theorem InProgress.refers_of_ready {done queue : List Resource} {waiting : List (Resource × Nat)}
    {r q : Resource} (h : g.InProgress done (r :: queue) waiting) (hwf : g.WellFormed)
    (hq : q ∈ (releaseAll (g.dependents r.ref) waiting).1) : g.Refers q.ref r.ref := by
  obtain ⟨c, hc, rfl⟩ := List.mem_map.1
    ((perm_releaseAll (g.dependents r.ref) waiting).subset (List.mem_append_left _ hq))
  -- it still waited before, and waits for nothing now
  have hbefore := h.waits c hc
  have hafter := (h.serve hwf).ready c.1 (List.mem_append_right _ hq)
  have hstep := h.pending_serve hwf c.1.ref
  have hmem : c.1.ref ∈ g.dependents r.ref := List.count_pos_iff.1 (by omega)
  obtain ⟨e, he, hsource⟩ := List.mem_map.1 hmem
  obtain ⟨hedge, htarget⟩ := List.mem_filter.1 he
  exact ⟨e, hedge, hsource, of_decide_eq_true htarget⟩

namespace Layered

variable {done queue : List Resource} {waiting : List (Resource × Nat)}

theorem initial (hwf : g.WellFormed) (hacyclic : ¬g.Cyclic) : g.Layered [] g.initialQueue := by
  have hzero : ∀ r ∈ g.initialQueue, g.depth r = 0 := by
    intro r hr
    have hmem : r ∈ g.resources := (perm_initial g).subset (List.mem_append_left _ hr)
    rw [depth_eq_zero_iff hwf hacyclic hmem, ← pending_nil]
    exact (InProgress.initial g).ready r hr
  constructor
  · refine List.pairwise_of_forall_mem_list fun a ha b _ => ?_
    rw [hzero a (by simpa using ha)]
    exact Nat.zero_le _
  · intro a _ b hb
    rw [hzero b hb]
    exact Nat.zero_le _

/-- What becomes ready is one deeper than what is being served, which is the deepest of those that
it refers to. -/
theorem depth_ready {r : Resource} (h : g.Layered done (r :: queue)) (hwf : g.WellFormed)
    (hacyclic : ¬g.Cyclic) (hprogress : g.InProgress done (r :: queue) waiting) {q : Resource}
    (hq : q ∈ (releaseAll (g.dependents r.ref) waiting).1) : g.depth q = g.depth r + 1 := by
  have hserved := hprogress.serve hwf
  have hqmem : q ∈ g.resources := hserved.perm.subset (by simp [hq])
  have hrmem : r ∈ g.resources := hprogress.perm.subset (by simp)
  refine Nat.le_antisymm ?_
    (depth_lt_of_refers hwf hacyclic hqmem hrmem (hprogress.refers_of_ready hwf hq))
  refine depth_le_of_forall hwf hacyclic hqmem fun b hb hrefers => Nat.lt_succ_of_le ?_
  -- whatever it refers to was served, and nothing deeper was served before
  have hready := hserved.ready q (List.mem_append_right _ hq)
  have hdone := pending_eq_zero_iff.1 hready b.ref hrefers
    (has_iff_mem_refs.2 (List.mem_map_of_mem hb))
  obtain ⟨c, hc, href⟩ := List.mem_map.1 hdone
  have hcmem : c ∈ g.resources := hserved.perm.subset (by simp at hc ⊢; tauto)
  obtain rfl := List.inj_on_of_nodup_map hwf.refs_nodup hcmem hb href
  rcases List.mem_append.1 hc with hc | hc
  · exact (List.pairwise_append.1 h.sorted).2.2 c hc r List.mem_cons_self
  · rw [List.mem_singleton.1 hc]

/-- **Serving the first in the queue keeps the order of depths.** -/
theorem serve {r : Resource} (h : g.Layered done (r :: queue)) (hwf : g.WellFormed)
    (hacyclic : ¬g.Cyclic) (hprogress : g.InProgress done (r :: queue) waiting) :
    g.Layered (done ++ [r]) (queue ++ (releaseAll (g.dependents r.ref) waiting).1) := by
  have hready : ∀ q ∈ (releaseAll (g.dependents r.ref) waiting).1, g.depth q = g.depth r + 1 :=
    fun q hq => h.depth_ready hwf hacyclic hprogress hq
  have hqueue : ∀ q ∈ queue, g.depth r ≤ g.depth q ∧ g.depth q ≤ g.depth r + 1 := by
    intro q hq
    have hsorted := (List.pairwise_append.1 h.sorted).2.1
    exact ⟨(List.pairwise_cons.1 hsorted).1 q hq,
      h.span r List.mem_cons_self q (List.mem_cons_of_mem _ hq)⟩
  have hbounds : ∀ q ∈ queue ++ (releaseAll (g.dependents r.ref) waiting).1,
      g.depth r ≤ g.depth q ∧ g.depth q ≤ g.depth r + 1 := by
    intro q hq
    rcases List.mem_append.1 hq with hq | hq
    · exact hqueue q hq
    · have heq := hready q hq
      omega
  constructor
  · have hrow : (done ++ [r]) ++ (queue ++ (releaseAll (g.dependents r.ref) waiting).1) =
        (done ++ r :: queue) ++ (releaseAll (g.dependents r.ref) waiting).1 := by simp
    rw [hrow, List.pairwise_append]
    refine ⟨h.sorted, List.pairwise_of_forall_mem_list fun a ha b hb => ?_, fun a ha b hb => ?_⟩
    · rw [hready a ha, hready b hb]
    · rw [hready b hb]
      rcases List.mem_append.1 ha with ha | ha
      · have hle := (List.pairwise_append.1 h.sorted).2.2 a ha r List.mem_cons_self
        omega
      · rcases List.mem_cons.1 ha with rfl | ha
        · exact Nat.le_succ _
        · exact (hqueue a ha).2
  · intro a ha b hb
    have hlow := (hbounds a ha).1
    have hhigh := (hbounds b hb).2
    omega

/-- The order of depths over a whole run. -/
theorem run {order : List Resource} (h : g.Layered done queue) (hwf : g.WellFormed)
    (hacyclic : ¬g.Cyclic) (hprogress : g.InProgress done queue waiting)
    (hserves : g.Serves queue waiting order) :
    (done ++ order).Pairwise fun a b => g.depth a ≤ g.depth b := by
  induction hserves generalizing done with
  | done => exact h.sorted
  | @serves r queue order waiting hrest ih =>
    have hsorted := ih (h.serve hwf hacyclic hprogress) (hprogress.serve hwf)
    rwa [List.append_assoc] at hsorted

end Layered

/-! ### The order -/

/-- What is ready is served before anything else, in the order of the queue. -/
theorem Serves.queue_first {queue order : List Resource} {waiting : List (Resource × Nat)}
    (h : g.Serves queue waiting order) : queue <+: order := by
  induction h with
  | done => exact List.prefix_refl _
  | serves _ ih => exact List.cons_prefix_cons.2 ⟨rfl, (List.prefix_append _ _).trans ih⟩

theorem initialQueue_eq (g : Graph) :
    g.initialQueue = g.resources.filter fun r => g.degree r.ref = 0 := by
  unfold initialQueue
  rw [List.filter_map, List.map_map]
  simp only [Function.comp_def, List.map_id']
  rfl

/-- The resources of depth zero stand as they were registered. -/
theorem WellFormed.filter_served (h : g.WellFormed) (hacyclic : ¬g.Cyclic) :
    (g.served.filter fun r => g.depth r = 0) = g.resources.filter fun r => g.depth r = 0 := by
  have hperm := h.perm_served hacyclic
  have hdegree : ∀ r ∈ g.resources, decide (g.depth r = 0) = decide (g.degree r.ref = 0) :=
    fun r hr => decide_eq_decide.2 (depth_eq_zero_iff h hacyclic hr)
  obtain ⟨rest, hrest⟩ := (serves_served g).queue_first
  -- what is not ready at first waits at first, and so refers to something
  have hwaiting : rest.Perm (g.initialWaiting.map Prod.fst) := by
    refine (List.perm_append_left_iff g.initialQueue).1 ?_
    rw [hrest]
    exact hperm.trans (perm_initial g).symm
  have hnone : (rest.filter fun r => g.degree r.ref = 0) = [] := by
    refine List.filter_eq_nil_iff.2 fun r hr => ?_
    obtain ⟨c, hc, rfl⟩ := List.mem_map.1 (hwaiting.subset hr)
    have hwaits := (InProgress.initial g).waits c hc
    rw [pending_nil] at hwaits
    have hpos : g.degree c.1.ref ≠ 0 := by omega
    simpa using hpos
  rw [List.filter_congr fun r hr => hdegree r (hperm.subset hr), List.filter_congr hdegree, ← hrest,
    List.filter_append, hnone, List.append_nil, initialQueue_eq, List.filter_filter]
  simp

/-- There are as many waves as the deepest resource needs. -/
theorem WellFormed.waveCount_eq_of_deepest (h : g.WellFormed) (hacyclic : ¬g.Cyclic)
    {last : Resource} (hlast : last ∈ g.resources)
    (hdeepest : ∀ r ∈ g.resources, g.depth r ≤ g.depth last) :
    g.waveCount = .ok (g.depth last + 1) := by
  obtain ⟨n, hn⟩ := exists_waveCount_of_acyclic hacyclic
  have hrounds := wavesOf_of_waveCount hn
  obtain ⟨below, hbelow, hlength⟩ := (h.isGreatest_depth hacyclic hlast).1
  have hge := (hasWaves_of_wavesOf hrounds).length_le hbelow
  obtain ⟨chain, hchain, rfl⟩ := exists_chain_of_wavesOf hrounds
  cases chain with
  | nil => simp at hge
  | cons r rest =>
    -- the longest chain of all is the longest one that starts where it starts
    have hr : r ∈ g.resources := hchain.subset List.mem_cons_self
    have hle := (h.isGreatest_depth hacyclic hr).2 ⟨rest, hchain, rfl⟩
    have hdepth := hdeepest r hr
    rw [hn]
    simp only [List.length_cons] at hge ⊢
    congr 1
    omega

/-- **The order of creation after any history of operations without a cycle, by depth.** The depth
of a resource is the length of the longest chain of references between resources that starts at it.
All resources stand in the order of their depths, those of depth zero as they were registered, and
the number of levels, by any right measure of paths, is one more than the depth of the last one. -/
theorem depths_of_history (measure : PathMeasure) (history : List Operation)
    (hacyclic : ¬(after history).Cyclic) :
    let g := after history
    (∀ r ∈ g.resources,
      IsGreatest {n | ∃ rest, g.IsChainOf g.resources (r :: rest) ∧ rest.length = n}
        (g.depth r)) ∧
    ∃ order, g.creationOrder = .ok order ∧ order.Perm g.resources ∧
      (order.Pairwise fun a b => g.depth a ≤ g.depth b) ∧
      ((order.filter fun r => g.depth r = 0) = g.resources.filter fun r => g.depth r = 0) ∧
      ∀ last ∈ order.getLast?, g.levels measure = .ok (g.depth last + 1) := by
  intro g
  have h : g.WellFormed := wellFormed_after history
  have hperm := h.perm_served hacyclic
  have hsorted : g.served.Pairwise fun a b => g.depth a ≤ g.depth b := by
    simpa using (Layered.initial h hacyclic).run h hacyclic (InProgress.initial g) (serves_served g)
  refine ⟨fun r hr => h.isGreatest_depth hacyclic hr, g.served,
    h.creationOrder_of_acyclic hacyclic, hperm, hsorted, h.filter_served hacyclic, ?_⟩
  intro last hlast
  obtain ⟨before, hbefore⟩ : ∃ before, g.served = before ++ [last] :=
    ⟨_, (List.dropLast_append_getLast? last hlast).symm⟩
  have hmem : last ∈ g.resources := hperm.subset (by simp [hbefore])
  have hdeepest : ∀ r ∈ g.resources, g.depth r ≤ g.depth last := by
    intro r hr
    have hserved := hperm.symm.subset hr
    rw [hbefore] at hserved hsorted
    rcases List.mem_append.1 hserved with hr | hr
    · exact (List.pairwise_append.1 hsorted).2.2 r hr last List.mem_cons_self
    · rw [List.mem_singleton.1 hr]
  rw [h.levels_eq_waveCount, h.waveCount_eq_of_deepest hacyclic hmem hdeepest]

/-- Of the flow with two sub-flows that share one of their own, the shared sub-flow comes first and
the flow last, two references deeper. -/
theorem depths_of_history_diamond :
    ¬(after diamond).Cyclic ∧
      ∃ order, (after diamond).creationOrder = .ok order ∧
        (order.Pairwise fun a b => (after diamond).depth a ≤ (after diamond).depth b) ∧
        ∀ last ∈ order.getLast?,
          (after diamond).levels .bySteps = .ok ((after diamond).depth last + 1) := by
  have hcycles : (after diamond).cycles = [] := by decide +kernel
  have hacyclic : ¬(after diamond).Cyclic :=
    (wellFormed_after diamond).cycles_eq_nil_iff.1 hcycles
  obtain ⟨-, order, horder, -, hsorted, -, hlast⟩ :=
    depths_of_history .bySteps diamond hacyclic
  exact ⟨hacyclic, order, horder, hsorted, hlast⟩

/-- The depths of the resources in the order in which they were registered, and the order. -/
example : (after diamond).resources.map (after diamond).depth = [2, 1, 1, 0] ∧
    ((after diamond).creationOrder.toOption.map fun order => order.map Resource.name) =
      some ["d", "b", "c", "a"] := by
  decide +kernel

end Graph
end HclExport
