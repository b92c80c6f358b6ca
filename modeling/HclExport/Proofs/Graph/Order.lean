import HclExport.Graph.Order
import HclExport.Proofs.Graph.Cycle
import Mathlib.Order.WellFoundedSet

/-!
# The order of creation

Resources are served first come first served; the count of a waiting resource is that of its
references to registered resources that were not served yet. So whatever is served refers only to
what was served before, and what waits in the end refers to something that waits.

## Main definitions

* `Graph.Serves` — the service of a queue, without a bound.
* `Graph.pending` — how many references of a resource lead to what was not served yet.
* `Graph.Released` — what taking references off the counts of waiting resources gives.
* `Graph.Ordered`, `Graph.InProgress` — an order of creation, and the invariant of the service.

## Main results

* `Graph.serves_served` — the bound is never met.
* `Graph.InProgress.serve`, `Graph.InProgress.run` — the invariant, over one step and over a run.
* `Graph.WellFormed.perm_served` — without a cycle everything is served.
* `Graph.creationOrder_of_history` — **the order of creation after any history.**
-/

namespace HclExport
namespace Graph

open Relation (TransGen)

/-! ### Releasing what waits -/

/-- A resource that becomes ready no longer waits; nothing is lost. -/
theorem perm_release (ref : Ref) (waiting : List (Resource × Nat)) :
    ((release ref waiting).1.toList ++ (release ref waiting).2.map Prod.fst).Perm
      (waiting.map Prod.fst) := by
  induction waiting with
  | nil => exact List.Perm.refl _
  | cons c rest ih =>
    obtain ⟨r, count⟩ := c
    unfold release
    split
    · split
      · exact List.Perm.refl _
      · exact List.Perm.refl _
    · exact List.perm_middle.trans (ih.cons r)

theorem perm_releaseAll (refs : List Ref) (waiting : List (Resource × Nat)) :
    ((releaseAll refs waiting).1 ++ (releaseAll refs waiting).2.map Prod.fst).Perm
      (waiting.map Prod.fst) := by
  induction refs generalizing waiting with
  | nil => exact List.Perm.refl _
  | cons ref rest ih =>
    simp only [releaseAll, List.append_assoc]
    exact ((ih _).append_left _).trans (perm_release ref waiting)

theorem length_releaseAll (refs : List Ref) (waiting : List (Resource × Nat)) :
    (releaseAll refs waiting).1.length + (releaseAll refs waiting).2.length =
      waiting.length := by
  simpa using (perm_releaseAll refs waiting).length_eq

/-- Waiting resources: no two of one identity, each with a count above zero. -/
structure Waiting (waiting : List (Resource × Nat)) : Prop where
  nodup : ((waiting.map Prod.fst).map Resource.ref).Nodup
  pos : ∀ c ∈ waiting, 0 < c.2

/-- What taking references off the counts of waiting resources gives: a resource is ready when
the count is used up, and the others wait with what is left of theirs. -/
structure Released (refs : List Ref) (waiting : List (Resource × Nat)) (ready : List Resource)
    (left : List (Resource × Nat)) : Prop where
  ready_le : ∀ r ∈ ready, ∃ count ≤ refs.count r.ref, (r, count) ∈ waiting
  left_eq : ∀ c ∈ left, 0 < c.2 ∧ (c.1, c.2 + refs.count c.1.ref) ∈ waiting

/-- What is left waits with counts above zero. -/
theorem Released.waiting {refs : List Ref} {waiting left : List (Resource × Nat)}
    {ready : List Resource} (h : Released refs waiting ready left) (hwaiting : Waiting waiting)
    (hperm : (ready ++ left.map Prod.fst).Perm (waiting.map Prod.fst)) : Waiting left where
  nodup := by
    have hnodup := (hperm.map Resource.ref).nodup_iff.2 hwaiting.nodup
    rw [List.map_append] at hnodup
    exact hnodup.of_append_right
  pos := fun c hc => (h.left_eq c hc).1

/-- References taken off one after the other. -/
theorem Released.cons {ref : Ref} {rest : List Ref} {waiting others left : List (Resource × Nat)}
    {ready more : List Resource} (hfirst : Released [ref] waiting ready others)
    (hrest : Released rest others more left) :
    Released (ref :: rest) waiting (ready ++ more) left := by
  have hcount : ∀ other, (ref :: rest).count other = rest.count other + [ref].count other := by
    intro other
    rw [List.count_cons, List.count_cons, List.count_nil, Nat.zero_add]
  constructor
  · intro r hr
    rw [hcount]
    rcases List.mem_append.1 hr with hr | hr
    · obtain ⟨count, hle, hmem⟩ := hfirst.ready_le r hr
      exact ⟨count, by omega, hmem⟩
    · -- it waited with what was left of its count
      obtain ⟨count, hle, hmem⟩ := hrest.ready_le r hr
      exact ⟨count + [ref].count r.ref, by omega, (hfirst.left_eq _ hmem).2⟩
  · intro c hc
    obtain ⟨hpos, hmem⟩ := hrest.left_eq c hc
    refine ⟨hpos, ?_⟩
    rw [hcount, ← Nat.add_assoc]
    exact (hfirst.left_eq _ hmem).2

/-- Taking off a reference to the first of some waiting resources leaves the others alone, since
none of them has its identity. -/
theorem Waiting.others {r : Resource} {count : Nat} {rest : List (Resource × Nat)}
    (h : Waiting ((r, count) :: rest)) :
    ∀ c ∈ rest, 0 < c.2 ∧ (c.1, c.2 + [r.ref].count c.1.ref) ∈ rest := by
  intro c hc
  have hne : r.ref ≠ c.1.ref := by
    intro heq
    obtain ⟨hnew, -⟩ := List.nodup_cons.1 h.nodup
    exact hnew (heq ▸ List.mem_map_of_mem (List.mem_map_of_mem hc))
  rw [List.count_singleton, if_neg (by simpa using hne)]
  exact ⟨h.pos c (List.mem_cons_of_mem _ hc), hc⟩

theorem released_release (ref : Ref) {waiting : List (Resource × Nat)} (h : Waiting waiting) :
    Released [ref] waiting (release ref waiting).1.toList (release ref waiting).2 := by
  induction waiting with
  | nil => exact ⟨by simp [release], by simp [release]⟩
  | cons c rest ih =>
    obtain ⟨r, count⟩ := c
    unfold release
    by_cases hr : r.ref = ref
    · obtain rfl := hr
      have hothers := h.others
      rw [if_pos rfl]
      by_cases hcount : count ≤ 1
      · rw [if_pos hcount]
        refine ⟨?_, fun c hc => ⟨(hothers c hc).1, List.mem_cons_of_mem _ (hothers c hc).2⟩⟩
        intro other hother
        obtain rfl : other = r := by simpa using hother
        exact ⟨count, by simpa using hcount, List.mem_cons_self⟩
      · rw [if_neg hcount]
        refine ⟨by simp, List.forall_mem_cons.2 ⟨⟨?_, ?_⟩, fun c hc =>
          ⟨(hothers c hc).1, List.mem_cons_of_mem _ (hothers c hc).2⟩⟩⟩
        · show 0 < count - 1
          omega
        · have hsum : count - 1 + [r.ref].count r.ref = count := by
            simp only [List.count_singleton_self]
            omega
          rw [hsum]
          exact List.mem_cons_self
    · rw [if_neg hr]
      have hrest : Waiting rest :=
        ⟨(List.nodup_cons.1 h.nodup).2, fun c hc => h.pos c (List.mem_cons_of_mem _ hc)⟩
      have ih := ih hrest
      constructor
      · intro other hother
        obtain ⟨count, hle, hmem⟩ := ih.ready_le other hother
        exact ⟨count, hle, List.mem_cons_of_mem _ hmem⟩
      · refine List.forall_mem_cons.2 ⟨⟨h.pos _ List.mem_cons_self, ?_⟩, fun c hc =>
          ⟨(ih.left_eq c hc).1, List.mem_cons_of_mem _ (ih.left_eq c hc).2⟩⟩
        rw [List.count_singleton, if_neg (by simpa using Ne.symm hr)]
        exact List.mem_cons_self

theorem released_releaseAll (refs : List Ref) {waiting : List (Resource × Nat)}
    (h : Waiting waiting) :
    Released refs waiting (releaseAll refs waiting).1 (releaseAll refs waiting).2 := by
  induction refs generalizing waiting with
  | nil => exact ⟨by simp [releaseAll], fun c hc => ⟨h.pos c hc, by simpa [releaseAll] using hc⟩⟩
  | cons ref rest ih =>
    have hfirst := released_release ref h
    exact hfirst.cons (ih (hfirst.waiting h (perm_release ref waiting)))

/-! ### The service without a bound -/

/-- The service of a queue of ready resources: whoever is served releases what depends on it. -/
inductive Serves (g : Graph) : List Resource → List (Resource × Nat) → List Resource → Prop
  /-- The queue is empty. -/
  | done {waiting : List (Resource × Nat)} : Serves g [] waiting []
  /-- The first in the queue is served. -/
  | serves {r : Resource} {queue order : List Resource} {waiting : List (Resource × Nat)}
      (hrest : Serves g (queue ++ (releaseAll (g.dependents r.ref) waiting).1)
        (releaseAll (g.dependents r.ref) waiting).2 order) :
    Serves g (r :: queue) waiting (r :: order)

/-- The resources that wait at first, with the counts of their references. -/
def initialWaiting (g : Graph) : List (Resource × Nat) :=
  (g.resources.map fun r => (r, g.degree r.ref)).filter fun c => c.2 != 0

/-- The resources that are ready at first. -/
def initialQueue (g : Graph) : List Resource :=
  ((g.resources.map fun r => (r, g.degree r.ref)).filter fun c => c.2 == 0).map Prod.fst

/-- At first every resource is ready or waits. -/
theorem perm_initial (g : Graph) :
    (g.initialQueue ++ g.initialWaiting.map Prod.fst).Perm g.resources := by
  have hperm := (List.filter_append_perm (fun c : Resource × Nat => c.2 == 0)
    (g.resources.map fun r => (r, g.degree r.ref))).map Prod.fst
  rw [List.map_append, List.map_map] at hperm
  simpa [initialQueue, initialWaiting, Function.comp_def, bne] using hperm

theorem serves_serve {g : Graph} {steps : Nat} {queue : List Resource}
    {waiting : List (Resource × Nat)} (hsteps : queue.length + waiting.length ≤ steps) :
    g.Serves queue waiting (g.serve steps queue waiting) := by
  induction steps generalizing queue waiting with
  | zero =>
    obtain rfl : queue = [] := List.eq_nil_of_length_eq_zero (by omega)
    exact .done
  | succ steps ih =>
    cases queue with
    | nil => exact .done
    | cons r queue =>
      refine .serves (ih ?_)
      have hlength := length_releaseAll (g.dependents r.ref) waiting
      simp only [List.length_cons, List.length_append] at hsteps ⊢
      omega

/-- Every step serves one resource, so as many steps as there are resources are enough. -/
theorem serves_served (g : Graph) : g.Serves g.initialQueue g.initialWaiting g.served := by
  refine serves_serve ?_
  have hlength := (perm_initial g).length_eq
  rw [List.length_append, List.length_map] at hlength
  omega

/-! ### What a waiting resource waits for -/

/-- How many references of a resource lead to registered resources that were not served yet. -/
def pending (g : Graph) (done : List Resource) (ref : Ref) : Nat :=
  g.edges.countP fun e =>
    e.source.ref = ref && g.has e.target && !(done.map Resource.ref).contains e.target

theorem pending_nil (g : Graph) (ref : Ref) : g.pending [] ref = g.degree ref := by
  simp [pending, degree, List.countP_eq_length_filter]

theorem pending_eq_zero_iff {g : Graph} {done : List Resource} {ref : Ref} :
    g.pending done ref = 0 ↔
      ∀ target, g.Refers ref target → g.has target = true → target ∈ done.map Resource.ref := by
  unfold pending
  rw [List.countP_eq_zero]
  constructor
  · rintro h target ⟨e, he, rfl, rfl⟩ hhas
    by_contra hnot
    exact h e he (by simp [hhas, hnot])
  · intro h e he hpending
    simp only [Bool.and_eq_true, decide_eq_true_eq, Bool.not_eq_true', List.contains_eq_mem,
      decide_eq_false_iff_not] at hpending
    exact hpending.2 (h e.target ⟨e, he, hpending.1.1, rfl⟩ hpending.1.2)

/-- Serving a resource takes away the references to it, parallel ones one by one. -/
theorem pending_append {g : Graph} {done : List Resource} {r : Resource}
    (hr : g.has r.ref = true) (hnew : r.ref ∉ done.map Resource.ref) (ref : Ref) :
    g.pending (done ++ [r]) ref + (g.dependents r.ref).count ref = g.pending done ref := by
  unfold pending dependents List.count
  refine Eq.symm
    ((List.countP_eq_countP_filter_add g.edges _ fun e => e.target != r.ref).trans ?_)
  rw [List.countP_map, List.countP_filter, List.countP_filter, List.countP_filter]
  congr 1
  · refine List.countP_congr fun e _ => ?_
    simp [and_assoc, and_comm, and_left_comm]
  · refine List.countP_congr fun e _ => ?_
    by_cases heq : e.target = r.ref
    · simp [heq, hr, hnew]
    · simp [heq]

/-- Without a cycle there are no identities each of which refers to another of them: going from
each to one that it refers to would never end. -/
theorem eq_nil_of_forall_refers {g : Graph} (hacyclic : ¬g.Cyclic) {refs : List Ref}
    (h : ∀ ref ∈ refs, ∃ target ∈ refs, g.Refers ref target) : refs = [] := by
  have : IsStrictOrder Ref fun a b => TransGen g.Refers b a :=
    { irrefl := fun ref hcycle => hacyclic ⟨ref, hcycle⟩
      trans := fun _ _ _ hab hbc => hbc.trans hab }
  have hwf := (List.finite_toSet refs).wellFoundedOn (r := fun a b => TransGen g.Refers b a)
  rw [List.eq_nil_iff_forall_not_mem]
  intro ref href
  refine hwf.induction (P := fun _ => False) href fun ref href ih => ?_
  obtain ⟨target, htarget, hrefers⟩ := h ref href
  exact ih target htarget (TransGen.single hrefers)

/-! ### The invariant of the service -/

/-- Each resource of the list refers only to registered resources that stand before it. -/
def Ordered (g : Graph) (order : List Resource) : Prop :=
  ∀ before r after, order = before ++ r :: after → g.pending before r.ref = 0

theorem Ordered.append {g : Graph} {order : List Resource} {r : Resource} (h : g.Ordered order)
    (hr : g.pending order r.ref = 0) : g.Ordered (order ++ [r]) := by
  intro before other after heq
  rcases List.eq_nil_or_concat after with rfl | ⟨init, last, hafter⟩
  · obtain ⟨rfl, hlast⟩ := List.append_inj' heq rfl
    obtain rfl : r = other := by simpa using hlast
    exact hr
  · rw [hafter, List.concat_eq_append, ← List.cons_append, ← List.append_assoc] at heq
    exact h before other init (List.append_inj' heq rfl).1

/-- A resource is served, ready or waiting; what is served stands in order, what is ready refers
to nothing else, and the count of what waits is that of its references to the others. -/
structure InProgress (g : Graph) (done queue : List Resource) (waiting : List (Resource × Nat)) :
    Prop where
  perm : (done ++ queue ++ waiting.map Prod.fst).Perm g.resources
  ordered : g.Ordered done
  ready : ∀ r ∈ queue, g.pending done r.ref = 0
  waits : ∀ c ∈ waiting, 0 < c.2 ∧ c.2 = g.pending done c.1.ref

namespace InProgress

theorem initial (g : Graph) : g.InProgress [] g.initialQueue g.initialWaiting where
  perm := perm_initial g
  ordered := by
    intro before r after heq
    simp at heq
  ready := by
    intro r hr
    obtain ⟨c, hc, rfl⟩ := List.mem_map.1 hr
    obtain ⟨hmem, hzero⟩ := List.mem_filter.1 hc
    obtain ⟨r, -, rfl⟩ := List.mem_map.1 hmem
    rw [pending_nil]
    simpa using hzero
  waits := by
    intro c hc
    obtain ⟨hmem, hne⟩ := List.mem_filter.1 hc
    obtain ⟨r, -, rfl⟩ := List.mem_map.1 hmem
    exact ⟨Nat.pos_of_ne_zero (by simpa using hne), (pending_nil g r.ref).symm⟩

variable {g : Graph} {done queue : List Resource} {waiting : List (Resource × Nat)}

/-- No resource is counted twice. -/
theorem refs_nodup (h : g.InProgress done queue waiting) (hwf : g.WellFormed) :
    ((done ++ queue ++ waiting.map Prod.fst).map Resource.ref).Nodup :=
  (h.perm.map Resource.ref).nodup_iff.2 hwf.refs_nodup

theorem waiting_waits (h : g.InProgress done queue waiting) (hwf : g.WellFormed) :
    Waiting waiting where
  nodup := by
    have hnodup := h.refs_nodup hwf
    rw [List.map_append] at hnodup
    exact hnodup.of_append_right
  pos := fun c hc => (h.waits c hc).1

/-- Serving the first in the queue takes away the references to it. -/
theorem pending_serve {r : Resource} (h : g.InProgress done (r :: queue) waiting)
    (hwf : g.WellFormed) (ref : Ref) :
    g.pending (done ++ [r]) ref + (g.dependents r.ref).count ref = g.pending done ref := by
  have hr : g.has r.ref = true :=
    has_iff_mem_refs.2 (List.mem_map_of_mem (h.perm.subset (by simp)))
  have hnew : r.ref ∉ done.map Resource.ref := by
    have hnodup := h.refs_nodup hwf
    simp only [List.map_append, List.map_cons] at hnodup
    intro hmem
    exact List.disjoint_of_nodup_append hnodup.of_append_left hmem List.mem_cons_self
  exact pending_append hr hnew ref

/-- **Serving the first in the queue keeps the invariant.** -/
theorem serve {r : Resource} (h : g.InProgress done (r :: queue) waiting) (hwf : g.WellFormed) :
    g.InProgress (done ++ [r]) (queue ++ (releaseAll (g.dependents r.ref) waiting).1)
      (releaseAll (g.dependents r.ref) waiting).2 := by
  have hreleased := released_releaseAll (g.dependents r.ref) (h.waiting_waits hwf)
  have hpending := h.pending_serve hwf
  refine ⟨?_, h.ordered.append (h.ready r List.mem_cons_self), ?_, ?_⟩
  · have hperm := (perm_releaseAll (g.dependents r.ref) waiting).append_left
      (done ++ r :: queue)
    refine List.Perm.trans ?_ (hperm.trans h.perm)
    simp
  · intro q hq
    have hstep := hpending q.ref
    rcases List.mem_append.1 hq with hq | hq
    · have hzero := h.ready q (List.mem_cons_of_mem _ hq)
      omega
    · -- its count is used up, and the count is that of its references
      obtain ⟨count, hle, hmem⟩ := hreleased.ready_le q hq
      have hcount := (h.waits _ hmem).2
      dsimp only at hcount
      omega
  · intro c hc
    obtain ⟨hpos, hmem⟩ := hreleased.left_eq c hc
    have hcount := (h.waits _ hmem).2
    have hstep := hpending c.1.ref
    dsimp only at hcount
    exact ⟨hpos, by omega⟩

/-- The invariant over a whole run. -/
theorem run {order : List Resource} (h : g.InProgress done queue waiting) (hwf : g.WellFormed)
    (hserves : g.Serves queue waiting order) :
    ∃ left, g.InProgress (done ++ order) [] left := by
  induction hserves generalizing done with
  | @done waiting =>
    rw [List.append_nil]
    exact ⟨waiting, h⟩
  | @serves r queue order waiting hrest ih =>
    obtain ⟨left, hleft⟩ := ih (h.serve hwf)
    rw [List.append_assoc] at hleft
    exact ⟨left, hleft⟩

/-- What still waits when the queue is empty refers to something that waits. -/
theorem exists_waiting (h : g.InProgress done [] waiting) {c : Resource × Nat}
    (hc : c ∈ waiting) :
    ∃ target ∈ (waiting.map Prod.fst).map Resource.ref, g.Refers c.1.ref target := by
  have hpending : g.pending done c.1.ref ≠ 0 := by
    have := h.waits c hc
    omega
  rw [Ne, pending_eq_zero_iff] at hpending
  push Not at hpending
  obtain ⟨target, hrefers, hhas, hnot⟩ := hpending
  refine ⟨target, ?_, hrefers⟩
  obtain ⟨r, hr⟩ := Option.isSome_iff_exists.1 hhas
  obtain rfl := ref_of_find? hr
  have hmem := h.perm.symm.subset (mem_of_find? hr)
  simp only [List.append_nil, List.mem_append] at hmem
  rcases hmem with hmem | hmem
  · exact absurd (List.mem_map_of_mem hmem) hnot
  · exact List.mem_map_of_mem hmem

/-- Without a cycle nothing waits when the queue is empty. -/
theorem waiting_eq_nil (h : g.InProgress done [] waiting) (hacyclic : ¬g.Cyclic) :
    waiting = [] := by
  have hnone : (waiting.map Prod.fst).map Resource.ref = [] := by
    refine eq_nil_of_forall_refers hacyclic ?_
    intro ref href
    obtain ⟨r, hr, rfl⟩ := List.mem_map.1 href
    obtain ⟨c, hc, rfl⟩ := List.mem_map.1 hr
    exact h.exists_waiting hc
  simpa using hnone

end InProgress

/-! ### The order -/

variable {g : Graph}

/-- What is served stands in order. -/
theorem WellFormed.ordered_served (h : g.WellFormed) : g.Ordered g.served := by
  obtain ⟨left, hleft⟩ := (InProgress.initial g).run h (serves_served g)
  exact hleft.ordered

/-- Without a cycle every resource is served exactly once. -/
theorem WellFormed.perm_served (h : g.WellFormed) (hacyclic : ¬g.Cyclic) :
    g.served.Perm g.resources := by
  obtain ⟨left, hleft⟩ := (InProgress.initial g).run h (serves_served g)
  have hperm := hleft.perm
  rw [hleft.waiting_eq_nil hacyclic] at hperm
  simpa using hperm

/-- In an order of all resources the target of a reference stands before its source. -/
theorem Ordered.sublist {order : List Resource} (h : g.Ordered order) (hwf : g.WellFormed)
    (hperm : order.Perm g.resources) {e : Edge} (he : e ∈ g.edges) {target : Resource}
    (htarget : g.find? e.target = some target) : [target, e.source].Sublist order := by
  obtain ⟨before, after, rfl⟩ :=
    List.append_of_mem (hperm.symm.subset (hwf.source_mem e he))
  have hmem := pending_eq_zero_iff.1 (h before e.source after rfl) e.target ⟨e, he, rfl, rfl⟩
    (by rw [has, htarget]; rfl)
  obtain ⟨r, hr, href⟩ := List.mem_map.1 hmem
  have hfind := hwf.find?_ref (hperm.subset (List.mem_append_left _ hr))
  rw [href, htarget] at hfind
  obtain rfl := Option.some.inj hfind
  exact (List.singleton_sublist.2 hr).append (List.singleton_sublist.2 List.mem_cons_self)

/-- There is an order exactly when there is no cycle. -/
theorem WellFormed.creationOrder_of_acyclic (h : g.WellFormed) (hacyclic : ¬g.Cyclic) :
    g.creationOrder = .ok g.served := by
  unfold creationOrder
  rw [h.cycles_eq_nil_iff.2 hacyclic]
  exact if_pos (h.perm_served hacyclic).length_eq

theorem WellFormed.creationOrder_of_cyclic (h : g.WellFormed) (hcyclic : g.Cyclic) :
    ∃ cycle others, g.cycles = cycle :: others ∧ g.creationOrder = .error (cycleFault cycle) := by
  cases hcycles : g.cycles with
  | nil => exact absurd hcyclic (h.cycles_eq_nil_iff.1 hcycles)
  | cons cycle others =>
    refine ⟨cycle, others, rfl, ?_⟩
    unfold creationOrder
    rw [hcycles]

/-- **The order of creation after any history of operations.** Neither the searches nor the
service are cut off. If the references contain a cycle, the fault is that of the first cycle that
is reported. Otherwise the order holds every resource exactly once, and the target of every
reference that leads to a resource stands before its source. There is no other fault. -/
theorem creationOrder_of_history (history : List Operation) :
    let g := after history
    g.Sweeps (g.resources.map Resource.ref) [] g.cycles ∧
      g.Serves g.initialQueue g.initialWaiting g.served ∧
      (g.Cyclic → ∃ cycle others, g.cycles = cycle :: others ∧
        g.creationOrder = .error (cycleFault cycle)) ∧
      (¬g.Cyclic → ∃ order, g.creationOrder = .ok order ∧ order.Perm g.resources ∧
        (g.resources.map Resource.ref).Nodup ∧
        ∀ e ∈ g.edges, ∀ target, g.find? e.target = some target →
          [target, e.source].Sublist order) := by
  intro g
  have h : g.WellFormed := wellFormed_after history
  refine ⟨sweeps_cycles g, serves_served g, h.creationOrder_of_cyclic, fun hacyclic => ?_⟩
  have hperm := h.perm_served hacyclic
  exact ⟨g.served, h.creationOrder_of_acyclic hacyclic, hperm, h.refs_nodup,
    fun e he target htarget => h.ordered_served.sublist h hperm he htarget⟩

end Graph
end HclExport
