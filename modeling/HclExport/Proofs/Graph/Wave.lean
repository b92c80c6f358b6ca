import HclExport.Proofs.Graph.Order

/-!
# Waves of creation

The waves of a graph are counted by taking away, again and again, the resources that refer to
nothing that is left. Each round puts what it takes into one wave, and what is left behind refers
to what was taken; so the rounds give both a way to create the resources in that many waves and a
chain of as many references, which no smaller number of waves has room for.

## Main definitions

* `Graph.HasWaves` — resources can be created in a number of waves.
* `Graph.IsChainOf` — resources of a list, each of which refers to the next.

## Main results

* `Graph.HasWaves.length_le` — a chain is no longer than the waves are many.
* `Graph.hasWaves_of_wavesOf`, `Graph.exists_chain_of_wavesOf` — what the rounds give.
* `Graph.exists_waveCount_of_acyclic`, `Graph.WellFormed.waveCount_of_cyclic` — when there is a
  number of waves.
* `Graph.WellFormed.waveCount_eq_error_iff` — where there are no waves there is no order.
* `Graph.isLeast_of_waveCount` — the number of waves is the least possible.
-/

namespace HclExport
namespace Graph

open Relation (TransGen)

variable {g : Graph} {pending : List Resource} {n : Nat}

/-! ### Creating resources in waves -/

/-- Resources can be created in `n` waves, each in a later wave than those of them that it refers
to. -/
def HasWaves (g : Graph) (pending : List Resource) (n : Nat) : Prop :=
  ∃ wave : Ref → Nat, (∀ r ∈ pending, wave r.ref < n) ∧
    ∀ a ∈ pending, ∀ b ∈ pending, g.Refers a.ref b.ref → wave b.ref < wave a.ref

/-- Resources of a list, each of which refers to the next. -/
structure IsChainOf (g : Graph) (pending chain : List Resource) : Prop where
  subset : chain ⊆ pending
  refers : chain.IsChain fun a b => g.Refers a.ref b.ref

/-- The members of a chain are in different waves. -/
theorem HasWaves.length_le (h : g.HasWaves pending n) {chain : List Resource}
    (hchain : g.IsChainOf pending chain) : chain.length ≤ n := by
  obtain ⟨wave, hlt, hdown⟩ := h
  -- behind each member there are no more than there are waves before its own
  have hwave : ∀ r rest, g.IsChainOf pending (r :: rest) → rest.length ≤ wave r.ref := by
    intro r rest hchain
    induction rest generalizing r with
    | nil => exact Nat.zero_le _
    | cons next rest ih =>
      have hnext : g.IsChainOf pending (next :: rest) :=
        ⟨(List.cons_subset.1 hchain.subset).2, hchain.refers.of_cons⟩
      have hstep := hdown r (hchain.subset List.mem_cons_self) next
        (hnext.subset List.mem_cons_self) hchain.refers.rel
      have hrest := ih next hnext
      rw [List.length_cons]
      omega
  cases chain with
  | nil => exact Nat.zero_le _
  | cons r rest =>
    have hrest := hwave r rest hchain
    have hfirst := hlt r (hchain.subset List.mem_cons_self)
    rw [List.length_cons]
    omega

/-- What can be created in waves contains no cycle. -/
theorem HasWaves.not_cyclic (h : g.HasWaves g.resources n) (hwf : g.WellFormed) : ¬g.Cyclic := by
  obtain ⟨wave, -, hdown⟩ := h
  rintro ⟨ref, hcycle⟩
  have hregistered : ∀ {a b : Ref}, TransGen g.Refers a b → ∃ r ∈ g.resources, r.ref = a :=
    fun hab => List.mem_map.1 (hwf.mem_refs_of_transGen hab)
  -- along references that come back to the cycle the waves go down
  have hstep : ∀ {a : Ref}, TransGen g.Refers a ref → wave ref < wave a := by
    intro a hab
    obtain ⟨c, hc, hcref⟩ := hregistered hcycle
    induction hab using TransGen.head_induction_on with
    | single hrefers =>
      obtain ⟨r, hr, rfl⟩ := hregistered (TransGen.single hrefers)
      rw [← hcref] at hrefers ⊢
      exact hdown r hr c hc hrefers
    | head hrefers hrest ih =>
      obtain ⟨r, hr, rfl⟩ := hregistered (TransGen.single hrefers)
      obtain ⟨next, hnext, rfl⟩ := hregistered hrest
      exact ih.trans (hdown r hr next hnext hrefers)
  exact Nat.lt_irrefl _ (hstep hcycle)

/-! ### One round -/

theorem waitsFor_iff {r : Resource} :
    g.waitsFor pending r = true ↔ ∃ p ∈ pending, g.Refers r.ref p.ref := by
  simp only [waitsFor, List.any_eq_true, decide_eq_true_eq]
  constructor
  · rintro ⟨target, htarget, p, hp, rfl⟩
    exact ⟨p, hp, mem_targets.1 htarget⟩
  · rintro ⟨p, hp, hrefers⟩
    exact ⟨p.ref, mem_targets.2 hrefers, p, hp, rfl⟩

/-- What refers to nothing that is pending can be created in a wave of its own, before the
others. -/
theorem HasWaves.round (h : g.HasWaves (pending.filter (g.waitsFor pending)) n) :
    g.HasWaves pending (n + 1) := by
  obtain ⟨wave, hlt, hdown⟩ := h
  have hwaits : ∀ {a b : Resource}, a ∈ pending → b ∈ pending → g.Refers a.ref b.ref →
      a ∈ pending.filter (g.waitsFor pending) :=
    fun ha hb hrefers => List.mem_filter.2 ⟨ha, waitsFor_iff.2 ⟨_, hb, hrefers⟩⟩
  classical
  refine ⟨fun ref => if ref ∈ (pending.filter (g.waitsFor pending)).map Resource.ref
    then wave ref + 1 else 0, ?_, ?_⟩
  · intro r hr
    dsimp only
    split
    next hmem =>
      obtain ⟨other, hother, href⟩ := List.mem_map.1 hmem
      have hwave := hlt other hother
      rw [href] at hwave
      omega
    next => exact Nat.succ_pos n
  · intro a ha b hb hrefers
    have hleft := hwaits ha hb hrefers
    dsimp only
    rw [if_pos (List.mem_map_of_mem hleft)]
    split
    next hmem =>
      obtain ⟨other, hother, href⟩ := List.mem_map.1 hmem
      rw [← href] at hrefers ⊢
      have hwave := hdown a hleft other hother hrefers
      omega
    next => exact Nat.succ_pos _

/-- A chain of what is left can be made longer by what its last member waits for. -/
theorem IsChainOf.round {chain : List Resource}
    (h : g.IsChainOf (pending.filter (g.waitsFor pending)) chain) (hpending : pending ≠ []) :
    ∃ longer, g.IsChainOf pending longer ∧ longer.length = chain.length + 1 := by
  have hsubset : chain ⊆ pending := fun r hr => List.mem_of_mem_filter (h.subset hr)
  rcases List.eq_nil_or_concat chain with rfl | ⟨init, last, rfl⟩
  · obtain ⟨r, hr⟩ := List.exists_mem_of_ne_nil pending hpending
    exact ⟨[r], ⟨by simpa using hr, List.isChain_singleton r⟩, rfl⟩
  · have hlast : last ∈ pending.filter (g.waitsFor pending) := h.subset (by simp)
    obtain ⟨next, hnext, hrefers⟩ := waitsFor_iff.1 (List.mem_filter.1 hlast).2
    refine ⟨(init ++ [last]) ++ [next], ⟨?_, ?_⟩, by simp⟩
    · exact List.append_subset.2 ⟨by simpa using hsubset, by simpa using hnext⟩
    · refine List.IsChain.append (by simpa using h.refers) (List.isChain_singleton next) ?_
      simpa using hrefers

/-! ### All rounds -/

/-- What holds of nothing pending, and of what is pending when it holds of what a round leaves,
holds of all rounds. -/
theorem wavesOf_induction {motive : List Resource → Nat → Prop} (nil : motive [] 0)
    (round : ∀ pending n, pending ≠ [] → motive (pending.filter (g.waitsFor pending)) n →
      motive pending (n + 1))
    {steps : Nat} (h : g.wavesOf steps pending = some n) : motive pending n := by
  induction steps generalizing pending n with
  | zero =>
    cases pending with
    | nil =>
      obtain rfl : 0 = n := Option.some.inj h
      exact nil
    | cons r rest => cases h
  | succ steps ih =>
    cases pending with
    | nil =>
      obtain rfl : 0 = n := Option.some.inj h
      exact nil
    | cons r rest =>
      simp only [wavesOf] at h
      split at h
      · cases h
      · obtain ⟨left, hleft, rfl⟩ := Option.map_eq_some_iff.1 h
        exact round _ left (List.cons_ne_nil r rest) (ih hleft)

/-- The waves of the rounds. -/
theorem hasWaves_of_wavesOf {steps : Nat} (h : g.wavesOf steps pending = some n) :
    g.HasWaves pending n :=
  wavesOf_induction ⟨fun _ => 0, by simp, by simp⟩ (fun _ _ _ hleft => hleft.round) h

/-- The chain of the rounds. -/
theorem exists_chain_of_wavesOf {steps : Nat} (h : g.wavesOf steps pending = some n) :
    ∃ chain, g.IsChainOf pending chain ∧ chain.length = n := by
  refine wavesOf_induction
    (motive := fun pending n => ∃ chain, g.IsChainOf pending chain ∧ chain.length = n) ?_ ?_ h
  · exact ⟨[], ⟨List.Subset.refl _, List.isChain_nil⟩, rfl⟩
  · rintro pending n hpending ⟨chain, hchain, rfl⟩
    exact hchain.round hpending

/-- Without a cycle every round takes something away, so there are enough rounds. -/
theorem exists_wavesOf_of_acyclic (hacyclic : ¬g.Cyclic) {steps : Nat}
    (hsteps : pending.length ≤ steps) : ∃ n, g.wavesOf steps pending = some n := by
  induction steps generalizing pending with
  | zero =>
    obtain rfl := List.eq_nil_of_length_eq_zero (Nat.le_zero.1 hsteps)
    exact ⟨0, rfl⟩
  | succ steps ih =>
    cases hpending : pending with
    | nil => exact ⟨0, rfl⟩
    | cons r rest =>
      rw [← hpending]
      -- if all were left, each of them would refer to another of them
      have hfewer : (pending.filter (g.waitsFor pending)).length < pending.length := by
        refine Nat.lt_of_le_of_ne (List.length_filter_le _ _) fun hall => ?_
        have hnone : pending.map Resource.ref = [] := by
          refine eq_nil_of_forall_refers hacyclic ?_
          intro ref href
          obtain ⟨a, ha, rfl⟩ := List.mem_map.1 href
          obtain ⟨b, hb, hrefers⟩ :=
            waitsFor_iff.1 (List.length_filter_eq_length_iff.1 hall a ha)
          exact ⟨b.ref, List.mem_map_of_mem hb, hrefers⟩
        rw [hpending] at hnone
        cases hnone
      obtain ⟨n, hn⟩ := ih (Nat.le_of_lt_succ (hfewer.trans_le hsteps))
      refine ⟨n + 1, ?_⟩
      rw [hpending] at hfewer hn ⊢
      rw [wavesOf, if_neg hfewer.ne, hn]
      · rfl
      · simp

/-! ### The number of waves -/

/-- Without a cycle there is a number of waves. -/
theorem exists_waveCount_of_acyclic (hacyclic : ¬g.Cyclic) : ∃ n, g.waveCount = .ok n := by
  obtain ⟨n, hn⟩ := exists_wavesOf_of_acyclic hacyclic (Nat.le_refl g.resources.length)
  exact ⟨n, by rw [waveCount, hn]⟩

theorem wavesOf_of_waveCount (h : g.waveCount = .ok n) :
    g.wavesOf g.resources.length g.resources = some n := by
  unfold waveCount at h
  split at h
  next m hm => rw [hm, Except.ok.inj h]
  next => cases h

/-- With a cycle there is no number of waves, and the fault is that of the order: it names the first
cycle, which is not empty. -/
theorem WellFormed.waveCount_of_cyclic (h : g.WellFormed) (hcyclic : g.Cyclic) :
    ∃ cycle others, g.cycles = cycle :: others ∧ cycle ≠ [] ∧
      g.waveCount = .error (cycleFault cycle) ∧ g.creationOrder = .error (cycleFault cycle) := by
  obtain ⟨cycle, others, hcycles, horder⟩ := h.creationOrder_of_cyclic hcyclic
  refine ⟨cycle, others, hcycles, ?_, ?_, horder⟩
  · have hmem : cycle ∈ g.cycles := by
      rw [hcycles]
      exact List.mem_cons_self
    obtain ⟨first, rest, rfl⟩ := (((sweeps_cycles g).isCycle h).1 cycle hmem).1.closed
    exact List.cons_ne_nil _ _
  · unfold waveCount
    split
    next n hn => exact absurd hcyclic ((hasWaves_of_wavesOf hn).not_cyclic h)
    next => rw [hcycles, List.head?_cons, Option.getD_some]

theorem cyclic_of_waveCount {fault : Fault} (h : g.waveCount = .error fault) : g.Cyclic := by
  by_contra hacyclic
  obtain ⟨n, hn⟩ := exists_waveCount_of_acyclic hacyclic
  rw [hn] at h
  cases h

/-- There is no number of waves exactly if there is no order, for the same fault. -/
theorem WellFormed.waveCount_eq_error_iff (h : g.WellFormed) {fault : Fault} :
    g.waveCount = .error fault ↔ g.creationOrder = .error fault := by
  by_cases hcyclic : g.Cyclic
  · obtain ⟨cycle, others, -, -, hwaves, horder⟩ := h.waveCount_of_cyclic hcyclic
    rw [hwaves, horder]
    simp
  · obtain ⟨n, hn⟩ := exists_waveCount_of_acyclic hcyclic
    rw [hn, h.creationOrder_of_acyclic hcyclic]
    simp

/-- **The number of waves is the least possible**: there is a way to create the resources in that
many, and a chain of references that does not fit into fewer. -/
theorem isLeast_of_waveCount (h : g.waveCount = .ok n) :
    IsLeast {m | g.HasWaves g.resources m} n := by
  have hrounds := wavesOf_of_waveCount h
  refine ⟨hasWaves_of_wavesOf hrounds, ?_⟩
  intro m hm
  obtain ⟨chain, hchain, rfl⟩ := exists_chain_of_wavesOf hrounds
  exact hm.length_le hchain

end Graph
end HclExport
