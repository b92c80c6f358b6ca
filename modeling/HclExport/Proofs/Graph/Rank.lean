import HclExport.Proofs.Graph.Wave
import HclExport.Resource.Schema
import Mathlib.Data.Finset.Card

/-!
# References and the order of kinds

By the declared paths every kind refers to kinds before it, except that flows refer to flows. So on
a graph whose references stand at declared paths, whoever follows references never comes to a later
kind, and goes round in circles only among flows; and without circles the flows need as many waves
as there are of them at most, with one wave before and one behind.

## Main definitions

* `Graph.FollowsSchemas` — every reference stands at a declared path.
* `Graph.flowsBelow` — the flows that an identity leads on to.

## Main results

* `Kind.rank_target_lt` — where the kinds refer to.
* `Graph.FollowsSchemas.kind_of_cycle`, `Graph.FollowsSchemas.isChain_of_isCycle` — cycles are
  made of flows and their sub-flows.
* `Graph.FollowsSchemas.hasWaves` — how many waves are enough.
-/

namespace HclExport

/-- The kinds that a kind refers to come before it; only flows refer to their own kind, and only by
one field. -/
theorem Kind.rank_target_lt {kind : Kind} {path : ReferencePath} (h : path ∈ kind.schema) :
    path.target.rank < kind.rank ∨
      kind = .flow ∧ path.target = .flow ∧ path.field = "subflow_id" := by
  revert h path
  cases kind <;> simp [schema, rank, all]

/-- Only flows and policies refer to anything. -/
theorem Kind.eq_of_mem_schema {kind : Kind} {path : ReferencePath} (h : path ∈ kind.schema) :
    kind = .flow ∨ kind = .flowPolicy := by
  cases kind with
  | flow => exact Or.inl rfl
  | flowPolicy => exact Or.inr rfl
  | _ => cases h

namespace Graph

open Relation (TransGen)

variable {g : Graph}

/-- Every reference stands at a path that is declared for the kind of its source. -/
def FollowsSchemas (g : Graph) : Prop :=
  ∀ e ∈ g.edges, ∃ path ∈ e.source.ref.kind.schema,
    path.target = e.target.kind ∧ path.field = e.field

namespace FollowsSchemas

/-! ### Going down in rank -/

/-- A reference leads to a kind before that of its source, or from a flow to a sub-flow. -/
theorem rank_lt_or_subflow (h : g.FollowsSchemas) {e : Edge} (he : e ∈ g.edges) :
    e.target.kind.rank < e.source.ref.kind.rank ∨
      e.source.ref.kind = .flow ∧ e.target.kind = .flow ∧ e.field = "subflow_id" := by
  obtain ⟨path, hpath, htarget, hfield⟩ := h e he
  rw [← htarget, ← hfield]
  exact Kind.rank_target_lt hpath

/-- Following references never leads to a later kind. -/
theorem rank_le_of_transGen (h : g.FollowsSchemas) {a b : Ref} (hab : TransGen g.Refers a b) :
    b.kind.rank ≤ a.kind.rank := by
  have hstep : ∀ {a b : Ref}, g.Refers a b → b.kind.rank ≤ a.kind.rank := by
    rintro a b ⟨e, he, rfl, rfl⟩
    rcases h.rank_lt_or_subflow he with hlt | ⟨hsource, htarget, -⟩
    · exact hlt.le
    · rw [hsource, htarget]
  induction hab with
  | single hrefers => exact hstep hrefers
  | tail _ hrefers ih => exact (hstep hrefers).trans ih

/-- What lies on a cycle is a flow: its first step leads back, so it does not go down in rank. -/
theorem kind_of_cycle (h : g.FollowsSchemas) {ref : Ref} (hcycle : TransGen g.Refers ref ref) :
    ref.kind = .flow := by
  obtain ⟨next, ⟨e, he, rfl, rfl⟩, hback⟩ := Relation.TransGen.head'_iff.1 hcycle
  rcases h.rank_lt_or_subflow he with hlt | ⟨hsource, -, -⟩
  · have hle : e.source.ref.kind.rank ≤ e.target.kind.rank := by
      rcases Relation.reflTransGen_iff_eq_or_transGen.1 hback with heq | hback
      · rw [heq]
      · exact h.rank_le_of_transGen hback
    exact absurd hlt (Nat.not_lt.2 hle)
  · exact hsource

/-- References between flows stand in one field. -/
theorem field_of_flow (h : g.FollowsSchemas) {e : Edge} (he : e ∈ g.edges)
    (hsource : e.source.ref.kind = .flow) (htarget : e.target.kind = .flow) :
    e.field = "subflow_id" := by
  rcases h.rank_lt_or_subflow he with hlt | ⟨-, -, hfield⟩
  · rw [hsource, htarget] at hlt
    exact absurd hlt (Nat.lt_irrefl _)
  · exact hfield

/-- Every step of a cycle is a reference to a sub-flow, and there is no other between the two. -/
theorem isChain_of_isCycle (h : g.FollowsSchemas) {cycle : List Ref} (hcycle : g.IsCycle cycle) :
    cycle.IsChain fun a b => g.Refers a b ∧
      ∀ e ∈ g.edges, e.source.ref = a → e.target = b → e.field = "subflow_id" := by
  refine hcycle.refers.imp_of_mem_imp ?_
  intro a b ha hb hrefers
  refine ⟨hrefers, ?_⟩
  rintro e he rfl rfl
  exact h.field_of_flow he (h.kind_of_cycle (hcycle.transGen_of_mem ha))
    (h.kind_of_cycle (hcycle.transGen_of_mem hb))

end FollowsSchemas

/-! ### Flows below flows -/

open Classical in
/-- The registered flows that an identity leads on to. -/
noncomputable def flowsBelow (g : Graph) (ref : Ref) : Finset Ref :=
  ((g.ofKind .flow).map Resource.ref).toFinset.filter (TransGen g.Refers ref)

theorem mem_flowsBelow {a b : Ref} :
    b ∈ g.flowsBelow a ↔ b ∈ (g.ofKind .flow).map Resource.ref ∧ TransGen g.Refers a b := by
  simp [flowsBelow]

theorem mem_ofKind {r : Resource} {kind : Kind} :
    r ∈ g.ofKind kind ↔ r ∈ g.resources ∧ r.ref.kind = kind := by
  simp [ofKind]

/-- A flow leads on to fewer flows than there are, since it does not lead on to itself. -/
theorem card_flowsBelow_lt_countOf (hacyclic : ¬g.Cyclic) {r : Resource}
    (hr : r ∈ g.ofKind .flow) : (g.flowsBelow r.ref).card < g.countOf .flow := by
  have hcount : ((g.ofKind .flow).map Resource.ref).toFinset.card ≤ g.countOf .flow := by
    have hle := ((g.ofKind .flow).map Resource.ref).toFinset_card_le
    rwa [List.length_map] at hle
  refine Nat.lt_of_lt_of_le (Finset.card_lt_card ?_) hcount
  have hsubset : g.flowsBelow r.ref ⊆ ((g.ofKind .flow).map Resource.ref).toFinset :=
    fun ref href => List.mem_toFinset.2 (mem_flowsBelow.1 href).1
  refine (Finset.ssubset_iff_of_subset hsubset).2 ⟨r.ref, ?_, ?_⟩
  · exact List.mem_toFinset.2 (List.mem_map_of_mem hr)
  · exact fun hmem => hacyclic ⟨r.ref, (mem_flowsBelow.1 hmem).2⟩

/-- A flow leads on to more flows than the flows that it refers to, since it leads on to these. -/
theorem card_flowsBelow_lt_of_refers (hacyclic : ¬g.Cyclic) {a : Ref} {r : Resource}
    (hr : r ∈ g.ofKind .flow) (hrefers : g.Refers a r.ref) :
    (g.flowsBelow r.ref).card < (g.flowsBelow a).card := by
  have hsubset : g.flowsBelow r.ref ⊆ g.flowsBelow a := by
    intro ref href
    obtain ⟨hflow, hbelow⟩ := mem_flowsBelow.1 href
    exact mem_flowsBelow.2 ⟨hflow, hbelow.head hrefers⟩
  refine Finset.card_lt_card ((Finset.ssubset_iff_of_subset hsubset).2 ⟨r.ref, ?_, ?_⟩)
  · exact mem_flowsBelow.2 ⟨List.mem_map_of_mem hr, TransGen.single hrefers⟩
  · exact fun hmem => hacyclic ⟨r.ref, (mem_flowsBelow.1 hmem).2⟩

/-! ### Waves by kind -/

/-- A wave for every identity: flows by the number of flows below them, policies behind all flows,
and all that refers to nothing at first. -/
noncomputable def waveByKind (g : Graph) (ref : Ref) : Nat :=
  match ref.kind with
  | .flow => (g.flowsBelow ref).card + 1
  | .flowPolicy => g.countOf .flow + 1
  | _ => 0

theorem waveByKind_of_flow {ref : Ref} (h : ref.kind = .flow) :
    g.waveByKind ref = (g.flowsBelow ref).card + 1 := by
  rw [waveByKind, h]

theorem waveByKind_of_flowPolicy {ref : Ref} (h : ref.kind = .flowPolicy) :
    g.waveByKind ref = g.countOf .flow + 1 := by
  rw [waveByKind, h]

theorem waveByKind_of_rank_lt {ref : Ref} (h : ref.kind.rank < Kind.flow.rank) :
    g.waveByKind ref = 0 := by
  unfold waveByKind
  cases hkind : ref.kind with
  | flow | flowPolicy =>
    rw [hkind] at h
    exact absurd h (by decide)
  | _ => rfl

/-- Only policies come behind all flows. -/
theorem waveByKind_le (hacyclic : ¬g.Cyclic) {r : Resource} (hr : r ∈ g.resources)
    (hkind : r.ref.kind ≠ .flowPolicy) : g.waveByKind r.ref ≤ g.countOf .flow := by
  unfold waveByKind
  split
  next hflow => exact card_flowsBelow_lt_countOf hacyclic (mem_ofKind.2 ⟨hr, hflow⟩)
  next hpolicy => exact absurd hpolicy hkind
  next => exact Nat.zero_le _

/-- Without a cycle two waves more than there are flows are enough. -/
theorem FollowsSchemas.hasWaves (h : g.FollowsSchemas) (hacyclic : ¬g.Cyclic) :
    g.HasWaves g.resources (g.countOf .flow + 2) := by
  refine ⟨g.waveByKind, ?_, ?_⟩
  · intro r hr
    by_cases hpolicy : r.ref.kind = .flowPolicy
    · rw [waveByKind_of_flowPolicy hpolicy]
      exact Nat.lt_succ_self _
    · have hle := waveByKind_le hacyclic hr hpolicy
      omega
  · rintro a - b hb ⟨e, he, hsource, htarget⟩
    obtain ⟨path, hpath, -, -⟩ := h e he
    have hrank := h.rank_lt_or_subflow he
    rw [hsource] at hpath hrank
    rw [htarget] at hrank
    rcases Kind.eq_of_mem_schema hpath with hflow | hpolicy
    · rw [waveByKind_of_flow hflow]
      rcases hrank with hlt | ⟨-, hflow', -⟩
      · rw [hflow] at hlt
        rw [waveByKind_of_rank_lt hlt]
        exact Nat.succ_pos _
      · rw [waveByKind_of_flow hflow']
        exact Nat.succ_lt_succ (card_flowsBelow_lt_of_refers hacyclic (mem_ofKind.2 ⟨hb, hflow'⟩)
          ⟨e, he, hsource, htarget⟩)
    · rw [waveByKind_of_flowPolicy hpolicy]
      refine Nat.lt_succ_of_le (waveByKind_le hacyclic hb fun hpolicy' => ?_)
      -- nothing refers to a policy, which is the last kind
      rcases hrank with hlt | ⟨-, hflow, -⟩
      · rw [hpolicy, hpolicy'] at hlt
        exact Nat.lt_irrefl _ hlt
      · rw [hpolicy'] at hflow
        cases hflow

end Graph

end HclExport
