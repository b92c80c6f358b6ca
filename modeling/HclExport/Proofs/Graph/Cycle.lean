import HclExport.Graph.Cycle
import HclExport.Proofs.Graph.History
import Mathlib.Data.List.Chain
import Mathlib.Logic.Relation

/-!
# The cycles that are reported

The depth-first search as a relation without a bound on its steps, which the bounded search
meets; and what the search reports. A search leaves behind what it finished, from which no
cycle can be reached, and the path of the cycle that ended it, which no later search enters.

## Main definitions

* `Graph.Refers`, `Graph.Cyclic` — one identity refers to another; the references contain a
  cycle.
* `Graph.Explores`, `Graph.Sweeps` — the search below a path, and the searches from all
  identities in turn, without a bound.
* `Graph.IsCycle` — a simple cycle of references.
* `Graph.Settled` — no cycle can be reached from what was visited and left.

## Main results

* `Graph.explores_search`, `Graph.sweeps_cycles` — the bound is never met.
* `Graph.Explores.exists_path` — the path of a cycle that ends a search.
* `Graph.Explores.settled` — what a search without a cycle leaves behind.
* `Graph.cycles_of_history` — **what is reported on the graph after any history.**
-/

namespace HclExport
namespace Graph

open Relation (TransGen)

/-! ### References as a relation -/

/-- One identity refers to another. -/
def Refers (g : Graph) (a b : Ref) : Prop :=
  ∃ e ∈ g.edges, e.source.ref = a ∧ e.target = b

/-- The references contain a cycle. -/
def Cyclic (g : Graph) : Prop :=
  ∃ ref, TransGen g.Refers ref ref

theorem mem_targets {g : Graph} {a b : Ref} : b ∈ g.targets a ↔ g.Refers a b := by
  simp [targets, Refers, and_assoc]

/-- What refers to something is registered. -/
theorem WellFormed.mem_refs_of_refers {g : Graph} (h : g.WellFormed) {a b : Ref}
    (hab : g.Refers a b) : a ∈ g.resources.map Resource.ref := by
  obtain ⟨e, he, rfl, -⟩ := hab
  exact List.mem_map_of_mem (h.source_mem e he)

theorem WellFormed.mem_refs_of_transGen {g : Graph} (h : g.WellFormed) {a b : Ref}
    (hab : TransGen g.Refers a b) : a ∈ g.resources.map Resource.ref := by
  obtain ⟨c, hac, -⟩ := Relation.TransGen.head'_iff.1 hab
  exact h.mem_refs_of_refers hac

/-! ### The search without a bound -/

/-- Going through the targets of the last identity of a path: what was visited in the end,
and the cycle that ended the search. -/
inductive Explores (g : Graph) : List Ref → List Ref → List Ref → Search → Prop
  /-- Every target was gone through. -/
  | done {path visited : List Ref} : Explores g path [] visited ⟨visited, none⟩
  /-- A target on the path closes a cycle. -/
  | closes {path rest visited : List Ref} {target : Ref} (hpath : target ∈ path) :
    Explores g path (target :: rest) visited ⟨visited, some (closedCycle path target)⟩
  /-- A target that was visited is passed over. -/
  | passes {path rest visited : List Ref} {target : Ref} {found : Search}
      (hpath : target ∉ path) (hvisited : target ∈ visited)
      (hrest : Explores g path rest visited found) :
    Explores g path (target :: rest) visited found
  /-- A target is entered, and a cycle is found below it. -/
  | finds {path rest visited seen cycle : List Ref} {target : Ref}
      (hpath : target ∉ path) (hnew : target ∉ visited)
      (hinner : Explores g (path ++ [target]) (g.targets target) (target :: visited)
        ⟨seen, some cycle⟩) :
    Explores g path (target :: rest) visited ⟨seen, some cycle⟩
  /-- A target is entered and left without a cycle. -/
  | leaves {path rest visited seen : List Ref} {target : Ref} {found : Search}
      (hpath : target ∉ path) (hnew : target ∉ visited)
      (hinner : Explores g (path ++ [target]) (g.targets target) (target :: visited)
        ⟨seen, none⟩)
      (hrest : Explores g path rest seen found) :
    Explores g path (target :: rest) visited found

/-- Searches from identities in turn, each unless it was visited before: the cycles that they
report. -/
inductive Sweeps (g : Graph) : List Ref → List Ref → List (List Ref) → Prop
  /-- Every identity was gone through. -/
  | done {visited : List Ref} : Sweeps g [] visited []
  /-- An identity that was visited is passed over. -/
  | passes {ref : Ref} {rest visited : List Ref} {cycles : List (List Ref)}
      (hvisited : ref ∈ visited) (hrest : Sweeps g rest visited cycles) :
    Sweeps g (ref :: rest) visited cycles
  /-- A search ends without a cycle. -/
  | leaves {ref : Ref} {rest visited seen : List Ref} {cycles : List (List Ref)}
      (hnew : ref ∉ visited)
      (hsearch : g.Explores [ref] (g.targets ref) (ref :: visited) ⟨seen, none⟩)
      (hrest : Sweeps g rest seen cycles) :
    Sweeps g (ref :: rest) visited cycles
  /-- A search ends with a cycle. -/
  | reports {ref : Ref} {rest visited seen cycle : List Ref} {cycles : List (List Ref)}
      (hnew : ref ∉ visited)
      (hsearch : g.Explores [ref] (g.targets ref) (ref :: visited) ⟨seen, some cycle⟩)
      (hrest : Sweeps g rest seen cycles) :
    Sweeps g (ref :: rest) visited (cycle :: cycles)

/-- The identities that a search can come to. -/
def nodes (g : Graph) : List Ref :=
  g.resources.map Resource.ref ++ g.edges.map Edge.target

theorem mem_nodes_of_mem_targets {g : Graph} {ref target : Ref} (h : target ∈ g.targets ref) :
    target ∈ g.nodes := by
  obtain ⟨e, he, -, rfl⟩ := mem_targets.1 h
  exact List.mem_append_right _ (List.mem_map_of_mem he)

/-- Going through targets follows the relation if entering them does. -/
theorem explores_scanTargets {g : Graph} {enter : Ref → List Ref → Search}
    {path targets : List Ref}
    (henter : ∀ target ∈ targets, target ∉ path → ∀ visited,
      g.Explores (path ++ [target]) (g.targets target) (target :: visited) (enter target visited))
    (visited : List Ref) :
    g.Explores path targets visited (scanTargets enter path targets visited) := by
  induction targets generalizing visited with
  | nil => exact .done
  | cons target rest ih =>
    have ih := ih fun other hother => henter other (List.mem_cons_of_mem _ hother)
    unfold scanTargets
    by_cases hpath : target ∈ path
    · rw [if_pos (by simpa using hpath)]
      exact .closes hpath
    rw [if_neg (by simpa using hpath)]
    by_cases hvisited : target ∈ visited
    · rw [if_pos (by simpa using hvisited)]
      exact .passes hpath hvisited (ih visited)
    rw [if_neg (by simpa using hvisited)]
    have hinner := henter target List.mem_cons_self hpath visited
    cases hsearch : enter target visited with
    | mk seen cycle =>
      rw [hsearch] at hinner
      cases cycle with
      | none => exact .leaves hpath hvisited hinner (ih seen)
      | some cycle => exact .finds hpath hvisited hinner

/-- A path holds no identity twice, so a search that may take as many steps as there are
identities left takes no more. -/
theorem explores_search {g : Graph} {steps : Nat} {path : List Ref} {ref : Ref}
    (hnodup : (path ++ [ref]).Nodup) (hnodes : path ++ [ref] ⊆ g.nodes)
    (hsteps : g.nodes.length ≤ steps + path.length) (visited : List Ref) :
    g.Explores (path ++ [ref]) (g.targets ref) (ref :: visited)
      (g.search steps path ref visited) := by
  have hlength : path.length + 1 ≤ g.nodes.length := by
    simpa using (List.subperm_of_subset hnodup hnodes).length_le
  induction steps generalizing path ref visited with
  | zero => omega
  | succ steps ih =>
    rw [search]
    refine explores_scanTargets ?_ _
    intro target htarget hpath visited
    have hnodup' : (path ++ [ref] ++ [target]).Nodup := by
      simpa using List.Nodup.concat hpath hnodup
    have hnodes' : path ++ [ref] ++ [target] ⊆ g.nodes := by
      exact List.append_subset.2 ⟨hnodes,
        List.cons_subset.2 ⟨mem_nodes_of_mem_targets htarget, List.nil_subset _⟩⟩
    have hlength' := (List.subperm_of_subset hnodup' hnodes').length_le
    simp only [List.length_append, List.length_singleton] at hlength'
    exact ih hnodup' hnodes' (by simp only [List.length_append, List.length_singleton]; omega)
      visited (by simpa using hlength')

/-- The search from a registered identity follows the relation. -/
theorem explores_search_root {g : Graph} {ref : Ref} (h : ref ∈ g.resources.map Resource.ref)
    (visited : List Ref) :
    g.Explores [ref] (g.targets ref) (ref :: visited) (g.search g.pathBound [] ref visited) := by
  have hnodup : ([] ++ [ref]).Nodup := List.nodup_singleton ref
  refine explores_search hnodup ?_ ?_ visited
  · exact List.cons_subset.2 ⟨List.mem_append_left _ h, List.nil_subset _⟩
  · simp only [nodes, pathBound, List.length_append, List.length_map, List.length_nil]
    omega

theorem sweeps_cyclesFrom {g : Graph} {refs : List Ref}
    (h : refs ⊆ g.resources.map Resource.ref) (visited : List Ref) :
    g.Sweeps refs visited (g.cyclesFrom refs visited) := by
  induction refs generalizing visited with
  | nil => exact .done
  | cons ref rest ih =>
    obtain ⟨href, hrest⟩ := List.cons_subset.1 h
    unfold cyclesFrom
    by_cases hvisited : ref ∈ visited
    · rw [if_pos (by simpa using hvisited)]
      exact .passes hvisited (ih hrest visited)
    rw [if_neg (by simpa using hvisited)]
    have hsearch := explores_search_root href visited
    cases hfound : g.search g.pathBound [] ref visited with
    | mk seen cycle =>
      rw [hfound] at hsearch
      cases cycle with
      | none => exact .leaves hvisited hsearch (ih hrest seen)
      | some cycle => exact .reports hvisited hsearch (ih hrest seen)

/-- The cycles are those that the searches report without a bound on their steps. -/
theorem sweeps_cycles (g : Graph) : g.Sweeps (g.resources.map Resource.ref) [] g.cycles :=
  sweeps_cyclesFrom (List.Subset.refl _) []

/-! ### What is reported is a cycle -/

/-- A simple cycle of references: it ends where it starts, holds nothing else twice, and every
member is registered and refers to the next. -/
structure IsCycle (g : Graph) (cycle : List Ref) : Prop where
  closed : ∃ first rest, cycle = first :: rest ++ [first]
  nodup : cycle.dropLast.Nodup
  refers : cycle.IsChain g.Refers
  registered : ∀ ref ∈ cycle, g.has ref = true

/-- A search forgets nothing that was visited. -/
theorem Explores.visited_subset {g : Graph} {path targets visited : List Ref} {found : Search}
    (h : g.Explores path targets visited found) : visited ⊆ found.visited := by
  induction h with
  | done => exact List.Subset.refl _
  | closes => exact List.Subset.refl _
  | passes _ _ _ ih => exact ih
  | finds _ _ _ ih => exact List.Subset.trans (List.subset_cons_self _ _) ih
  | leaves _ _ _ _ ihInner ihRest =>
    exact List.Subset.trans (List.Subset.trans (List.subset_cons_self _ _) ihInner) ihRest

/-- A path with further identities, which were new to a search and are visited after it. -/
structure Lengthens (g : Graph) (path visited : List Ref) (found : Search) (more : List Ref) :
    Prop where
  nodup : (path ++ more).Nodup
  refers : (path ++ more).IsChain g.Refers
  new : ∀ ref ∈ more, ref ∉ visited
  seen : more ⊆ found.visited

/-- What lengthens a path behind a target that was entered, with the target in front. -/
theorem Lengthens.enter {g : Graph} {path visited more : List Ref} {target : Ref} {found : Search}
    (h : g.Lengthens (path ++ [target]) (target :: visited) found more) (hnew : target ∉ visited)
    (hseen : target ∈ found.visited) : g.Lengthens path visited found (target :: more) where
  nodup := by simpa using h.nodup
  refers := by simpa using h.refers
  new := List.forall_mem_cons.2
    ⟨hnew, fun ref href hvisited => h.new ref href (List.mem_cons_of_mem _ hvisited)⟩
  seen := List.cons_subset.2 ⟨hseen, h.seen⟩

/-- The path of a cycle that ends a search: the path so far with new identities, the last of
which refers back. -/
theorem Explores.exists_path {g : Graph} {path targets visited : List Ref} {found : Search}
    (h : g.Explores path targets visited found) {cycle : List Ref}
    (hcycle : found.cycle = some cycle)
    (hnodup : path.Nodup) (hrefers : path.IsChain g.Refers)
    (htargets : ∀ last ∈ path.getLast?, ∀ target ∈ targets, g.Refers last target) :
    ∃ more target, g.Lengthens path visited found more ∧ target ∈ path ++ more ∧
      (∀ last ∈ (path ++ more).getLast?, g.Refers last target) ∧
      cycle = closedCycle (path ++ more) target := by
  induction h with
  | done => cases hcycle
  | @closes path rest visited target hpath =>
    refine ⟨[], target, ⟨?_, ?_, by simp, by simp⟩, ?_, ?_, ?_⟩
    · simpa using hnodup
    · simpa using hrefers
    · simpa using hpath
    · rw [List.append_nil]
      exact fun last hlast => htargets last hlast target List.mem_cons_self
    · rw [List.append_nil]
      exact (Option.some.inj hcycle).symm
  | passes hpath hvisited hrest ih =>
    exact ih hcycle hnodup hrefers fun last hlast target htarget =>
      htargets last hlast target (List.mem_cons_of_mem _ htarget)
  | @finds path rest visited seen cycle target hpath hnew hinner ih =>
    have hnodup' : (path ++ [target]).Nodup := by
      simpa using List.Nodup.concat hpath hnodup
    have hrefers' : (path ++ [target]).IsChain g.Refers := by
      refine hrefers.append (List.isChain_singleton target) ?_
      intro last hlast other hother
      obtain rfl : target = other := by simpa using hother
      exact htargets last hlast target List.mem_cons_self
    obtain ⟨more, back, hmore, hback, hlast, hclosed⟩ := ih hcycle hnodup' hrefers' (by
      intro last hlast other hother
      obtain rfl : target = last := by simpa using hlast
      exact mem_targets.1 hother)
    -- the target that was entered is the first of the new identities
    rw [List.append_assoc, List.singleton_append] at hback hlast hclosed
    exact ⟨target :: more, back, hmore.enter hnew (hinner.visited_subset List.mem_cons_self),
      hback, hlast, hclosed⟩
  | leaves hpath hnew hinner hrest ihInner ihRest =>
    obtain ⟨more, back, hmore, hback⟩ := ihRest hcycle hnodup hrefers
      fun last hlast target htarget => htargets last hlast target (List.mem_cons_of_mem _ htarget)
    refine ⟨more, back, ⟨hmore.nodup, hmore.refers, ?_, hmore.seen⟩, hback⟩
    intro ref href hvisited
    exact hmore.new ref href (hinner.visited_subset (List.mem_cons_of_mem _ hvisited))

/-- A path that refers back to one of its members closes a cycle from there on. -/
theorem WellFormed.isCycle_closedCycle {g : Graph} (h : g.WellFormed) {path : List Ref}
    {target : Ref} (hnodup : path.Nodup) (hrefers : path.IsChain g.Refers) (hmem : target ∈ path)
    (hback : ∀ last ∈ path.getLast?, g.Refers last target) :
    g.IsCycle (closedCycle path target) := by
  obtain ⟨before, after, rfl⟩ := List.append_of_mem hmem
  have hbefore : target ∉ before := by
    intro hin
    exact (List.disjoint_of_nodup_append hnodup) hin List.mem_cons_self
  have hdrop : closedCycle (before ++ target :: after) target = target :: after ++ [target] := by
    unfold closedCycle
    rw [List.dropWhile_append_of_pos, List.dropWhile_cons_of_neg (by simp)]
    intro ref href
    have hne : ref ≠ target := by
      rintro rfl
      exact hbefore href
    simpa using hne
  rw [hdrop]
  have hchain : (target :: after ++ [target]).IsChain g.Refers := by
    refine hrefers.right_of_append.append (List.isChain_singleton target) ?_
    intro last hlast other hother
    obtain rfl : target = other := by simpa using hother
    exact hback last (by rw [List.getLast?_append_of_ne_nil _ (by simp)]; exact hlast)
  refine ⟨⟨target, after, rfl⟩, ?_, hchain, ?_⟩
  · rw [List.dropLast_concat]
    exact hnodup.of_append_right
  · -- every member but the last refers to the next, and the last is the first
    have hregistered : ∀ ref ∈ target :: after, g.has ref = true := by
      intro ref href
      obtain ⟨i, hi, rfl⟩ := List.mem_iff_getElem.1 href
      have hstep := hchain.getElem i (by simpa using hi)
      rw [List.getElem_append_left hi] at hstep
      exact has_iff_mem_refs.2 (h.mem_refs_of_refers hstep)
    intro ref href
    rcases List.mem_append.1 href with href | href
    · exact hregistered ref href
    · exact hregistered ref (by rw [List.mem_singleton.1 href]; exact List.mem_cons_self)

/-- A search from an identity reports a cycle through what was new to it. -/
theorem WellFormed.isCycle_of_explores {g : Graph} (h : g.WellFormed) {ref : Ref}
    {visited seen cycle : List Ref} (hnew : ref ∉ visited)
    (hsearch : g.Explores [ref] (g.targets ref) (ref :: visited) ⟨seen, some cycle⟩) :
    g.IsCycle cycle ∧ ∀ member ∈ cycle, member ∉ visited ∧ member ∈ seen := by
  obtain ⟨more, back, hmore, hback, hlast, rfl⟩ := hsearch.exists_path rfl
    (List.nodup_singleton ref) (List.isChain_singleton ref) (by
      intro last hlast target htarget
      obtain rfl : ref = last := by simpa using hlast
      exact mem_targets.1 htarget)
  refine ⟨h.isCycle_closedCycle hmore.nodup hmore.refers hback hlast, ?_⟩
  intro member hmember
  -- all of the path is new: its first identity, and those that lengthen it
  have hpath : member ∈ [ref] ++ more := by
    rcases List.mem_append.1 hmember with hmember | hmember
    · exact (List.dropWhile_suffix _).subset hmember
    · rw [List.mem_singleton.1 hmember]
      exact hback
  rcases List.mem_append.1 hpath with hpath | hpath
  · rw [List.mem_singleton.1 hpath]
    exact ⟨hnew, hsearch.visited_subset List.mem_cons_self⟩
  · exact ⟨fun hvisited => hmore.new member hpath (List.mem_cons_of_mem _ hvisited),
      hmore.seen hpath⟩

/-- The searches report simple cycles through what was new to them, and no two cycles have a
member in common. -/
theorem Sweeps.isCycle {g : Graph} (h : g.WellFormed) {refs visited : List Ref}
    {cycles : List (List Ref)} (hsweep : g.Sweeps refs visited cycles) :
    (∀ cycle ∈ cycles, g.IsCycle cycle ∧ ∀ member ∈ cycle, member ∉ visited) ∧
      cycles.Pairwise List.Disjoint := by
  induction hsweep with
  | done => simp
  | passes _ _ ih => exact ih
  | leaves hnew hsearch _ ih =>
    refine ⟨fun cycle hcycle => ?_, ih.2⟩
    obtain ⟨hisCycle, hmembers⟩ := ih.1 cycle hcycle
    exact ⟨hisCycle, fun member hmember hvisited =>
      hmembers member hmember (hsearch.visited_subset (List.mem_cons_of_mem _ hvisited))⟩
  | reports hnew hsearch _ ih =>
    obtain ⟨hfirst, hmembers⟩ := h.isCycle_of_explores hnew hsearch
    constructor
    · intro other hother
      rcases List.mem_cons.1 hother with rfl | hother
      · exact ⟨hfirst, fun member hmember => (hmembers member hmember).1⟩
      · obtain ⟨hisCycle, hothers⟩ := ih.1 other hother
        exact ⟨hisCycle, fun member hmember hvisited =>
          hothers member hmember (hsearch.visited_subset (List.mem_cons_of_mem _ hvisited))⟩
    · -- what the first cycle holds stays visited, and later cycles hold only what is new
      refine List.pairwise_cons.2 ⟨?_, ih.2⟩
      intro other hother member hmember hmember'
      exact (ih.1 other hother).2 member hmember' (hmembers member hmember).2

/-- Every member of a cycle reaches itself. -/
theorem IsCycle.transGen_of_mem {g : Graph} {cycle : List Ref} (h : g.IsCycle cycle) {ref : Ref}
    (href : ref ∈ cycle) : TransGen g.Refers ref ref := by
  obtain ⟨first, rest, rfl⟩ := h.closed
  have hreach := (h.refers.imp fun _ _ => TransGen.single).pairwise
  rw [List.cons_append] at hreach
  obtain ⟨hfirst, hrest⟩ := List.pairwise_cons.1 hreach
  have hround := hfirst first (List.mem_append_right _ List.mem_cons_self)
  rcases List.mem_cons.1 href with rfl | href
  · exact hround
  rcases List.mem_append.1 href with hmem | hmem
  · -- it reaches the end of the cycle, which is the first member again
    have hback := (List.pairwise_append.1 hrest).2.2 ref hmem first List.mem_cons_self
    exact hback.trans (hfirst ref (List.mem_append_left _ hmem))
  · obtain rfl := List.mem_singleton.1 hmem
    exact hround

theorem IsCycle.cyclic {g : Graph} {cycle : List Ref} (h : g.IsCycle cycle) : g.Cyclic := by
  obtain ⟨first, rest, rfl⟩ := h.closed
  exact ⟨first, h.transGen_of_mem List.mem_cons_self⟩

/-! ### No cycle is missed -/

/-- Whatever was visited and is not on the path was left: all that it refers to was visited and
left as well, and it lies on no cycle. -/
def Settled (g : Graph) (path visited : List Ref) : Prop :=
  ∀ ref ∈ visited, ref ∉ path →
    (∀ target, g.Refers ref target → target ∈ visited ∧ target ∉ path) ∧
      ¬TransGen g.Refers ref ref

/-- From what was left nothing on the path can be reached. -/
theorem Settled.of_transGen {g : Graph} {path visited : List Ref} (h : g.Settled path visited)
    {a b : Ref} (hab : TransGen g.Refers a b) (ha : a ∈ visited) (hpath : a ∉ path) :
    b ∈ visited ∧ b ∉ path := by
  induction hab with
  | single hstep => exact (h _ ha hpath).1 _ hstep
  | tail _ hstep ih => exact (h _ ih.1 ih.2).1 _ hstep

/-- Entering a new identity puts it on the path. -/
theorem Settled.enter {g : Graph} {path visited : List Ref} (h : g.Settled path visited)
    (target : Ref) (hnew : target ∉ visited) :
    g.Settled (path ++ [target]) (target :: visited) := by
  intro ref href hpath
  have hne : ref ≠ target := by
    rintro rfl
    exact hpath (List.mem_append_right _ (List.mem_singleton_self _))
  have hmem : ref ∈ visited := (List.mem_cons.1 href).resolve_left hne
  have hout : ref ∉ path := fun hin => hpath (List.mem_append_left _ hin)
  obtain ⟨htargets, hacyclic⟩ := h ref hmem hout
  refine ⟨fun other hother => ?_, hacyclic⟩
  obtain ⟨hvisited, hout'⟩ := htargets other hother
  refine ⟨List.mem_cons_of_mem _ hvisited, ?_⟩
  rintro hin
  rcases List.mem_append.1 hin with hin | hin
  · exact hout' hin
  · rw [List.mem_singleton.1 hin] at hvisited
    exact hnew hvisited

/-- An identity is left when all that it refers to was: then no cycle leads through it, since
none of what it refers to leads back. -/
theorem Settled.leave {g : Graph} {path visited : List Ref} {ref : Ref}
    (h : g.Settled (path ++ [ref]) visited)
    (htargets : ∀ target, g.Refers ref target → target ∈ visited ∧ target ∉ path ++ [ref]) :
    g.Settled path visited := by
  have hout : ∀ {other : Ref}, other ∉ path ++ [ref] → other ∉ path :=
    fun hnot hin => hnot (List.mem_append_left _ hin)
  intro other hother hpath
  by_cases heq : other = ref
  · subst heq
    refine ⟨fun target htarget => ?_, fun hcycle => ?_⟩
    · obtain ⟨hvisited, hnot⟩ := htargets target htarget
      exact ⟨hvisited, hout hnot⟩
    · obtain ⟨target, hstep, hback⟩ := Relation.TransGen.head'_iff.1 hcycle
      obtain ⟨hvisited, hnot⟩ := htargets target hstep
      rcases Relation.reflTransGen_iff_eq_or_transGen.1 hback with heq | hback
      · subst heq
        simp at hnot
      · simpa using (h.of_transGen hback hvisited hnot).2
  · obtain ⟨htargets', hacyclic⟩ := h other hother (by simp [hpath, heq])
    refine ⟨fun target htarget => ?_, hacyclic⟩
    obtain ⟨hvisited, hnot⟩ := htargets' target htarget
    exact ⟨hvisited, hout hnot⟩

/-- What a search without a cycle leaves behind: everything that it went through is settled. -/
theorem Explores.settled {g : Graph} {path targets visited : List Ref} {found : Search}
    (h : g.Explores path targets visited found) (hcycle : found.cycle = none)
    (hsettled : g.Settled path visited) :
    g.Settled path found.visited ∧
      ∀ target ∈ targets, target ∈ found.visited ∧ target ∉ path := by
  induction h with
  | done => exact ⟨hsettled, by simp⟩
  | closes => cases hcycle
  | passes hpath hvisited hrest ih =>
    obtain ⟨hfinal, hall⟩ := ih hcycle hsettled
    refine ⟨hfinal, List.forall_mem_cons.2 ⟨⟨hrest.visited_subset hvisited, hpath⟩, hall⟩⟩
  | finds => cases hcycle
  | leaves hpath hnew hinner hrest ihInner ihRest =>
    obtain ⟨hbelow, htargets⟩ := ihInner rfl (hsettled.enter _ hnew)
    have hleft := hbelow.leave fun target htarget => htargets target (mem_targets.2 htarget)
    obtain ⟨hfinal, hall⟩ := ihRest hcycle hleft
    have hseen := hrest.visited_subset (hinner.visited_subset List.mem_cons_self)
    exact ⟨hfinal, List.forall_mem_cons.2 ⟨⟨hseen, hpath⟩, hall⟩⟩

/-- Searches that report nothing leave only identities that lie on no cycle. -/
theorem Sweeps.settled {g : Graph} {refs visited : List Ref} {cycles : List (List Ref)}
    (h : g.Sweeps refs visited cycles) (hcycles : cycles = []) (hsettled : g.Settled [] visited) :
    ∀ ref ∈ refs, ¬TransGen g.Refers ref ref := by
  induction h with
  | done => simp
  | passes hvisited _ ih =>
    exact List.forall_mem_cons.2 ⟨(hsettled _ hvisited (by simp)).2, ih hcycles hsettled⟩
  | leaves hnew hsearch _ ih =>
    obtain ⟨hbelow, htargets⟩ := hsearch.settled rfl (hsettled.enter _ hnew)
    have hleft : g.Settled [] _ :=
      Settled.leave hbelow fun target htarget => htargets target (mem_targets.2 htarget)
    have hseen := hsearch.visited_subset List.mem_cons_self
    exact List.forall_mem_cons.2 ⟨(hleft _ hseen (by simp)).2, ih hcycles hleft⟩
  | reports => cases hcycles

/-! ### The report -/

/-- Nothing is reported exactly on a graph without a cycle. -/
theorem WellFormed.cycles_eq_nil_iff {g : Graph} (h : g.WellFormed) :
    g.cycles = [] ↔ ¬g.Cyclic := by
  constructor
  · rintro hnil ⟨ref, hcycle⟩
    exact (sweeps_cycles g).settled hnil (by simp [Settled]) ref
      (h.mem_refs_of_transGen hcycle) hcycle
  · intro hacyclic
    rw [List.eq_nil_iff_forall_not_mem]
    intro cycle hcycle
    exact hacyclic (((sweeps_cycles g).isCycle h).1 cycle hcycle).1.cyclic

/-- **The cycles that are reported on the graph after any history of operations**: the searches
come to an end without being cut off; they report nothing exactly when the references contain no
cycle; each report is a simple cycle of recorded references between registered resources; and no
two reports have a member in common. -/
theorem cycles_of_history (history : List Operation) :
    let g := after history
    g.Sweeps (g.resources.map Resource.ref) [] g.cycles ∧
      (g.cycles = [] ↔ ¬g.Cyclic) ∧
      (∀ cycle ∈ g.cycles, g.IsCycle cycle) ∧
      g.cycles.Pairwise List.Disjoint := by
  intro g
  have h : g.WellFormed := wellFormed_after history
  obtain ⟨hall, hdisjoint⟩ := (sweeps_cycles g).isCycle h
  exact ⟨sweeps_cycles g, h.cycles_eq_nil_iff, fun cycle hcycle => (hall cycle hcycle).1,
    hdisjoint⟩

end Graph
end HclExport
