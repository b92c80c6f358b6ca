import HclExport.Graph.Basic
import Mathlib.Data.List.Chain
import Mathlib.Data.List.Perm.Subperm
import Mathlib.Data.Nat.Find
import Mathlib.Logic.Relation

/-!
# Networks and their paths

Identities with arcs between them, and what it means to measure the paths of a network right. How
that is done is left open; trying all paths is one way.

## Main definitions

* `Network`, `Network.IsPath` — identities with arcs between them, and the paths along them.
* `PathMeasure` — a right measure of paths.
* `PathMeasure.bySteps` — the measure that tries all paths.

## Main results

* `Network.IsPath.length_le` — without circles a path is no longer than there are identities.
* `Network.hasRow_eq_false_iff` — when a network is without circles.
-/

namespace HclExport

open Relation (TransGen)

/-! ### Networks -/

/-- Identities with arcs between them. -/
structure Network where
  nodes : List Ref
  arcs : List (Ref × Ref)
  arcs_mem : ∀ arc ∈ arcs, arc.1 ∈ nodes ∧ arc.2 ∈ nodes

namespace Network

/-- An arc leads from one identity to another. -/
def Arc (network : Network) (a b : Ref) : Prop :=
  (a, b) ∈ network.arcs

/-- No arcs lead in a circle. -/
def Acyclic (network : Network) : Prop :=
  ∀ node, ¬TransGen network.Arc node node

/-- Identities of a network, each with an arc to the next. -/
structure IsPath (network : Network) (path : List Ref) : Prop where
  subset : path ⊆ network.nodes
  arcs : path.IsChain network.Arc

/-- No path without circles comes back to an identity. -/
theorem IsPath.length_le {network : Network} (hacyclic : network.Acyclic) {path : List Ref}
    (h : network.IsPath path) : path.length ≤ network.nodes.length := by
  have hnodup : path.Nodup := by
    have hreach := (h.arcs.imp fun _ _ => TransGen.single).pairwise
    refine hreach.imp ?_
    rintro a b hab rfl
    exact hacyclic a hab
  exact (hnodup.subperm h.subset).length_le

end Network

/-- A right measure of paths: it tells whether a network is without circles, and how many arcs
the longest path has if it is. -/
structure PathMeasure where
  isAcyclic : Network → Bool
  longestPath : Network → Nat
  isAcyclic_iff : ∀ network, isAcyclic network = true ↔ network.Acyclic
  length_le : ∀ network, network.Acyclic → ∀ path, network.IsPath path →
    path.length ≤ longestPath network + 1
  exists_path : ∀ network, network.Acyclic → network.nodes ≠ [] →
    ∃ path, network.IsPath path ∧ path.length = longestPath network + 1

/-! ### The measure that tries all paths -/

namespace Network

variable {network : Network}

/-- Whether some arcs in a row lead on from an identity. -/
def leadsOn (network : Network) : Nat → Ref → Bool
  | 0, _ => true
  | steps + 1, node => network.arcs.any fun arc => arc.1 = node && network.leadsOn steps arc.2

theorem leadsOn_iff {steps : Nat} {node : Ref} (hnode : node ∈ network.nodes) :
    network.leadsOn steps node = true ↔
      ∃ rest, network.IsPath (node :: rest) ∧ rest.length = steps := by
  induction steps generalizing node with
  | zero =>
    refine ⟨fun _ => ⟨[], ⟨by simpa using hnode, List.isChain_singleton node⟩, rfl⟩, fun _ => rfl⟩
  | succ steps ih =>
    simp only [leadsOn, List.any_eq_true, Bool.and_eq_true, decide_eq_true_eq]
    constructor
    · rintro ⟨⟨a, b⟩, harc, rfl, hleads⟩
      obtain ⟨rest, hpath, rfl⟩ := (ih (network.arcs_mem _ harc).2).1 hleads
      exact ⟨b :: rest, ⟨List.cons_subset.2 ⟨hnode, hpath.subset⟩, hpath.arcs.cons_cons harc⟩, rfl⟩
    · rintro ⟨rest, hpath, hlength⟩
      cases rest with
      | nil => cases hlength
      | cons next rest =>
        have hrest : network.IsPath (next :: rest) :=
          ⟨(List.cons_subset.1 hpath.subset).2, hpath.arcs.of_cons⟩
        have hnext := hrest.subset List.mem_cons_self
        have hleads := (ih hnext).2 ⟨rest, hrest, by simpa using hlength⟩
        exact ⟨(node, next), hpath.arcs.rel, rfl, hleads⟩

/-- Around a circle arcs lead on for ever. -/
theorem leadsOn_of_circle (steps : Nat) {node : Ref} (h : TransGen network.Arc node node) :
    network.leadsOn steps node = true := by
  induction steps generalizing node with
  | zero => rfl
  | succ steps ih =>
    obtain ⟨next, harc, hback⟩ := Relation.TransGen.head'_iff.1 h
    simp only [leadsOn, List.any_eq_true, Bool.and_eq_true, decide_eq_true_eq]
    exact ⟨(node, next), harc, rfl, ih (TransGen.tail' hback harc)⟩

/-- Whether some arcs in a row lead on from anywhere. -/
def hasRow (network : Network) (steps : Nat) : Bool :=
  network.nodes.any (network.leadsOn steps)

theorem hasRow_iff {steps : Nat} :
    network.hasRow steps = true ↔ ∃ path, network.IsPath path ∧ path.length = steps + 1 := by
  unfold hasRow
  rw [List.any_eq_true]
  constructor
  · rintro ⟨node, hnode, hleads⟩
    obtain ⟨rest, hpath, rfl⟩ := (leadsOn_iff hnode).1 hleads
    exact ⟨node :: rest, hpath, rfl⟩
  · rintro ⟨path, hpath, hlength⟩
    cases path with
    | nil => cases hlength
    | cons node rest =>
      have hnode := hpath.subset List.mem_cons_self
      exact ⟨node, hnode, (leadsOn_iff hnode).2 ⟨rest, hpath, by simpa using hlength⟩⟩

/-- A network is without circles if no path has as many arcs as there are identities. -/
theorem hasRow_eq_false_iff : network.hasRow network.nodes.length = false ↔ network.Acyclic := by
  rw [← Bool.not_eq_true]
  constructor
  · intro hrow node hcircle
    refine hrow (List.any_eq_true.2 ⟨node, ?_, leadsOn_of_circle _ hcircle⟩)
    obtain ⟨next, harc, -⟩ := Relation.TransGen.head'_iff.1 hcircle
    exact (network.arcs_mem _ harc).1
  · intro hacyclic hrow
    obtain ⟨path, hpath, hlength⟩ := hasRow_iff.1 hrow
    have hle := hpath.length_le hacyclic
    omega

end Network

/-- The measure that tries all paths. -/
def PathMeasure.bySteps : PathMeasure where
  isAcyclic network := !network.hasRow network.nodes.length
  longestPath network := Nat.findGreatest (fun n => network.hasRow n = true) network.nodes.length
  isAcyclic_iff network := by rw [Bool.not_eq_true', Network.hasRow_eq_false_iff]
  length_le network hacyclic path hpath := by
    cases path with
    | nil => exact Nat.zero_le _
    | cons node rest =>
      have hrow : network.hasRow rest.length = true := Network.hasRow_iff.2 ⟨_, hpath, rfl⟩
      have hbound := hpath.length_le hacyclic
      rw [List.length_cons] at hbound ⊢
      exact Nat.succ_le_succ (Nat.le_findGreatest (by omega) hrow)
  exists_path network hacyclic hnodes := by
    obtain ⟨node, hnode⟩ := List.exists_mem_of_ne_nil _ hnodes
    have hstart : network.hasRow 0 = true := List.any_eq_true.2 ⟨node, hnode, rfl⟩
    exact Network.hasRow_iff.1
      (Nat.findGreatest_spec (P := fun n => network.hasRow n = true) (Nat.zero_le _) hstart)

end HclExport
