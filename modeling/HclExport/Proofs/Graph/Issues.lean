import HclExport.Graph.Report
import HclExport.Proofs.Graph.Cycle

/-!
# What is wrong with a graph

A graph is refused for its cycles and for its references that lead nowhere. References start at
resources of the graph, since none is recorded otherwise; so nobody is ever told of a reference
without a source, and the issues are one line for each cycle that is reported and one for each
reference that leads nowhere.

## Main definitions

* `cycleIssue`, `missingTargetIssue`, `missingSourceHead` — the lines about cycles and references.

## Main results

* `Graph.WellFormed.issues_eq` — the issues of a graph.
* `Graph.WellFormed.validate_eq_ok_iff` — which graphs are accepted.
* `Graph.validate_of_history` — **the verdict on the graph after any history.**
-/

namespace HclExport
namespace Graph

/-! ### Lines -/

/-- The line about a cycle. -/
def cycleIssue (cycle : List Ref) : String :=
  "circular dependency: " ++ cycleText cycle

/-- The line about a reference to an identity that is not registered. -/
def missingTargetIssue (e : Edge) : String :=
  e.source.ref.key ++ " references missing resource " ++ e.target.key ++
    " (field: " ++ e.field ++ ")"

/-- How a line about a reference without a source starts. -/
def missingSourceHead : String := "edge references missing source: "

/-- A line with another first letter is not about a reference without a source. -/
theorem not_missingSourceHead_prefix {text : List Char} (h : text.head? ≠ some 'e') :
    ¬missingSourceHead.toList <+: text := by
  have hhead : missingSourceHead.toList = 'e' :: missingSourceHead.toList.tail := by
    simp [missingSourceHead]
  rintro ⟨rest, rfl⟩
  rw [hhead] at h
  exact h rfl

theorem not_missingSourceHead_prefix_cycleIssue (cycle : List Ref) :
    ¬missingSourceHead.toList <+: (cycleIssue cycle).toList := by
  refine not_missingSourceHead_prefix ?_
  unfold cycleIssue
  rw [String.toList_append, List.head?_append]
  simp

/-- A line about a reference to nowhere starts with the type of its source. -/
theorem not_missingSourceHead_prefix_missingTargetIssue (e : Edge) :
    ¬missingSourceHead.toList <+: (missingTargetIssue e).toList := by
  obtain ⟨rest, htype⟩ : ∃ rest, e.source.ref.kind.type.toList = 'p' :: rest := by
    cases e.source.ref.kind <;> simp [Kind.type]
  refine not_missingSourceHead_prefix ?_
  simp [missingTargetIssue, Ref.key, htype]

/-! ### Issues -/

variable {g : Graph}

theorem has_eq_false_iff {ref : Ref} : g.has ref = false ↔ ref ∉ g.resources.map Resource.ref := by
  rw [← Bool.not_eq_true, has_iff_mem_refs]

/-- A reference that starts at a resource is at fault only for its target. -/
theorem edgeIssues_of_mem {e : Edge} (h : e.source ∈ g.resources) :
    g.edgeIssues e = if g.has e.target then [] else [missingTargetIssue e] := by
  have hsource : g.has e.source.ref = true := has_iff_mem_refs.2 (List.mem_map_of_mem h)
  unfold edgeIssues missingTargetIssue
  rw [if_pos hsource, List.nil_append]

/-- The issues of a graph: one line for each cycle that is reported, and one for each reference that
leads nowhere, in the order in which they were recorded. -/
theorem WellFormed.issues_eq (h : g.WellFormed) :
    g.issues = g.cycles.map cycleIssue ++
      (g.edges.filter fun e => !g.has e.target).map missingTargetIssue := by
  have hedges : ∀ edges : List Edge, (∀ e ∈ edges, e.source ∈ g.resources) →
      edges.flatMap g.edgeIssues =
        (edges.filter fun e => !g.has e.target).map missingTargetIssue := by
    intro edges hsource
    induction edges with
    | nil => rfl
    | cons e rest ih =>
      obtain ⟨he, hrest⟩ := List.forall_mem_cons.1 hsource
      rw [List.flatMap_cons, edgeIssues_of_mem he, ih hrest, List.filter_cons]
      cases g.has e.target <;> rfl
  unfold issues
  rw [hedges g.edges h.source_mem]
  rfl

theorem validate_eq_ok_iff_issues : g.validate = .ok () ↔ g.issues = [] := by
  unfold validate
  cases g.issues with
  | nil => simp
  | cons line rest => simp

/-- A graph is accepted exactly if its references contain no cycle and all lead to resources. -/
theorem WellFormed.validate_eq_ok_iff (h : g.WellFormed) :
    g.validate = .ok () ↔ ¬g.Cyclic ∧ ∀ e ∈ g.edges, g.has e.target = true := by
  rw [validate_eq_ok_iff_issues, h.issues_eq, List.append_eq_nil_iff, List.map_eq_nil_iff,
    List.map_eq_nil_iff, h.cycles_eq_nil_iff, List.filter_eq_nil_iff]
  simp

/-- **The verdict on the graph after any history of operations.** It is refused exactly if its
references contain a cycle or one of them leads to an identity that is not registered, and always by
one kind of fault, which lists all issues. These are one line for each cycle that is reported, and
behind them one line for each reference that leads nowhere, in the order in which they were
recorded; no line is about a reference without a source. -/
theorem validate_of_history (history : List Operation) :
    let g := after history
    ((∃ fault, g.validate = .error fault) ↔
      g.Cyclic ∨ ∃ e ∈ g.edges, e.target ∉ g.resources.map Resource.ref) ∧
    (∀ fault, g.validate = .error fault →
      fault = Fault.of .invalidGraph (issuesMessage g.issues) []) ∧
    (g.issues = g.cycles.map cycleIssue ++
      (g.edges.filter fun e => e.target ∉ g.resources.map Resource.ref).map missingTargetIssue) ∧
    ∀ line ∈ g.issues, ¬missingSourceHead.toList <+: line.toList := by
  intro g
  have h : g.WellFormed := wellFormed_after history
  have hissues : g.issues = g.cycles.map cycleIssue ++
      (g.edges.filter fun e => e.target ∉ g.resources.map Resource.ref).map missingTargetIssue := by
    rw [h.issues_eq]
    congr 2
    refine List.filter_congr fun e _ => ?_
    rw [Bool.eq_iff_iff, Bool.not_eq_true', has_eq_false_iff, decide_eq_true_iff]
  refine ⟨?_, ?_, hissues, ?_⟩
  · have haccepted : (∃ fault, g.validate = .error fault) ↔ g.validate ≠ .ok () := by
      cases g.validate with
      | error fault => simp
      | ok verdict => simp
    rw [haccepted, Ne, h.validate_eq_ok_iff, not_and_or, not_not]
    push Not
    simp only [Ne, Bool.not_eq_true, has_eq_false_iff]
  · intro fault hfault
    unfold validate at hfault
    split at hfault
    next => cases hfault
    next => exact (Except.error.inj hfault).symm
  · intro line hline
    rw [hissues] at hline
    rcases List.mem_append.1 hline with hline | hline
    · obtain ⟨cycle, -, rfl⟩ := List.mem_map.1 hline
      exact not_missingSourceHead_prefix_cycleIssue cycle
    · obtain ⟨e, -, rfl⟩ := List.mem_map.1 hline
      exact not_missingSourceHead_prefix_missingTargetIssue e

end Graph
end HclExport
