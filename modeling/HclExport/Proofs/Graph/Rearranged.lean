import HclExport.Proofs.Conversion.Requests
import HclExport.Proofs.Document.Rearranged
import HclExport.Proofs.Graph.History
import HclExport.Proofs.Graph.Reference
import Mathlib.Data.List.TakeWhile

/-!
# The graph of a flow with its elements in another order

The references of a flow are found in the order of its nodes. Where the nodes stand in another
order, so do the references; but those of one field to one id are all the same, so that it does not
matter which of them stands first. Histories that record the references of a flow with its elements in
either order come to graphs in which the same is found.

## Main definitions

* `Graph.backs`, `Graph.reference?` — the references of a resource in a field to an id, and the first
  of them.
* `Graph.stored` — the references that a graph adds when it is given some.
* `Graph.Corresponds`, `Graph.Operation.Corresponds` — graphs in which the same is found, and
  operations that are the same or record the references of a flow in either order.

## Main results

* `parseReferences_perm` — the references of a flow with its elements in another order.
* `Graph.Corresponds.perform`, `Graph.corresponds_after` — what one operation keeps, and a history.
-/

namespace HclExport

/-- What is found first does not depend on the order where there is only one to be found. -/
theorem find?_perm_of_unique {α : Type} {p : α → Bool} {xs ys : List α} (h : xs.Perm ys)
    (hunique : ∀ x ∈ xs, ∀ y ∈ xs, p x = true → p y = true → x = y) : xs.find? p = ys.find? p := by
  have hany : ∀ zs : List α, zs.Pairwise fun _ _ => True :=
    fun zs => List.pairwise_of_forall fun _ _ => trivial
  have hfilter : xs.filter p = ys.filter p := by
    refine (h.filter p).eq_of_pairwise (fun x y hx hy _ _ => ?_) (hany _) (hany _)
    obtain ⟨hx, hpx⟩ := List.mem_filter.1 hx
    obtain ⟨hy, hpy⟩ := List.mem_filter.1 hy
    exact hunique x hx y (h.mem_iff.2 hy) hpx hpy
  rw [← List.head?_filter, ← List.head?_filter, hfilter]

/-! ### References of a flow -/

section References

variable {document other : Members}

/-- The texts at the declared paths of a flow stand in its nodes. -/
theorem extractTexts_perm (h : document.Rearranged other) {path : ReferencePath}
    (hpath : path ∈ Kind.flow.schema) :
    (extractTexts (.obj document) path.path).Perm (extractTexts (.obj other) path.path) := by
  have hnodes : (nodesOf document).Perm (nodesOf other) := h.objects_perm (by decide)
  have hproperty : ∀ path key, (splitPath path).map Segment.ofText =
      [.member "graphData", .member "elements", .items "nodes", .member "data",
        .member "properties", .member key] →
      (extractTexts (.obj document) path).Perm (extractTexts (.obj other) path) := by
    intro path key hsegments
    rw [extractTexts_property path key document hsegments,
      extractTexts_property path key other hsegments]
    exact hnodes.flatMap_right _
  simp only [Kind.schema, List.mem_cons, List.not_mem_nil, or_false] at hpath
  rcases hpath with rfl | rfl | rfl
  · rw [extractTexts_connectionId, extractTexts_connectionId]
    exact hnodes.flatMap_right _
  · exact hproperty _ "variableId" (by decide)
  · exact hproperty _ "subFlowId" (by decide)

theorem parseReferences_perm (h : document.Rearranged other) {source : Resource}
    (hsource : source.ref.kind = .flow) {edges edges' : List Edge}
    (hedges : parseReferences source (.obj document) = .ok edges)
    (hedges' : parseReferences source (.obj other) = .ok edges') : edges.Perm edges' := by
  obtain ⟨rfl, -⟩ := parseReferences_eq_ok hedges
  obtain ⟨rfl, -⟩ := parseReferences_eq_ok hedges'
  rw [hsource]
  refine List.Perm.flatMap_left _ fun path hpath => ?_
  exact (extractTexts_perm h hpath).map _

/-- References of one field to one id are the same. -/
theorem eq_of_mem_parseReferences {source : Resource} {document : Json} {edges : List Edge}
    (h : parseReferences source document = .ok edges) {a b : Edge} (ha : a ∈ edges) (hb : b ∈ edges)
    (hfield : a.field = b.field) (hid : a.target.id = b.target.id) : a = b := by
  obtain ⟨path, hpath, id, -, rfl⟩ := exists_path_of_mem_parseReferences h ha
  obtain ⟨path', hpath', id', -, rfl⟩ := exists_path_of_mem_parseReferences h hb
  obtain rfl := Kind.schema_field_injective hpath hpath' hfield
  obtain rfl : id = id' := hid
  rfl

end References

namespace Graph

/-! ### Adding references -/

/-- Whether a reference is one of a resource in a field to an id. -/
def backs (source : Ref) (field targetId : String) (e : Edge) : Bool :=
  e.source.ref = source && e.field = field && e.target.id = targetId

/-- The first reference of a resource in a field to an id. -/
def reference? (g : Graph) (source : Ref) (field targetId : String) : Option Edge :=
  g.edges.find? (backs source field targetId)

/-- The references that a graph adds when it is given some: those up to the first whose source is
not registered, each with the registered name of its source. -/
def stored (g : Graph) (edges : List Edge) : List Edge :=
  if g.isSealed then []
  else (edges.takeWhile fun e => g.has e.source.ref).map fun e =>
    { e with source := g.sourceOf e.source.ref }

theorem snd_addEdges (g : Graph) (edges : List Edge) :
    (g.addEdges edges).2 = g.extend (g.stored edges) := by
  induction edges generalizing g with
  | nil => simp [stored]
  | cons e rest ih =>
    rw [addEdges]
    by_cases hs : g.isSealed = true
    · simp [addEdge, stored, hs]
    · have hopen : g.isSealed = false := by simpa using hs
      cases hf : g.find? e.source.ref with
      | none => simp [addEdge, stored, hopen, hf, has]
      | some r =>
        rw [addEdge_of_find? hopen hf]
        dsimp only
        rw [ih, extend_extend]
        simp [stored, hopen, has, hf, sourceOf]

theorem snd_perform_addEdge (g : Graph) (source target : Ref) (field location : String) :
    (g.perform (.addEdge source target field location)).2 =
      (g.addEdges [⟨⟨source, ""⟩, target, field, location⟩]).2 := by
  simp only [perform, addEdges]
  cases g.addEdge source target field location with
  | error fault => rfl
  | ok result => rfl

/-! ### Graphs in which the same is found -/

/-- Graphs with the same resources under the same names, and the same first references. -/
structure Corresponds (g other : Graph) : Prop where
  resources : g.resources = other.resources
  names : g.names = other.names
  isSealed : g.isSealed = other.isSealed
  reference? : g.reference? = other.reference?

namespace Corresponds

variable {g other : Graph}

theorem refl (g : Graph) : g.Corresponds g :=
  ⟨rfl, rfl, rfl, rfl⟩

theorem find? (h : g.Corresponds other) : g.find? = other.find? := by
  funext ref
  unfold Graph.find?
  rw [h.resources]

theorem stored (h : g.Corresponds other) : g.stored = other.stored := by
  funext edges
  unfold Graph.stored Graph.has Graph.sourceOf
  rw [h.isSealed, h.find?]

/-- References of which the same are found may be added on either side. -/
theorem extend (h : g.Corresponds other) {edges edges' : List Edge}
    (hedges : ∀ source field targetId,
      edges.find? (backs source field targetId) = edges'.find? (backs source field targetId)) :
    (g.extend edges).Corresponds (other.extend edges') where
  resources := h.resources
  names := h.names
  isSealed := h.isSealed
  reference? := by
    funext source field targetId
    have hsame := congrFun (congrFun (congrFun h.reference? source) field) targetId
    unfold Graph.reference? at hsame ⊢
    rw [extend_edges, extend_edges, List.find?_append, List.find?_append, hsame, hedges]

theorem addEdges (h : g.Corresponds other) (edges : List Edge) :
    (g.addEdges edges).2.Corresponds (other.addEdges edges).2 := by
  rw [snd_addEdges, snd_addEdges, h.stored]
  exact h.extend fun _ _ _ => rfl

theorem register (h : g.Corresponds other) (ref : Ref) (name : String) :
    (g.perform (.register ref name)).2.Corresponds (other.perform (.register ref name)).2 := by
  simp only [perform, Graph.register]
  rw [h.isSealed, h.find?, h.names]
  by_cases hs : other.isSealed = true
  · rw [if_pos hs, if_pos hs]
    exact h
  · rw [if_neg hs, if_neg hs]
    cases other.find? ref with
    | some r => exact h
    | none => exact ⟨congrArg (· ++ _) h.resources, rfl, rfl, h.reference?⟩

end Corresponds

/-! ### References of one source -/

/-- References of one source are all added or none. -/
theorem stored_of_source (g : Graph) {edges : List Edge} {source : Resource}
    (hsource : ∀ e ∈ edges, e.source = source) :
    g.stored edges = if g.isSealed || !g.has source.ref then []
      else edges.map fun e => { e with source := g.sourceOf source.ref } := by
  unfold stored
  by_cases hs : g.isSealed = true
  · simp [hs]
  · have hopen : g.isSealed = false := by simpa using hs
    cases hhas : g.has source.ref with
    | false =>
      have hnone : edges.takeWhile (fun e => g.has e.source.ref) = [] := by
        cases edges with
        | nil => rfl
        | cons e rest =>
          rw [List.takeWhile_cons, hsource e List.mem_cons_self, hhas]
          rfl
      simp [hopen, hnone]
    | true =>
      have hall : edges.takeWhile (fun e => g.has e.source.ref) = edges := by
        refine List.takeWhile_eq_self_iff.2 fun e he => ?_
        rw [hsource e he, hhas]
      simp only [hopen, hall, Bool.not_true, Bool.or_false, Bool.false_eq_true, if_false]
      refine List.map_congr_left fun e he => ?_
      rw [hsource e he]

/-- Where references of one field to one id are the same, their order does not matter. -/
theorem find?_stored_of_perm (g : Graph) {edges edges' : List Edge} (hperm : edges.Perm edges')
    {source : Resource} (hsource : ∀ e ∈ edges, e.source = source)
    (hunique : ∀ a ∈ edges, ∀ b ∈ edges, a.field = b.field → a.target.id = b.target.id → a = b)
    (ref : Ref) (field targetId : String) :
    (g.stored edges).find? (backs ref field targetId) =
      (g.stored edges').find? (backs ref field targetId) := by
  rw [g.stored_of_source hsource,
    g.stored_of_source fun e he => hsource e (hperm.mem_iff.2 he)]
  split
  · rfl
  · refine find?_perm_of_unique (hperm.map _) fun a ha b hb hbacks hbacks' => ?_
    obtain ⟨first, hfirst, rfl⟩ := List.mem_map.1 ha
    obtain ⟨second, hsecond, rfl⟩ := List.mem_map.1 hb
    simp only [backs, Bool.and_eq_true, decide_eq_true_eq] at hbacks hbacks'
    rw [hunique first hfirst second hsecond (hbacks.1.2.trans hbacks'.1.2.symm)
      (hbacks.2.trans hbacks'.2.symm)]

/-! ### Histories -/

/-- Operations that are the same, or record the references of a flow with its elements in either
order. -/
inductive Operation.Corresponds (document other : Members) : Operation → Operation → Prop
  | same (operation : Operation) : Corresponds document other operation operation
  | parsed {source : Resource} {edges edges' : List Edge} (hsource : source.ref.kind = .flow)
    (hedges : parseReferences source (.obj document) = .ok edges)
    (hedges' : parseReferences source (.obj other) = .ok edges') :
    Corresponds document other (.addEdges edges) (.addEdges edges')

section Histories

variable {document other : Members}

/-- What one operation keeps. -/
theorem Corresponds.perform (hdocument : document.Rearranged other) {g g' : Graph}
    (h : g.Corresponds g') {operation operation' : Operation}
    (hoperation : Operation.Corresponds document other operation operation') :
    (g.perform operation).2.Corresponds (g'.perform operation').2 := by
  cases hoperation with
  | same =>
    cases operation with
    | register ref name => exact h.register ref name
    | addEdge source target field location =>
      rw [snd_perform_addEdge, snd_perform_addEdge]
      exact h.addEdges _
    | addEdges edges =>
      rw [snd_perform_addEdges, snd_perform_addEdges]
      exact h.addEdges edges
    | close => exact ⟨h.resources, h.names, rfl, h.reference?⟩
  | parsed hsource hedges hedges' =>
    rw [snd_perform_addEdges, snd_perform_addEdges, snd_addEdges, snd_addEdges, ← h.stored]
    refine h.extend (find?_stored_of_perm g (parseReferences_perm hdocument hsource hedges hedges')
      (source_mem_parseReferences hedges) ?_)
    exact fun a ha b hb => eq_of_mem_parseReferences hedges ha hb

theorem Corresponds.performAll (hdocument : document.Rearranged other) {g g' : Graph}
    (h : g.Corresponds g') {history history' : List Operation}
    (hhistory : List.Forall₂ (Operation.Corresponds document other) history history') :
    (g.performAll history).Corresponds (g'.performAll history') := by
  induction hhistory generalizing g g' with
  | nil => exact h
  | cons hoperation _ ih => exact ih (h.perform hdocument hoperation)

/-- **Histories that record the references of a flow with its elements in either order** come to
graphs in which the same is found. -/
theorem corresponds_after (hdocument : document.Rearranged other)
    {history history' : List Operation}
    (hhistory : List.Forall₂ (Operation.Corresponds document other) history history') :
    (after history).Corresponds (after history') :=
  (Corresponds.refl {}).performAll hdocument hhistory

end Histories

end Graph

end HclExport
