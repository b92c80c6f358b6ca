import HclExport.Proofs.Resource.FreshName
import HclExport.Proofs.Resource.KeyText

/-!
# How a graph grows

The graph with further references, and the invariant of a graph: what it holds after
resources were registered and references recorded, in whatever order.

## Main definitions

* `Graph.extend`, `Graph.Records` — a graph with further references, and the references
  that it stores for given ones.
* `Graph.WellFormed` — names and identities are unique, and references start at resources.

## Main results

* `Graph.addEdge_eq_ok_iff`, `Graph.addEdges_cases` — which references are recorded.
* `Graph.register_cases` — what registering an identity gives.
* `Graph.WellFormed.register`, `Graph.WellFormed.addEdges` — the invariant, over what changes
  a graph.
* `Graph.WellFormed.find?_ref` — a resource is found under its identity.
-/

namespace HclExport

/-- Where no two elements have one key, the key of an element picks out that element alone. -/
theorem filter_key_eq_singleton {α κ : Type} [DecidableEq κ] {key : α → κ} {xs : List α}
    (hkeys : (xs.map key).Nodup) {x : α} (hx : x ∈ xs) :
    xs.filter (fun y => key y = key x) = [x] := by
  induction xs with
  | nil => cases hx
  | cons y rest ih =>
    obtain ⟨hnew, hrest⟩ := List.nodup_cons.1 hkeys
    rcases List.mem_cons.1 hx with rfl | hx
    · have hnone : rest.filter (fun y => key y = key x) = [] := by
        refine List.filter_eq_nil_iff.2 fun y hy => ?_
        rw [decide_eq_true_iff]
        intro hkey
        exact hnew (List.mem_map.2 ⟨y, hy, hkey⟩)
      rw [List.filter_cons_of_pos (by simp), hnone]
    · have hne : key y ≠ key x := by
        intro hkey
        exact hnew (List.mem_map.2 ⟨x, hx, hkey.symm⟩)
      rw [List.filter_cons_of_neg (by simpa using hne), ih hrest hx]

namespace Graph

/-! ### Looking up resources -/

theorem mem_of_find? {g : Graph} {ref : Ref} {r : Resource} (h : g.find? ref = some r) :
    r ∈ g.resources :=
  List.mem_of_find?_eq_some h

theorem ref_of_find? {g : Graph} {ref : Ref} {r : Resource} (h : g.find? ref = some r) :
    r.ref = ref := by
  simpa using List.find?_some h

theorem find?_eq_none {g : Graph} {ref : Ref} :
    g.find? ref = none ↔ ∀ r ∈ g.resources, r.ref ≠ ref := by
  simp [find?]

/-- An identity is registered if a resource has it. -/
theorem has_iff_mem_refs {g : Graph} {ref : Ref} :
    g.has ref = true ↔ ref ∈ g.resources.map Resource.ref := by
  simp [has, find?]

/-- The resource of an identity, without a name if it is not registered. -/
def sourceOf (g : Graph) (ref : Ref) : Resource :=
  (g.find? ref).getD ⟨ref, ""⟩

theorem sourceOf_of_find? {g : Graph} {ref : Ref} {r : Resource} (h : g.find? ref = some r) :
    g.sourceOf ref = r := by
  rw [sourceOf, h, Option.getD_some]

@[simp] theorem ref_sourceOf (g : Graph) (ref : Ref) : (g.sourceOf ref).ref = ref := by
  unfold sourceOf
  cases h : g.find? ref with
  | none => rfl
  | some r => exact ref_of_find? h

/-! ### Recording references -/

/-- The graph with further references behind its own. -/
def extend (g : Graph) (edges : List Edge) : Graph :=
  { g with edges := g.edges ++ edges }

@[simp] theorem extend_resources (g : Graph) (edges : List Edge) :
    (g.extend edges).resources = g.resources := rfl

@[simp] theorem extend_edges (g : Graph) (edges : List Edge) :
    (g.extend edges).edges = g.edges ++ edges := rfl

@[simp] theorem extend_names (g : Graph) (edges : List Edge) :
    (g.extend edges).names = g.names := rfl

@[simp] theorem extend_isSealed (g : Graph) (edges : List Edge) :
    (g.extend edges).isSealed = g.isSealed := rfl

@[simp] theorem find?_extend (g : Graph) (edges : List Edge) (ref : Ref) :
    (g.extend edges).find? ref = g.find? ref := rfl

@[simp] theorem extend_nil (g : Graph) : g.extend [] = g := by
  simp [extend]

@[simp] theorem extend_extend (g : Graph) (edges more : List Edge) :
    (g.extend edges).extend more = g.extend (edges ++ more) := by
  simp [extend]

theorem addEdge_of_find? {g : Graph} {source : Ref} {r : Resource} (hs : g.isSealed = false)
    (hf : g.find? source = some r) (target : Ref) (field location : String) :
    g.addEdge source target field location =
      .ok (⟨r, target, field, location⟩, g.extend [⟨r, target, field, location⟩]) := by
  unfold addEdge
  rw [if_neg (by simp [hs]), hf]
  rfl

/-- A reference is recorded exactly when the graph is open and the source is registered. -/
theorem addEdge_eq_ok_iff {g : Graph} {source target : Ref} {field location : String}
    {edge : Edge} {grown : Graph} :
    g.addEdge source target field location = .ok (edge, grown) ↔
      g.isSealed = false ∧
        ∃ r, g.find? source = some r ∧ edge = ⟨r, target, field, location⟩ ∧
          grown = g.extend [edge] := by
  constructor
  · intro h
    unfold addEdge at h
    split at h
    case isTrue => cases h
    case isFalse hs =>
      split at h
      case h_1 => cases h
      case h_2 r hf =>
        obtain ⟨rfl, rfl⟩ := Prod.mk.inj (Except.ok.inj h)
        exact ⟨by simpa using hs, r, hf, rfl, rfl⟩
  · rintro ⟨hs, r, hf, rfl, rfl⟩
    exact addEdge_of_find? hs hf target field location

/-- Whether a reference is recorded, and how, does not depend on those recorded before. -/
theorem addEdge_extend (g : Graph) (edges : List Edge) (source target : Ref)
    (field location : String) :
    (g.extend edges).addEdge source target field location =
      (g.addEdge source target field location).map fun (edge, _) =>
        (edge, g.extend (edges ++ [edge])) := by
  -- neither the seal nor the resources are touched by recording references
  by_cases hs : g.isSealed = true
  · unfold addEdge
    rw [if_pos hs, if_pos (by simpa using hs)]
    rfl
  · cases hf : g.find? source with
    | none =>
      unfold addEdge
      rw [if_neg hs, if_neg (by simpa using hs), find?_extend, hf]
      rfl
    | some r =>
      have hs : g.isSealed = false := by simpa using hs
      rw [addEdge_of_find? hs hf, addEdge_of_find? (by simpa using hs) (by simpa using hf)]
      simp [Except.map]

/-- What the graph stores for a reference that it is given. -/
def Records (g : Graph) (given stored : Edge) : Prop :=
  g.addEdge given.source.ref given.target given.field given.location =
    .ok (stored, g.extend [stored])

theorem records_extend {g : Graph} {edges : List Edge} {given stored : Edge} :
    (g.extend edges).Records given stored ↔ g.Records given stored := by
  unfold Records
  rw [addEdge_extend]
  cases h : g.addEdge given.source.ref given.target given.field given.location with
  | error fault => simp [Except.map]
  | ok result =>
    obtain ⟨edge, grown⟩ := result
    obtain ⟨-, r, -, -, rfl⟩ := addEdge_eq_ok_iff.1 h
    simp only [Except.map, Except.ok.injEq, Prod.mk.injEq, extend_extend]
    constructor
    · rintro ⟨rfl, -⟩
      exact ⟨rfl, rfl⟩
    · rintro ⟨rfl, -⟩
      exact ⟨rfl, rfl⟩

/-- References are recorded one by one: all of them, or those before the first that is
refused. -/
theorem addEdges_cases (g : Graph) (edges : List Edge) :
    (∃ stored, List.Forall₂ g.Records edges stored ∧
      g.addEdges edges = (.ok (), g.extend stored)) ∨
    ∃ before refused after stored fault,
      edges = before ++ refused :: after ∧ List.Forall₂ g.Records before stored ∧
      g.addEdge refused.source.ref refused.target refused.field refused.location =
        .error fault ∧
      g.addEdges edges = (.error fault, g.extend stored) := by
  -- for every graph, since the rest is recorded in the graph that the first one gave
  induction edges generalizing g with
  | nil => exact Or.inl ⟨[], List.Forall₂.nil, by simp⟩
  | cons e rest ih =>
    cases h : g.addEdge e.source.ref e.target e.field e.location with
    | error fault =>
      refine Or.inr ⟨[], e, rest, [], fault, rfl, List.Forall₂.nil, h, ?_⟩
      simp [addEdges, h]
    | ok result =>
      obtain ⟨edge, grown⟩ := result
      obtain ⟨-, r, -, -, rfl⟩ := addEdge_eq_ok_iff.1 h
      have hstep : g.addEdges (e :: rest) = (g.extend [edge]).addEdges rest := by
        simp [addEdges, h]
      -- what is recorded later is recorded as it would be now
      have hmono : ∀ given stored, (g.extend [edge]).Records given stored →
          g.Records given stored := fun _ _ => records_extend.1
      rcases ih (g.extend [edge]) with ⟨stored, hall, heq⟩ |
          ⟨before, refused, after, stored, fault, rfl, hall, hrefused, heq⟩
      · refine Or.inl ⟨edge :: stored, List.Forall₂.cons h (hall.imp hmono), ?_⟩
        rw [hstep, heq, extend_extend, List.singleton_append]
      · refine Or.inr ⟨e :: before, refused, after, edge :: stored, fault, rfl,
          List.Forall₂.cons h (hall.imp hmono), ?_, ?_⟩
        · rw [addEdge_extend] at hrefused
          cases hr : g.addEdge refused.source.ref refused.target refused.field
              refused.location with
          | error other => simpa [hr, Except.map] using hrefused
          | ok result => simp [hr, Except.map] at hrefused
        · rw [hstep, heq, extend_extend, List.singleton_append]

/-- References that start at registered resources are recorded as they are. -/
theorem addEdges_of_registered {g : Graph} {edges : List Edge} (hs : g.isSealed = false)
    (h : ∀ e ∈ edges, g.find? e.source.ref = some e.source) :
    g.addEdges edges = (.ok (), g.extend edges) := by
  induction edges generalizing g with
  | nil => simp
  | cons e rest ih =>
    have hstep : g.addEdges (e :: rest) = (g.extend [e]).addEdges rest := by
      rw [addEdges, addEdge_of_find? hs (h e List.mem_cons_self)]
    have hrest := ih (g := g.extend [e]) (by simpa using hs) fun other hother =>
      h other (List.mem_cons_of_mem _ hother)
    rw [hstep, hrest, extend_extend, List.singleton_append]

/-! ### Registering resources -/

theorem register_of_find? {g : Graph} {ref : Ref} {r : Resource} (hs : g.isSealed = false)
    (hf : g.find? ref = some r) (name : String) : g.register ref name = .ok (r.name, g) := by
  unfold register
  rw [if_neg (by simp [hs]), hf]

theorem register_of_find?_none {g : Graph} {ref : Ref} (hs : g.isSealed = false)
    (hf : g.find? ref = none) (name : String) :
    g.register ref name = .ok (g.names.next name,
      { g with
        resources := g.resources ++ [⟨ref, g.names.next name⟩]
        names := (g.names.request name).2 }) := by
  unfold register
  rw [if_neg (by simp [hs]), hf]
  rfl

/-- Registering an identity gives the name that it has, or a new resource with the next name
behind the others. -/
theorem register_cases {g grown : Graph} {ref : Ref} {name unique : String}
    (h : g.register ref name = .ok (unique, grown)) :
    g.isSealed = false ∧
      ((∃ r, g.find? ref = some r ∧ unique = r.name ∧ grown = g) ∨
        g.find? ref = none ∧ unique = g.names.next name ∧
          grown = { g with
            resources := g.resources ++ [⟨ref, unique⟩]
            names := (g.names.request name).2 }) := by
  by_cases hs : g.isSealed = true
  · unfold register at h
    rw [if_pos hs] at h
    cases h
  have hs : g.isSealed = false := by simpa using hs
  refine ⟨hs, ?_⟩
  cases hf : g.find? ref with
  | some r =>
    rw [register_of_find? hs hf] at h
    obtain ⟨rfl, rfl⟩ := Prod.mk.inj (Except.ok.inj h)
    exact Or.inl ⟨r, rfl, rfl, rfl⟩
  | none =>
    rw [register_of_find?_none hs hf] at h
    obtain ⟨rfl, rfl⟩ := Prod.mk.inj (Except.ok.inj h)
    exact Or.inr ⟨rfl, rfl, rfl⟩

/-! ### Well-formed graphs -/

/-- The invariant of a graph. The names in use are those handed out, no two resources share
a name or an identity, and every reference starts at a resource and carries its name. -/
structure WellFormed (g : Graph) : Prop where
  issued : g.names.issued = (g.resources.map Resource.name).reverse
  names_nodup : (g.resources.map Resource.name).Nodup
  refs_nodup : (g.resources.map Resource.ref).Nodup
  source_mem : ∀ e ∈ g.edges, e.source ∈ g.resources

namespace WellFormed

theorem empty : WellFormed {} where
  issued := rfl
  names_nodup := List.nodup_nil
  refs_nodup := List.nodup_nil
  source_mem := by simp

theorem extend {g : Graph} {edges : List Edge} (h : g.WellFormed)
    (hsource : ∀ e ∈ edges, e.source ∈ g.resources) : (g.extend edges).WellFormed where
  issued := h.issued
  names_nodup := h.names_nodup
  refs_nodup := h.refs_nodup
  source_mem := by
    intro e he
    rw [extend_edges, List.mem_append] at he
    rcases he with he | he
    · exact h.source_mem e he
    · exact hsource e he

/-- A resource is found under its identity. -/
theorem find?_ref {g : Graph} (h : g.WellFormed) {r : Resource} (hr : r ∈ g.resources) :
    g.find? r.ref = some r := by
  cases hf : g.find? r.ref with
  | none => exact absurd rfl (find?_eq_none.1 hf r hr)
  | some other =>
    have href := ref_of_find? hf
    rw [List.inj_on_of_nodup_map h.refs_nodup (mem_of_find? hf) hr href]

theorem register {g : Graph} {ref : Ref} {name unique : String} {grown : Graph}
    (h : g.WellFormed) (hr : g.register ref name = .ok (unique, grown)) :
    grown.WellFormed := by
  obtain ⟨-, ⟨r, -, -, rfl⟩ | ⟨hf, rfl, rfl⟩⟩ := register_cases hr
  · exact h
  · -- the names of resources are those handed out, so the next one is new among them
    have hfresh : g.names.next name ∉ g.resources.map Resource.name := by
      have := NameRegistry.next_not_mem_issued g.names name
      rwa [h.issued, List.mem_reverse] at this
    -- and a resource of the same identity would have been found
    have hnew : ref ∉ g.resources.map Resource.ref := by
      intro hmem
      obtain ⟨r, hr, href⟩ := List.mem_map.1 hmem
      exact find?_eq_none.1 hf r hr href
    refine ⟨?_, ?_, ?_, ?_⟩
    · simp [h.issued]
    · simpa [List.nodup_append] using ⟨h.names_nodup, fun r hr heq =>
        hfresh (List.mem_map.2 ⟨r, hr, heq⟩)⟩
    · simpa [List.nodup_append] using ⟨h.refs_nodup, fun r hr heq =>
        hnew (List.mem_map.2 ⟨r, hr, heq⟩)⟩
    · intro e he
      exact List.mem_append_left _ (h.source_mem e he)

/-- What a graph stores for given references starts at its resources. -/
theorem source_mem_of_records {g : Graph} {given stored : List Edge}
    (hall : List.Forall₂ g.Records given stored) : ∀ e ∈ stored, e.source ∈ g.resources := by
  intro e he
  obtain ⟨i, hi, rfl⟩ := List.mem_iff_getElem.1 he
  have hrec := hall.get (by rw [hall.length_eq]; exact hi) hi
  obtain ⟨-, r, hf, hedge, -⟩ := addEdge_eq_ok_iff.1 hrec
  simp only [List.get_eq_getElem] at hedge
  rw [hedge]
  exact mem_of_find? hf

theorem addEdges {g : Graph} (h : g.WellFormed) (edges : List Edge) :
    (g.addEdges edges).2.WellFormed := by
  rcases addEdges_cases g edges with ⟨stored, hall, heq⟩ |
      ⟨before, refused, after, stored, fault, -, hall, -, heq⟩
  · rw [heq]
    exact h.extend (source_mem_of_records hall)
  · rw [heq]
    exact h.extend (source_mem_of_records hall)

theorem close {g : Graph} (h : g.WellFormed) : g.close.graph.WellFormed :=
  ⟨h.issued, h.names_nodup, h.refs_nodup, h.source_mem⟩

end WellFormed

end Graph
end HclExport
