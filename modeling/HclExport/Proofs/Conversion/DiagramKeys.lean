import HclExport.Proofs.Conversion.Block
import HclExport.Proofs.Conversion.Requests
import HclExport.Proofs.Conversion.Tidy
import HclExport.Proofs.Hcl.Quoted
import HclExport.Proofs.Resource.FreshName
import HclExport.Proofs.Sorting

/-!
# The keys of a diagram

The nodes of a diagram are written as a map, and so are its edges. The key of an element is its id.
An element without an id has a key that is made of its position; such elements come first, so these
keys are numbered from zero on, and nothing keeps them apart from the ids of other elements.

## Main definitions

* `Hcl.Item.headersAt` — the headers of the blocks that stand at a path of keys.
* `givenIds`, `namelessCount` — the ids of elements, and how many have none.
* `positionKey`, `elementKeys` — a key that is made of a position, and the keys of elements.

## Main results

* `mapIdx_elementKey_sortOn` — the keys of elements in the order of their ids.
* `nodup_elementKeys_iff` — when no two elements share a key.
* `Converter.flow_elementKeys` — **the keys in the maps of nodes and edges.**
-/

namespace HclExport

open Hcl (Item)

/-! ### Blocks at a path of keys -/

namespace Hcl.Item

/-- The headers of the blocks among some items. -/
def headers (items : List Item) : List String :=
  items.filterMap fun item => match item with
    | .block header _ _ _ => some header
    | _ => none

/-- What stands in the objects under a key. -/
def inside (key : String) (items : List Item) : List Item :=
  items.flatMap fun item => match item with
    | .block header _ _ body => if header = key ++ " =" then body else []
    | _ => []

/-- The headers of the blocks that stand at a path of keys. -/
def headersAt : List String → List Item → List String
  | [], items => headers items
  | key :: path, items => headersAt path (inside key items)

theorem headers_object_cons (key : String) (body rest : List Item) :
    headers (object key body :: rest) = (key ++ " =") :: headers rest := rfl

theorem inside_blank_cons (key : String) (rest : List Item) :
    inside key (.blank :: rest) = inside key rest := rfl

theorem inside_block_of_ne {key header : String} (h : header ≠ key ++ " =") (opener closer : String)
    (body : List Item) : inside key [.block header opener closer body] = [] := by
  simp [inside, h]

theorem inside_append (key : String) (items more : List Item) :
    inside key (items ++ more) = inside key items ++ inside key more :=
  List.flatMap_append

theorem inside_object_self (key : String) (body : List Item) :
    inside key [object key body] = body := by
  simp [inside, object, braced]

end Hcl.Item

/-! ### Keys of elements -/

/-- The ids of some elements, of those that have one. -/
def givenIds (elements : List Members) : List String :=
  (elements.map elementId).filter fun id => id ≠ ""

/-- How many elements have no id. -/
def namelessCount (elements : List Members) : Nat :=
  elements.countP fun element => elementId element = ""

/-- A key that is made of a position. -/
def positionKey (word : String) (index : Nat) : String :=
  word ++ "_" ++ toString index

/-- The keys of some elements: numbered ones for those without an id, and the ids in order. -/
def elementKeys (word : String) (elements : List Members) : List String :=
  (List.range (namelessCount elements)).map (positionKey word) ++ sortOn id (givenIds elements)

theorem positionKey_injective (word : String) : Function.Injective (positionKey word) :=
  NameRegistry.variant_injective word

theorem empty_le (s : String) : "" ≤ s :=
  fun h => List.not_lt_nil _ h

/-- Elements without an id come first. -/
theorem sortOn_elementId (elements : List Members) :
    sortOn elementId elements =
      (elements.filter fun e => elementId e = "") ++
        sortOn elementId (elements.filter fun e => elementId e ≠ "") := by
  refine eq_of_filter (sortOn_pairwise elementId _) ?_ fun k => ?_
  · have hle : ∀ e ∈ elements.filter (fun e => elementId e = ""), ∀ other, elementId e ≤ other := by
      intro e he other
      rw [of_decide_eq_true (List.mem_filter.1 he).2]
      exact empty_le other
    refine List.pairwise_append.2 ⟨?_, sortOn_pairwise _ _, fun e he other _ => hle e he _⟩
    exact List.pairwise_of_forall_mem_list fun e he other _ => hle e he _
  · rw [List.filter_append, filter_sortOn, filter_sortOn, List.filter_filter, List.filter_filter]
    by_cases hk : k = ""
    · subst hk
      simp
    · have hnone : elements.filter
          (fun e => decide (elementId e = k) && decide (elementId e = "")) = [] := by
        refine List.filter_eq_nil_iff.2 fun e _ he => ?_
        obtain ⟨hkey, hempty⟩ := Bool.and_eq_true_iff.1 he
        exact hk ((of_decide_eq_true hkey).symm.trans (of_decide_eq_true hempty))
      rw [hnone, List.nil_append]
      refine List.filter_congr fun e _ => ?_
      by_cases he : elementId e = k
      · simp [he, hk]
      · simp [he]

theorem mapIdx_elementKey_of_nameless (word : String) {elements : List Members}
    (h : ∀ e ∈ elements, elementId e = "") :
    elements.mapIdx (elementKey word) = (List.range elements.length).map (positionKey word) := by
  refine List.ext_getElem (by simp) fun index hleft _ => ?_
  rw [List.length_mapIdx] at hleft
  rw [List.getElem_mapIdx, List.getElem_map, List.getElem_range, elementKey,
    if_pos (h _ (List.getElem_mem hleft))]
  rfl

theorem mapIdx_elementKey_of_named (word : String) (position : Nat → Nat) {elements : List Members}
    (h : ∀ e ∈ elements, elementId e ≠ "") :
    elements.mapIdx (fun index => elementKey word (position index)) = elements.map elementId := by
  refine List.ext_getElem (by simp) fun index hleft _ => ?_
  rw [List.length_mapIdx] at hleft
  rw [List.getElem_mapIdx, List.getElem_map, elementKey, if_neg (h _ (List.getElem_mem hleft))]

/-- The keys of elements in the order of their ids. -/
theorem mapIdx_elementKey_sortOn (word : String) (elements : List Members) :
    (sortOn elementId elements).mapIdx (elementKey word) = elementKeys word elements := by
  have hnameless : ∀ e ∈ elements.filter (fun e => elementId e = ""), elementId e = "" :=
    fun e he => of_decide_eq_true (List.mem_filter.1 he).2
  have hnamed : ∀ e ∈ sortOn elementId (elements.filter fun e => elementId e ≠ ""),
      elementId e ≠ "" :=
    fun e he => of_decide_eq_true (List.mem_filter.1 (mem_sortOn.1 he)).2
  have hids : givenIds elements = (elements.filter fun e => elementId e ≠ "").map elementId :=
    List.filter_map
  rw [sortOn_elementId, List.mapIdx_append, mapIdx_elementKey_of_nameless word hnameless,
    mapIdx_elementKey_of_named word _ hnamed, ← List.countP_eq_length_filter, elementKeys, hids,
    sortOn_map]
  rfl

theorem length_elementKeys (word : String) (elements : List Members) :
    (elementKeys word elements).length = elements.length := by
  rw [← mapIdx_elementKey_sortOn, List.length_mapIdx, (sortOn_perm elementId elements).length_eq]

/-- No two elements share a key if and only if no two share an id and no id is one of the keys that
are made of positions. -/
theorem nodup_elementKeys_iff (word : String) (elements : List Members) :
    (elementKeys word elements).Nodup ↔
      (givenIds elements).Nodup ∧
        ∀ index < namelessCount elements, positionKey word index ∉ givenIds elements := by
  have hpositions : ((List.range (namelessCount elements)).map (positionKey word)).Nodup :=
    List.nodup_range.map (positionKey_injective word)
  unfold elementKeys
  rw [List.nodup_append, (sortOn_perm id _).nodup_iff]
  constructor
  · rintro ⟨-, hids, hapart⟩
    refine ⟨hids, fun index hindex hmem => ?_⟩
    exact hapart _ (List.mem_map_of_mem (List.mem_range.2 hindex)) _ (mem_sortOn.2 hmem) rfl
  · rintro ⟨hids, hapart⟩
    refine ⟨hpositions, hids, ?_⟩
    intro key hkey other hother heq
    obtain ⟨index, hindex, rfl⟩ := List.mem_map.1 hkey
    exact hapart index (List.mem_range.1 hindex) (heq ▸ mem_sortOn.1 hother)

/-! ### What is written -/

section Written

variable (source : Resource) (answer : Request → Hcl.Expression)

/-- The header of the block under a key. -/
def keyHeader (key : String) : String :=
  Hcl.quote key ++ " ="

theorem keyHeader_injective : Function.Injective keyHeader := by
  intro key other h
  exact Hcl.quote_injective ((String.append_left_inj " =").1 h)

theorem ensures_nodeItem (index : Nat) (node : Members) :
    (nodeItem source index node).Ensures answer fun item =>
      ∃ body, item = .object (Hcl.quote (elementKey "node" index node)) body := by
  unfold nodeItem
  dsimp only
  split
  · exact .pure ⟨_, rfl⟩
  · exact .bind fun _ _ => .pure ⟨_, rfl⟩

theorem ensures_nodeItems (index : Nat) (nodes : List Members) :
    (nodeItems source index nodes).Ensures answer fun items =>
      Item.headers items = (nodes.mapIdx fun i => elementKey "node" (index + i)).map keyHeader := by
  induction nodes generalizing index with
  | nil => exact .pure rfl
  | cons node rest ih =>
    refine .bind fun item hitem => .bind fun items hitems => .pure ?_
    obtain ⟨body, rfl⟩ := ensures_nodeItem source answer index node item hitem
    rw [Item.headers_object_cons, ih _ items hitems, List.mapIdx_cons, List.map_cons]
    simp only [Nat.add_zero, Nat.add_assoc, Nat.add_comm 1]
    rfl

theorem headers_edges (edges : List Members) (index : Nat) :
    Item.headers (edges.mapIdx fun i => edgeItem (index + i)) =
      (edges.mapIdx fun i => elementKey "edge" (index + i)).map keyHeader := by
  induction edges generalizing index with
  | nil => rfl
  | cons edge rest ih =>
    have hrest := ih (index + 1)
    simp only [Nat.add_assoc, Nat.add_comm 1] at hrest
    rw [List.mapIdx_cons, List.mapIdx_cons, List.map_cons, ← hrest]
    rfl

theorem headersAt_edgesItem (items : List Json) :
    Item.headersAt ["edges"] [edgesItem (sortElements items)] =
      (elementKeys "edge" (items.filterMap Json.members?)).map keyHeader := by
  rw [← mapIdx_elementKey_sortOn]
  unfold edgesItem
  split
  next hempty =>
    rw [show sortOn elementId (items.filterMap Json.members?) = [] from
      List.isEmpty_iff.1 hempty]
    rfl
  next =>
    have hedges := headers_edges (sortElements items) 0
    simp only [Nat.zero_add] at hedges
    unfold Item.headersAt Item.headersAt
    rw [Item.inside_object_self]
    exact hedges

theorem inside_edgesItem (edges : List Members) : Item.inside "nodes" [edgesItem edges] = [] := by
  unfold edgesItem
  split
  · rfl
  · exact Item.inside_block_of_ne (by decide) _ _ _

/-- The maps of a diagram, and the words for what they hold. -/
def diagramMaps : List (String × String) :=
  [("nodes", "node"), ("edges", "edge")]

/-- The map of edges, which is not there if the edges are no list. -/
theorem inside_edgeGroup (elements : Members) :
    let group := match elements.get "edges" with
      | .arr items => [edgesItem (sortElements items)]
      | _ => []
    Item.inside "nodes" group = [] ∧
      Item.headersAt ["edges"] group =
        (elementKeys "edge" (elements.objects "edges")).map keyHeader := by
  unfold Members.objects
  cases elements.get "edges" with
  | arr items => exact ⟨inside_edgesItem _, headersAt_edgesItem items⟩
  | _ => exact ⟨rfl, rfl⟩

theorem ensures_elementGroups (elements : Members) :
    (elementGroups source elements).Ensures answer fun items =>
      ∀ map ∈ diagramMaps, Item.headersAt [map.1] items =
        (elementKeys map.2 (elements.objects map.1)).map keyHeader := by
  obtain ⟨hnone, hedges⟩ := inside_edgeGroup elements
  -- with the map of nodes in front, which holds no edges
  have hmaps : ∀ nodes : List Item, Item.inside "edges" nodes = [] →
      Item.headersAt ["nodes"] nodes =
        (elementKeys "node" (elements.objects "nodes")).map keyHeader →
      ∀ map ∈ diagramMaps, Item.headersAt [map.1] (nodes ++ match elements.get "edges" with
        | .arr items => [edgesItem (sortElements items)]
        | _ => []) = (elementKeys map.2 (elements.objects map.1)).map keyHeader := by
    intro nodes hinside hnodes map hmap
    rcases List.mem_pair.1 hmap with rfl | rfl
    · rw [← hnodes]
      unfold Item.headersAt
      rw [Item.inside_append, hnone, List.append_nil]
    · rw [← hedges]
      unfold Item.headersAt
      rw [Item.inside_append, hinside, List.nil_append]
  unfold elementGroups
  dsimp only
  cases hget : elements.get "nodes" with
  | arr items =>
    refine .bind fun body hbody => .pure (hmaps [.object "nodes" body] ?_ ?_)
    · exact Item.inside_block_of_ne (by decide) _ _ _
    · have hheaders := ensures_nodeItems source answer 0 _ body hbody
      simp only [Nat.zero_add] at hheaders
      unfold Item.headersAt Item.headersAt Members.objects
      rw [Item.inside_object_self, hheaders, hget, ← mapIdx_elementKey_sortOn]
      rfl
  | _ => exact .pure (hmaps [] rfl (by rw [Members.objects, hget]; rfl))

/-! The other parts of a diagram hold no elements. -/

theorem inside_encodedItems (diagram : Members) (key : String) :
    Item.inside "elements" (encodedItems diagram key) = [] := by
  unfold encodedItems
  cases diagram.get key <;> rfl

theorem inside_panItems (diagram : Members) :
    Item.inside "elements" (match diagram.get "pan" with
      | .obj members => [Item.blank, positionItem "pan" members]
      | _ => []) = [] := by
  cases diagram.get "pan" with
  | obj members =>
    rw [Item.inside_blank_cons]
    exact Item.inside_block_of_ne (by decide) _ _ _
  | _ => rfl

theorem inside_rendererItems (diagram : Members) :
    Item.inside "elements" (match encodedItems diagram "renderer" with
      | [] => []
      | items => Item.blank :: items) = [] := by
  have hrenderer := inside_encodedItems diagram "renderer"
  cases hitems : encodedItems diagram "renderer" with
  | nil => rfl
  | cons item rest =>
    rw [hitems] at hrenderer
    exact hrenderer

theorem inside_viewItems {diagram : Members} {items : List Item}
    (h : viewItems diagram = .ok items) : Item.inside "elements" items = [] := by
  unfold viewItems at h
  cases hzoom : integerPair diagram "zoom" "zoom" with
  | error failure =>
    rw [hzoom] at h
    cases h
  | ok zoom =>
    rw [hzoom] at h
    obtain rfl := Except.ok.inj h
    split <;> rfl

theorem ensures_diagramBody (diagram : Members) :
    (diagramBody source diagram).Ensures answer fun items =>
      ∀ map ∈ diagramMaps, Item.headersAt ["elements", map.1] items =
        (elementKeys map.2 ((diagram.inner "elements").objects map.1)).map keyHeader := by
  have hparts : ∀ elements view : List Item, viewItems diagram = .ok view →
      (∀ map ∈ diagramMaps, Item.headersAt [map.1] (Item.inside "elements" elements) =
        (elementKeys map.2 ((diagram.inner "elements").objects map.1)).map keyHeader) →
      ∀ map ∈ diagramMaps, Item.headersAt ["elements", map.1]
          (encodedItems diagram "data" ++ elements ++
            (match diagram.get "pan" with
              | .obj members => [Item.blank, positionItem "pan" members]
              | _ => []) ++ view ++
            (match encodedItems diagram "renderer" with
              | [] => []
              | items => Item.blank :: items)) =
        (elementKeys map.2 ((diagram.inner "elements").objects map.1)).map keyHeader := by
    intro elements view hview hkeys map hmap
    rw [← hkeys map hmap, Item.headersAt, Item.inside_append, Item.inside_append,
      Item.inside_append, Item.inside_append, inside_encodedItems, inside_panItems,
      inside_viewItems hview, inside_rendererItems, List.nil_append, List.append_nil,
      List.append_nil, List.append_nil]
  unfold diagramBody
  dsimp only
  cases hget : diagram.get "elements" with
  | obj elements =>
    refine .bind fun groups hgroups => .bind fun items hitems => .bind fun view hview =>
      .pure (hparts _ view hview ?_)
    obtain rfl := Except.ok.inj hitems
    rw [Item.inside_object_self, Members.inner, hget]
    exact ensures_elementGroups source answer elements groups hgroups
  | _ =>
    refine .bind fun items hitems => .bind fun view hview => .pure (hparts _ view hview ?_)
    obtain rfl := Except.ok.inj hitems
    rw [Members.inner, hget]
    exact fun _ _ => rfl

/-- The objects of a list in the diagram of a flow. -/
def elementsOf (document : Members) (group : String) : List Members :=
  ((document.inner "graphData").inner "elements").objects group

theorem ensures_diagramItems (document : Members) :
    (diagramItems source document).Ensures answer fun items =>
      ∀ map ∈ diagramMaps, Item.headersAt ["graph_data", "elements", map.1] items =
        (elementKeys map.2 (elementsOf document map.1)).map keyHeader := by
  unfold diagramItems elementsOf
  cases hget : document.get "graphData" with
  | obj diagram =>
    refine .bind fun body hbody => .pure ?_
    rw [Members.inner_of_get hget]
    intro map hmap
    rw [← ensures_diagramBody source answer diagram body hbody map hmap, Item.headersAt,
      Item.inside_blank_cons, Item.inside_object_self]
  | _ =>
    have hinner : document.inner "graphData" = [] := by
      rw [Members.inner, hget]
      rfl
    rw [hinner]
    exact .pure fun _ _ => rfl

end Written

/-! ### Whole flows -/

/-- What holds no diagram. -/
def HoldsNoDiagram (items : List Item) : Prop :=
  Item.inside "graph_data" items = []

theorem holdsNoDiagram_behindBlank {header : String} (h : header ≠ "graph_data =")
    (opener closer : String) (body : List Item) :
    HoldsNoDiagram [.blank, .block header opener closer body] :=
  Item.inside_block_of_ne h opener closer body

theorem holdsNoDiagram_settingsItems (document : Members) :
    Yields (settingsItems document) HoldsNoDiagram := by
  unfold settingsItems
  dsimp only
  split
  · exact .ok rfl
  · refine .bind_any fun pairs => .bind_any fun scripts => .ok ?_
    exact holdsNoDiagram_behindBlank (by decide) _ _ _

theorem holdsNoDiagram_inputSchemaItems (document : Members) :
    Yields (inputSchemaItems document) HoldsNoDiagram := by
  unfold inputSchemaItems
  refine .bind_any fun entries => ?_
  split
  · exact .ok rfl
  · exact .ok (holdsNoDiagram_behindBlank (by decide) _ _ _)

theorem holdsNoDiagram_outputSchemaItems (document : Members) :
    HoldsNoDiagram (outputSchemaItems document) := by
  unfold outputSchemaItems
  dsimp only
  split
  · rfl
  · exact holdsNoDiagram_behindBlank (by decide) _ _ _

theorem yields_triggerItem_object (trigger : Members) :
    Yields (triggerItem trigger) fun item => ∃ body, item = .object "trigger" body := by
  unfold triggerItem
  dsimp only
  split
  · exact .ok ⟨_, rfl⟩
  · exact .bind_any fun mfa => .bind_any fun password => .ok ⟨_, rfl⟩

theorem holdsNoDiagram_flowTrigger (document : Members) :
    Yields (flowTrigger document) HoldsNoDiagram := by
  unfold flowTrigger
  split
  next trigger _ =>
    refine (yields_triggerItem_object trigger).bind fun item hitem => .ok ?_
    obtain ⟨body, rfl⟩ := hitem
    exact holdsNoDiagram_behindBlank (by decide) _ _ _
  next => exact .ok rfl

/-- The maps in the block of a flow are those of its diagram. -/
theorem ensures_flow_headersAt (context : Context) (document : Members)
    (answer : Request → Hcl.Expression) :
    (draftFlow context document).Ensures answer fun block =>
      ∃ body rest, block.IsMadeOf ((Kind.flow.type, body) :: rest) ∧
        ∀ map ∈ diagramMaps, Item.headersAt ["graph_data", "elements", map.1] body =
          (elementKeys map.2 (elementsOf document map.1)).map keyHeader := by
  refine .bind fun name _ => .bind fun id _ => .bind fun enabled _ => .bind fun unique _ => ?_
  refine .bind fun settings hsettings => .bind fun diagram hdiagram => .bind fun schema hschema =>
    .bind fun trigger htrigger => .bind fun version _ => .pure ?_
  refine ⟨_, [(flowEnableType, _), (flowDeployType, _)], ⟨rfl, rfl⟩, ?_⟩
  have hsettings : HoldsNoDiagram settings := holdsNoDiagram_settingsItems document _ hsettings
  have hschema : HoldsNoDiagram schema := holdsNoDiagram_inputSchemaItems document _ hschema
  have htrigger : HoldsNoDiagram trigger := holdsNoDiagram_flowTrigger document _ htrigger
  have houtput := holdsNoDiagram_outputSchemaItems document
  unfold HoldsNoDiagram at hsettings hschema htrigger houtput
  intro map hmap
  rw [← ensures_diagramItems _ answer document diagram hdiagram map hmap, Item.headersAt,
    Item.inside_append, Item.inside_append, Item.inside_append, Item.inside_append,
    Item.inside_append, hsettings, hschema, houtput, htrigger, List.append_nil, List.append_nil,
    List.append_nil, List.append_nil]
  rfl

theorem Converter.flow_headersAt {context : Context} {document : Members}
    {ledger after : Ledger} {block : Block}
    (h : (Converter.flow.convert context document).run ledger = (.ok block, after)) :
    ∃ body rest, block.IsMadeOf ((Kind.flow.type, body) :: rest) ∧
      ∀ map ∈ diagramMaps, Item.headersAt ["graph_data", "elements", map.1] body =
        (elementKeys map.2 (elementsOf document map.1)).map keyHeader :=
  Converter.of_run_convert h (ensures_flow_headersAt context document _)

/-- **The keys in the maps of nodes and edges.** The block of a flow holds one key for every object
among the nodes of its document and one for every object among the edges: the ids of those that have
one, in order, behind numbered keys for those that have none. So no two elements share a key if and
only if no two share an id and no id is one of the numbered keys. -/
theorem Converter.flow_elementKeys {context : Context} {document : Members}
    {ledger after : Ledger} {block : Block}
    (h : (Converter.flow.convert context document).run ledger = (.ok block, after)) :
    ∃ body rest, block.IsMadeOf ((Kind.flow.type, body) :: rest) ∧
      ∀ map ∈ diagramMaps,
        let elements := elementsOf document map.1
        let keys := Item.headersAt ["graph_data", "elements", map.1] body
        keys = (elementKeys map.2 elements).map keyHeader ∧
        keys.length = elements.length ∧
        (keys.Nodup ↔ (givenIds elements).Nodup ∧
          ∀ index < namelessCount elements, positionKey map.2 index ∉ givenIds elements) := by
  obtain ⟨body, rest, hmade, hheaders⟩ := Converter.flow_headersAt h
  refine ⟨body, rest, hmade, fun map hmap => ?_⟩
  dsimp only
  rw [hheaders map hmap]
  refine ⟨rfl, ?_, ?_⟩
  · rw [List.length_map, length_elementKeys]
  · rw [List.nodup_map_iff keyHeader_injective, nodup_elementKeys_iff]

/-- A flow in which an element of each list has no id, and another has a key for its id. -/
def numberedFlow : Members :=
  [("id", .str "f"), ("name", .str "F"),
   ("graphData", .obj [("elements", .obj
     [("nodes", .arr
       [.obj [("data", .obj [("name", .str "first")])],
        .obj [("data", .obj [("id", .str "node_0")])]]),
      ("edges", .arr [.obj [("data", .obj [("id", .str "edge_1")])], .obj []])])])]

/-- A context in which that flow is registered. -/
def numberedContext : Context where
  graph := Graph.close { resources := [⟨⟨.flow, "f"⟩, "pingcli__F"⟩] }

/-- The edges of that flow have different keys. -/
theorem Converter.flow_elementKeys_numberedFlow :
    ∃ block after body rest,
      (Converter.flow.convert numberedContext numberedFlow).run {} = (.ok block, after) ∧
      block.IsMadeOf ((Kind.flow.type, body) :: rest) ∧
      (Item.headersAt ["graph_data", "elements", "edges"] body).Nodup := by
  have hrun : ∃ block after,
      (Converter.flow.convert numberedContext numberedFlow).run {} = (.ok block, after) :=
    ⟨_, _, rfl⟩
  obtain ⟨block, after, h⟩ := hrun
  obtain ⟨body, rest, hmade, hkeys⟩ := Converter.flow_elementKeys h
  obtain ⟨-, -, hnodup⟩ := hkeys ("edges", "edge") (by decide)
  exact ⟨block, after, body, rest, h, hmade, hnodup.2 (by decide)⟩

/-- Its nodes share a key, although no two of them share an id. -/
theorem Converter.flow_nodes_share_key :
    ∃ block after body rest,
      (Converter.flow.convert numberedContext numberedFlow).run {} = (.ok block, after) ∧
      block.IsMadeOf ((Kind.flow.type, body) :: rest) ∧
      (givenIds (elementsOf numberedFlow "nodes")).Nodup ∧
      Item.headersAt ["graph_data", "elements", "nodes"] body =
        ["\"node_0\" =", "\"node_0\" ="] := by
  have hrun : ∃ block after,
      (Converter.flow.convert numberedContext numberedFlow).run {} = (.ok block, after) :=
    ⟨_, _, rfl⟩
  obtain ⟨block, after, h⟩ := hrun
  obtain ⟨body, rest, hmade, hheaders⟩ := Converter.flow_headersAt h
  refine ⟨block, after, body, rest, h, hmade, by decide, ?_⟩
  rw [hheaders ("nodes", "node") (by decide)]
  decide +kernel

end HclExport
