import HclExport.Proofs.Conversion.Composed
import HclExport.Proofs.Conversion.Requests
import HclExport.Proofs.Conversion.TidyBlock
import HclExport.Proofs.Hcl.Outline

/-!
# The unfinished places of a block

The block of a document is put together of what is always the same and of texts that the document
tells, with one unfinished place for each reference that leads nowhere and one for a variable
without a value.

## Main definitions

* `HasDistinctProperties` — no node of a flow has two properties of one name.
* `Block.LacksValue` — a block of a variable is written without a value.
* `Block.Composes` — the text of a block is put together in this way.

## Main results

* `leaves_nodePropertyItems` — references among the properties of a node.
* `leaves_diagramItems` — the diagram of a flow.
* `Kind.leaves_draft` — **the unfinished places of a block.**
-/

namespace HclExport

open Hcl (Item Value)
open Draft (Leaves)

/-! ### Diagrams -/

section Elements

variable {T : String → Prop} {element : Members}

theorem writes_positionItem {name : String} (hname : IsWord name) (position : Members) :
    Writes T [positionItem name position] [] :=
  .object (.word hname) (.assigns (InRow.front (writesPairs_numberPair _ (by decide))
    (writesPairs_numberPair _ (by decide))))

theorem writes_elementItems (helement : Told T (.obj element)) :
    Writes T (elementItems element) [] := by
  have hflags : ∀ flag ∈ elementFlags, IsWord flag := by decide
  have hclasses : WritesPairs T [("classes", Hcl.quote (element.text "classes"))] [] :=
    writesPairs_singleton (by decide) (.quote_text helement _)
  have hpairs : WritesPairs T (textPair element "group" "group" ++
      elementFlags.flatMap (fun flag => flagPair element flag flag) ++
      [("classes", Hcl.quote (element.text "classes"))]) [] :=
    InRow.front (InRow.front (writesPairs_textPair helement _ (by decide))
      (.flatMap fun flag hflag => writesPairs_flagPair _ (hflags flag hflag))) hclasses
  unfold elementItems
  refine Writes.back ?_ (.assignAll hpairs)
  split
  · exact writes_positionItem (by decide) _
  · exact .nil

/-- The key of an element is its id, or a word with its position. -/
theorem composed_elementKey (helement : Told T (.obj element)) {word : String} (hword : IsWord word)
    (index : Nat) : Composed T (Hcl.quote (elementKey word index element)) [] := by
  unfold elementKey
  split
  · exact .quote_word ((hword.append (by decide)).append (isLegalText_toString_nat index).isWord)
  · exact .quote_text (helement.inner "data") _

theorem writes_edgeItem (helement : Told T (.obj element)) (index : Nat) :
    Writes T [edgeItem index element] [] := by
  have hkeys : ∀ key ∈ ["id", "source", "target"], IsWord key := by decide
  have hdata : Writes T (if (element.inner "data").isEmpty then [] else
      [Item.object "data" [.assignAll
        (["id", "source", "target"].flatMap fun key => textPair (element.inner "data") key key)]])
      [] := by
    split
    · exact .nil
    · exact .object (.word (by decide)) (.assignAll (.flatMap fun key hkey =>
        writesPairs_textPair (helement.inner "data") _ (hkeys key hkey)))
  exact .object (composed_elementKey helement (by decide) index)
    (hdata.append (writes_elementItems helement))

theorem writes_edgesItem {edges : List Members} (h : ∀ edge ∈ edges, Told T (.obj edge)) :
    Writes T [edgesItem edges] [] := by
  unfold edgesItem
  split
  · exact .assign (.word (by decide)) (.plain (by decide))
  · refine .object (.word (by decide)) (.of_inRow (.of_forall fun item hitem => ?_))
    obtain ⟨index, hindex, rfl⟩ := List.mem_mapIdx.1 hitem
    exact writes_edgeItem (h _ (List.getElem_mem hindex)) index

theorem yields_writes_viewItems (diagram : Members) :
    Yields (viewItems diagram) fun items => Writes T items [] := by
  have hflags : ∀ flag ∈ diagramFlags, IsWord flag.2 := by decide
  unfold viewItems
  refine (yields_writesPairs_integerPair (T := T) _ (by decide)).bind fun zoom hzoom => .ok ?_
  split
  · exact .nil
  · exact .behindBlank (.assignAll (InRow.front (InRow.front
      (InRow.front hzoom (writesPairs_numberPair _ (by decide)))
      (writesPairs_numberPair _ (by decide)))
      (.flatMap fun flag hflag => writesPairs_flagPair _ (hflags flag hflag))))

theorem writes_encodedItems {diagram : Members} (hdiagram : Told T (.obj diagram)) {key : String}
    (hkey : IsWord key) : Writes T (encodedItems diagram key) [] := by
  have hget := hdiagram.get key
  unfold encodedItems
  split
  next members hmembers =>
    rw [hmembers] at hget
    have hvalue := Value.composes_ofJson hget
    unfold Value.ofJson at hvalue
    exact .json (.word hkey) hvalue
  next => exact .nil

end Elements

section References

variable {T : String → Prop} {context : Context} {source : Resource}

theorem leaves_referencePair (haccounts : context.Accounts T) (field : String) {name : String}
    (hname : IsWord name) {id : String} (hid : id = "" ∨ T id) :
    Leaves context (referencePair source field name id) (WritesPairs T) := by
  unfold referencePair
  split
  next => exact .pure .nil
  next hgiven =>
    exact (Leaves.ask haccounts (hid.resolve_left hgiven)).bind_pure fun reference todos h =>
      writesPairs_singleton hname h.render

/-- References that were found among the properties of a node: some of those that are looked for,
each where there is a text. -/
structure FoundAmong (T : String → Prop) (properties : Members)
    (references : List (String × String)) (found : List (String × Hcl.Expression))
    (todos : List Todo) : Prop where
  row : InRow (fun reference => Remarked T reference.2.text reference.2.remark) found todos
  sublist : (found.map Prod.fst).Sublist (references.map Prod.fst)
  given : ∀ reference ∈ found, properties.text reference.1 ≠ ""

theorem leaves_propertyReferences (haccounts : context.Accounts T) {properties : Members}
    (htold : Told T (.obj properties)) (references : List (String × String)) :
    Leaves context (propertyReferences source properties references)
      (FoundAmong T properties references) := by
  induction references with
  | nil => exact .pure ⟨.nil, .slnil, List.forall_mem_nil _⟩
  | cons reference rest ih =>
    unfold propertyReferences
    dsimp only
    split
    next =>
      intro found hfound
      obtain ⟨hrow, hsublist, hgiven⟩ := ih found hfound
      exact ⟨hrow, hsublist.cons _, hgiven⟩
    next hgiven =>
      refine (Leaves.ask haccounts (htold.text_of_ne hgiven)).bind fun e todos he =>
        ih.bind_pure fun more places hmore => ?_
      exact ⟨.cons he hmore.row, hmore.sublist.cons_cons _,
        List.forall_mem_cons.2 ⟨hgiven, hmore.given⟩⟩

/-- A property with a reference in its place, if there is one. -/
def linkedMember (references : List (String × Hcl.Expression)) (member : String × Json) :
    String × Value :=
  (member.1, match references.lookup member.1 with
    | some reference => .expr reference
    | none => .ofJson member.2)

/-- References stand in the places of properties of distinct names, each in its own. -/
theorem composes_linkedMembers {found : List (String × Hcl.Expression)} {todos : List Todo}
    (hrow : InRow (fun reference => Remarked T reference.2.text reference.2.remark) found todos)
    (hfound : (found.map Prod.fst).Nodup) {properties : Members}
    (htold : Told T (.obj properties)) (hnames : (properties.map Prod.fst).Nodup)
    (hsubset : found.map Prod.fst ⊆ properties.map Prod.fst) :
    InRow (fun member places => Composed T (Hcl.quote member.1) [] ∧ member.2.Composes T places)
      (properties.map (linkedMember found)) todos := by
  obtain ⟨each, hall, hflat⟩ := hrow
  refine InRow.perm_right ?_ hflat
  clear hflat
  induction hall generalizing properties with
  | nil =>
    refine .of_forall (List.forall_mem_map.2 fun member hmember => ?_)
    exact ⟨.quote (htold.name hmember), Value.composes_ofJson (htold.value hmember)⟩
  | @cons reference places rest others hreference _ ih =>
    obtain ⟨key, e⟩ := reference
    obtain ⟨hkey, hrest⟩ := List.nodup_cons.1 hfound
    obtain ⟨hmem, hothers⟩ := List.cons_subset.1 hsubset
    obtain ⟨⟨key, value⟩, hmember, rfl⟩ := List.mem_map.1 hmem
    -- the property that the first reference replaces is taken out of the others
    obtain ⟨before, after, rfl⟩ := List.append_of_mem hmember
    have hperm : (before ++ (key, value) :: after).Perm ((key, value) :: (before ++ after)) :=
      List.perm_middle
    have hnames' := (hperm.map Prod.fst).nodup_iff.1 hnames
    rw [List.map_cons, List.nodup_cons] at hnames'
    have hmembers : ∀ member ∈ before ++ after,
        linkedMember ((key, e) :: rest) member = linkedMember rest member := by
      intro member hmember
      have hname := List.mem_map_of_mem (f := Prod.fst) hmember
      have hne : member.1 ≠ key := fun heq => hnames'.1 (heq ▸ hname)
      unfold linkedMember
      rw [List.lookup_cons, beq_false_of_ne hne]
    have hfirst : linkedMember ((key, e) :: rest) (key, value) = (key, .expr e) := by
      unfold linkedMember
      rw [List.lookup_cons_self]
    have htold' : Told T (.obj (before ++ after)) :=
      htold.subset fun member hin => hperm.mem_iff.2 (List.mem_cons_of_mem _ hin)
    have hmore := ih hrest htold' hnames'.2 fun name hname => by
      have hin := (hperm.map Prod.fst).subset (hothers hname)
      rw [List.map_cons, List.mem_cons] at hin
      exact hin.resolve_left fun heq => hkey (heq ▸ hname)
    refine InRow.perm_left ?_ (hperm.map _)
    rw [List.map_cons, hfirst, List.map_congr_left hmembers]
    exact .cons ⟨.quote (htold.name hmember), Value.composes_expr hreference⟩ hmore

/-- The properties of a node, with references in the places of those that are found. -/
theorem leaves_nodePropertyItems (haccounts : context.Accounts T) {data : Members}
    (htold : Told T (.obj data)) (hnames : ((data.inner "properties").map Prod.fst).Nodup) :
    Leaves context (nodePropertyItems source data) (Writes T) := by
  have hreferences : (nodeReferences.map Prod.fst).Nodup := by decide
  have hget := htold.get "properties"
  unfold Members.inner at hnames
  unfold nodePropertyItems
  split
  next properties hproperties =>
    rw [hproperties] at hget hnames
    refine (leaves_propertyReferences haccounts hget _).bind_pure fun found todos hfound => ?_
    refine .json (.word (by decide)) (Value.composes_object (composes_linkedMembers hfound.row
      (hfound.sublist.nodup hreferences) hget hnames ?_))
    refine List.forall_mem_map.2 fun reference hreference => ?_
    have hgiven := Members.get?_eq_of_text (hfound.given reference hreference)
    obtain ⟨before, after, hsplit, -⟩ := List.lookup_eq_some_iff.1 hgiven
    rw [show properties = _ from hsplit]
    simp
  next => exact .pure .nil

theorem leaves_nodeDataItem (haccounts : context.Accounts T) {data : Members}
    (htold : Told T (.obj data)) (hnames : ((data.inner "properties").map Prod.fst).Nodup) :
    Leaves context (nodeDataItem source data) fun item => Writes T [item] := by
  have htexts : ∀ {pairs : List (String × String)}, (∀ pair ∈ pairs, IsWord pair.2) →
      WritesPairs T (pairs.flatMap fun pair => textPair data pair.1 pair.2) [] :=
    fun h => .flatMap fun pair hpair => writesPairs_textPair htold _ (h pair hpair)
  refine (leaves_referencePair haccounts _ (by decide) (htold.text _)).bind
    fun connection todos hconnection => (leaves_nodePropertyItems haccounts htold hnames).bind_pure
      fun properties more hproperties => ?_
  exact .object (.word (by decide)) ((Writes.assignAll (InRow.back (InRow.front
    (htexts (by decide)) hconnection) (htexts (by decide)))).append hproperties)

/-- A node that is told, without two properties of one name. -/
structure IsToldNode (T : String → Prop) (node : Members) : Prop where
  told : Told T (.obj node)
  names : (((node.inner "data").inner "properties").map Prod.fst).Nodup

theorem leaves_nodeItem (haccounts : context.Accounts T) {node : Members}
    (hnode : IsToldNode T node) (index : Nat) : Leaves context (nodeItem source index node) fun item => Writes T [item] := by
  have hkey : Composed T (Hcl.quote (elementKey "node" index node)) [] :=
    composed_elementKey hnode.told (by decide) index
  have helement := writes_elementItems hnode.told
  have hdata := hnode.told.inner "data"
  have hnames := hnode.names
  unfold nodeItem
  simp only [pure_bind]
  cases hinner : node.inner "data" with
  | nil => exact .pure (.object hkey (.append .nil helement))
  | cons member rest =>
    rw [hinner] at hdata hnames
    exact (leaves_nodeDataItem haccounts hdata hnames).bind_pure fun item todos hitem =>
      .object hkey (hitem.back helement)

theorem leaves_nodeItems (haccounts : context.Accounts T) {nodes : List Members}
    (hnodes : ∀ node ∈ nodes, IsToldNode T node) (index : Nat) :
    Leaves context (nodeItems source index nodes) (Writes T) := by
  induction nodes generalizing index with
  | nil => exact .pure .nil
  | cons node rest ih =>
    obtain ⟨hnode, hrest⟩ := List.forall_mem_cons.1 hnodes
    unfold nodeItems
    exact (leaves_nodeItem haccounts hnode index).bind fun item todos hitem =>
      (ih hrest (index + 1)).bind_pure fun more places hmore => hitem.cons hmore

theorem mem_sortElements {items : List Json} {element : Members} :
    element ∈ sortElements items ↔ element ∈ items.filterMap Json.members? :=
  (sortOn_perm _ _).mem_iff

theorem leaves_elementGroups (haccounts : context.Accounts T) {elements : Members}
    (htold : Told T (.obj elements))
    (hnames : ∀ node ∈ elements.objects "nodes",
      (((node.inner "data").inner "properties").map Prod.fst).Nodup) :
    Leaves context (elementGroups source elements) (Writes T) := by
  have hedges : ∀ items, elements.get "edges" = .arr items →
      Writes T [edgesItem (sortElements items)] [] := by
    intro items hitems
    have hget := htold.get "edges"
    rw [hitems] at hget
    exact writes_edgesItem fun edge hedge => hget.filterMap_members? edge (mem_sortElements.1 hedge)
  have hget := htold.get "nodes"
  unfold Members.objects at hnames
  unfold elementGroups
  simp only [pure_bind]
  cases hvalue : elements.get "nodes" with
  | arr items =>
    rw [hvalue] at hget hnames
    have hnodes : ∀ node ∈ sortElements items, IsToldNode T node := fun node hnode =>
      have hmem := mem_sortElements.1 hnode
      ⟨hget.filterMap_members? node hmem, hnames node hmem⟩
    refine (leaves_nodeItems haccounts hnodes 0).bind_pure fun nodes todos hnodes =>
      Writes.back (.object (.word (by decide)) hnodes) ?_
    split
    next items hitems => exact hedges items hitems
    next => exact .nil
  | _ =>
    refine .pure (Writes.front .nil ?_)
    split
    next items hitems => exact hedges items hitems
    next => exact .nil

theorem leaves_diagramBody (haccounts : context.Accounts T) {diagram : Members}
    (htold : Told T (.obj diagram))
    (hnames : ∀ node ∈ (diagram.inner "elements").objects "nodes",
      (((node.inner "data").inner "properties").map Prod.fst).Nodup) :
    Leaves context (diagramBody source diagram) (Writes T) := by
  have hpan : ∀ members, Writes T [.blank, positionItem "pan" members] [] := fun members =>
    .behindBlank (writes_positionItem (by decide) members)
  have hrenderer : Writes T (.blank :: encodedItems diagram "renderer") [] :=
    .behindBlank (writes_encodedItems htold (by decide))
  have hdata : Writes T (encodedItems diagram "data") [] := writes_encodedItems htold (by decide)
  have hview := yields_writes_viewItems (T := T) diagram
  have hget := htold.get "elements"
  unfold Members.inner at hnames
  unfold diagramBody
  simp only [pure_bind]
  cases hvalue : diagram.get "elements" with
  | obj elements =>
    rw [hvalue] at hget hnames
    refine (leaves_elementGroups haccounts hget hnames).bind fun groups todos hgroups =>
      .lift_bind hview fun view hview => .pure ?_
    rw [List.append_nil]
    refine (((hdata.front (.object (.word (by decide)) hgroups)).back ?_).back hview).back ?_ <;>
      split
    · exact hpan _
    · exact .nil
    · exact .nil
    · exact hrenderer
  | _ =>
    refine .lift_bind hview fun view hview => .pure ((((hdata.front .nil).back ?_).back
      hview).back ?_) <;> split
    · exact hpan _
    · exact .nil
    · exact .nil
    · exact hrenderer

/-- No node of a flow has two properties of one name. -/
def HasDistinctProperties (document : Members) : Prop :=
  ∀ node ∈ nodesOf document, (((node.inner "data").inner "properties").map Prod.fst).Nodup

instance (document : Members) : Decidable (HasDistinctProperties document) :=
  inferInstanceAs (Decidable (∀ node ∈ nodesOf document,
    (((node.inner "data").inner "properties").map Prod.fst).Nodup))

theorem leaves_diagramItems (haccounts : context.Accounts T) {document : Members}
    (htold : Told T (.obj document)) (hnames : HasDistinctProperties document) :
    Leaves context (diagramItems source document) (Writes T) := by
  have hget := htold.get "graphData"
  unfold HasDistinctProperties nodesOf at hnames
  rw [show document.inner "graphData" = ((document.get "graphData").members?).getD [] from rfl]
    at hnames
  unfold diagramItems
  cases hvalue : document.get "graphData" with
  | obj diagram =>
    rw [hvalue] at hget hnames
    exact (leaves_diagramBody haccounts hget hnames).bind_pure fun body todos hbody =>
      .behindBlank (.object (.word (by decide)) hbody)
  | _ => exact .pure .nil

end References

/-! ### Whole blocks -/

/-- The text of a block is put together of sound parts with given unfinished places. -/
def Block.Composes (T : String → Prop) (block : Block) (todos : List Todo) : Prop :=
  Composed T (trimRight block.hcl ++ "\n") todos

/-- A block of a variable is written without a value. -/
def Block.LacksValue (usesVariables : Bool) (document : Members) (block : Block) : Prop :=
  block.ref.kind = .variable ∧
    valueLine? usesVariables (document.text "dataType") (document.get "value") block.inputs = none

instance (usesVariables : Bool) (document : Members) (block : Block) :
    Decidable (block.LacksValue usesVariables document) :=
  inferInstanceAs (Decidable (block.ref.kind = .variable ∧
    valueLine? usesVariables (document.text "dataType") (document.get "value") block.inputs = none))

/-- The unfinished place of a variable without a value. -/
def Block.valueTodos (usesVariables : Bool) (document : Members) (block : Block) : List Todo :=
  if block.LacksValue usesVariables document then [.value (document.text "dataType")] else []

section Blocks

variable {T : String → Prop}

mutual

/-- A value on one line is put together of what it tells. -/
theorem composed_quoteValue {value : Json} (h : Told T value) :
    Composed T (Hcl.quoteValue value) [] := by
  unfold Hcl.quoteValue
  cases value with
  | null =>
    unfold Json.textBy
    exact .plain (by decide)
  | bool b =>
    unfold Json.textBy
    split
    · exact .plain (by decide)
    · exact .plain (by decide)
  | num n =>
    unfold Json.textBy
    exact .word n.isWord_jsonText
  | str s =>
    unfold Json.textBy
    exact .quote h.str
  | arr items =>
    unfold Json.textBy
    exact ((Composed.plain (by decide)).front (.intercalate (by decide)
      (.of_forall (composed_itemTexts fun item => h.item)))).back (.plain (by decide))
  | obj members =>
    unfold Json.textBy
    exact ((Composed.plain (by decide)).front (.intercalate (by decide)
      (.of_forall (composed_memberTexts fun member hmember =>
        ⟨h.name hmember, h.value hmember⟩)))).back (.plain (by decide))

theorem composed_itemTexts {items : List Json} (h : ∀ item ∈ items, Told T item) :
    ∀ text ∈ Json.itemTextsBy Hcl.quote items, Composed T text [] := by
  cases items with
  | nil => simp [Json.itemTextsBy]
  | cons item rest =>
    obtain ⟨hitem, hrest⟩ := List.forall_mem_cons.1 h
    unfold Json.itemTextsBy
    exact List.forall_mem_cons.2 ⟨composed_quoteValue hitem, composed_itemTexts hrest⟩

theorem composed_memberTexts {members : Members}
    (h : ∀ member ∈ members, T member.1 ∧ Told T member.2) :
    ∀ text ∈ Json.memberTextsBy Hcl.quote members, Composed T text [] := by
  cases members with
  | nil => simp [Json.memberTextsBy]
  | cons member rest =>
    obtain ⟨key, value⟩ := member
    obtain ⟨hmember, hrest⟩ := List.forall_mem_cons.1 h
    unfold Json.memberTextsBy
    exact List.forall_mem_cons.2 ⟨((Composed.quote hmember.1).front (.plain (by decide))).front
      (composed_quoteValue hmember.2), composed_memberTexts hrest⟩

end

theorem composed_environment {context : Context} (h : Told T context.environmentId) :
    Composed T context.environment [] := by
  unfold Context.environment
  split
  · exact composed_quoteValue h
  · exact .word (by decide)

theorem writes_resource {type name : String} (htype : IsWord type) (hname : IsWord name)
    {body : List Item} {todos : List Todo} (h : Writes T body todos) :
    Writes T [Item.braced (Hcl.resourceHeader type name) body] todos := by
  refine .braced ?_ h
  unfold Hcl.resourceHeader
  exact ((((Composed.plain (by decide)).front (.word htype)).front (.plain (by decide))).front
    (.word hname)).front (.plain (by decide))

/-- A block that ends with a resource. -/
theorem Block.composes_of_append {block : Block} (items : List Item) {header : String}
    {body : List Item} {todos : List Todo}
    (hhcl : block.hcl = Item.renderAll (items ++ [Item.braced header body]))
    (h : Writes T (items ++ [Item.braced header body]) todos) : block.Composes T todos := by
  obtain ⟨hrender, htrim⟩ := Item.renderAll_append_braced items header body
  obtain ⟨added, htext, hadded⟩ := h {}
  have hempty : ({} : Hcl.Writer).text = "" := rfl
  unfold Block.Composes
  rw [hhcl, htrim, hrender, htext, hempty, String.empty_append]
  exact hadded

/-- A block that is one resource. -/
theorem Block.composes_of_single {block : Block} {type : String} {body : List Item}
    {todos : List Todo} (htype : IsWord type) (hname : IsWord block.name)
    (hhcl : block.hcl = Item.renderAll [.braced (Hcl.resourceHeader type block.name) body])
    (h : Writes T body todos) : block.Composes T todos :=
  Block.composes_of_append [] hhcl (writes_resource htype hname h)

variable {context : Context} {document : Members}

/-- The id of a document is told by it. -/
theorem told_resourceId {kind : Kind} (htold : Told T (.obj document)) {id : String}
    (h : orFail (resourceId kind document) = .ok id) : T id := by
  rw [orFail_eq_ok_iff] at h
  unfold resourceId at h
  split at h
  next key hkey =>
    have hgiven := List.find?_some hkey
    rw [← Except.ok.inj h]
    exact htold.text_of_ne (by simpa using hgiven)
  next => cases h

theorem quote_requireText {kind : Kind} (htold : Told T (.obj document)) {key label text : String}
    (h : orFail (requireText kind document key label) = .ok text) :
    Composed T (Hcl.quote text) [] := by
  rw [(requireText_eq_ok_iff.1 (orFail_eq_ok_iff.1 h)).2]
  exact .quote_text htold key

/-- Environment and name, with which most blocks begin. -/
theorem writes_head (henvironment : Told T context.environmentId) {name : String}
    (hname : Composed T (Hcl.quote name) []) :
    Writes T [.assign "environment_id" context.environment, .blank,
      .assign "name" (Hcl.quote name)] [] :=
  .cons (.assign (.word (by decide)) (composed_environment henvironment))
    (.behindBlank (.assign (.word (by decide)) hname))

/-! ### Flows -/

theorem writes_outputSchemaItems (htold : Told T (.obj document)) :
    Writes T (outputSchemaItems document) [] := by
  have hschema := htold.inner "outputSchema"
  unfold outputSchemaItems
  dsimp only
  split
  · exact .nil
  · refine .behindBlank (.object (.word (by decide)) ?_)
    split
    next value hvalue =>
      obtain ⟨before, after, hsplit, -⟩ := List.lookup_eq_some_iff.1 hvalue
      rw [hsplit] at hschema
      exact .json (.word (by decide)) (Value.composes_ofJson
        (hschema.value (List.mem_append_right before List.mem_cons_self)))
    next => exact .nil

theorem writesPairs_flowPairs (htold : Told T (.obj document)) {name : String}
    (hname : Composed T (Hcl.quote name) []) : WritesPairs T (flowPairs name document) [] := by
  unfold flowPairs
  refine InRow.front (InRow.front (writesPairs_singleton (by decide) hname)
    (writesPairs_textPair htold _ (by decide))) ?_
  split
  · exact writesPairs_textPair htold _ (by decide)
  · exact writesPairs_textPair htold _ (by decide)

theorem composed_flowReference {id : String} (hid : T id) {unique : String}
    (hunique : IsWord unique) : Composed T (flowReference context id unique) [] := by
  unfold flowReference
  split
  · exact .quote hid
  · exact .word (isWord_attributeAddress (by decide) hunique (by decide))

theorem writes_enableItem (henvironment : Told T context.environmentId) {id : String} (hid : T id)
    {unique : String} (hunique : IsWord unique) (enabled : Option Bool) :
    Writes T [enableItem context id unique enabled] [] := by
  unfold enableItem
  refine writes_resource (by decide) hunique (.assignAll (writesPairs_cons (by decide)
    (composed_environment henvironment) (writesPairs_cons (by decide)
      (composed_flowReference hid hunique) (writesPairs_singleton (by decide) ?_))))
  split
  · exact .word (Hcl.isWord_boolText _)
  · exact .word (isWord_attributeAddress (by decide) hunique (by decide))

theorem yields_composed_flowVersion {unique : String} (hunique : IsWord unique) :
    Yields (flowVersion context document unique) fun version => Composed T version [] := by
  unfold flowVersion
  split
  · exact yields_composed_integerText _
  · exact .ok (.word (isWord_attributeAddress (by decide) hunique (by decide)))

theorem writes_deployItem (henvironment : Told T context.environmentId) {id : String} (hid : T id)
    {unique version : String} (hunique : IsWord unique) (hversion : Composed T version []) :
    Writes T [deployItem context id unique version] [] := by
  have hpairs : WritesPairs T [("environment_id", context.environment),
      ("flow_id", flowReference context id unique)] [] :=
    writesPairs_cons (by decide) (composed_environment henvironment)
      (writesPairs_singleton (by decide) (composed_flowReference hid hunique))
  have hversions : Writes T [.object "deploy_trigger_values"
      [.assign (Hcl.quote "deployed_version") version]] [] :=
    .object (.word (by decide)) (.assign (.quote_word (by decide)) hversion)
  exact writes_resource (by decide) hunique ((Writes.assignAll hpairs).append hversions)

theorem leaves_draftFlow (haccounts : context.Accounts T)
    (henvironment : Told T context.environmentId) (hwords : context.graph.graph.HasWords)
    (htold : Told T (.obj document)) (hnames : HasDistinctProperties document) :
    Leaves context (draftFlow context document) fun block todos =>
      block.ref.kind = .flow ∧ block.Composes T todos := by
  refine .known_bind fun name hname => .known_bind fun id hid => .known_bind fun enabled _ =>
    .known_bind fun unique hlookup => ?_
  have hunique := hwords.lookup hlookup
  have hid' := told_resourceId htold hid
  refine .lift_bind (yields_writes_settingsItems htold) fun settings hsettings =>
    (leaves_diagramItems haccounts htold hnames).bind fun diagram todos hdiagram =>
    .lift_bind (yields_writes_inputSchemaItems htold) fun schema hschema =>
    .lift_bind (yields_writes_flowTrigger htold) fun trigger htrigger =>
    .lift_bind (yields_composed_flowVersion (T := T) hunique) fun version hversion =>
    .pure ⟨rfl, ?_⟩
  have hhead : Writes T [.assign "environment_id" context.environment, .blank,
      .assignAll (flowPairs name document)] [] :=
    .cons (.assign (.word (by decide)) (composed_environment henvironment))
      (.behindBlank (.assignAll (writesPairs_flowPairs htold (quote_requireText htold hname))))
  have hbody := ((((hhead.append hsettings).front hdiagram).back hschema).back
    (writes_outputSchemaItems htold)).back htrigger
  have hflow := writes_resource (T := T) (by decide : IsWord Kind.flow.type) hunique hbody
  have henable := writes_enableItem henvironment hid' hunique enabled
  have hcompanions := (Writes.behindBlank henable).append
    (Writes.behindBlank (writes_deployItem henvironment hid' hunique hversion))
  rw [List.append_nil]
  exact Block.composes_of_append [_, .blank, _, .blank] rfl (hflow.back hcompanions)

/-! ### Flow policies -/

theorem leaves_distributionItems {source : Resource} (haccounts : context.Accounts T)
    (htold : Told T (.obj document)) :
    Leaves context (distributionItems source document) (Writes T) := by
  have hitem : ∀ distribution, Told T (.obj distribution) →
      Leaves context (distributionItem source distribution) fun item => Writes T [item] := by
    intro distribution hdistribution
    refine (leaves_referencePair haccounts _ (by decide) (hdistribution.text _)).bind
      fun flow todos hflow => .lift_bind (yields_writesPairs_integerPair (T := T) _ (by decide))
      fun version hversion => .lift_bind (yields_writesPairs_integerPair (T := T) _ (by decide))
      fun weight hweight => .pure ?_
    rw [List.append_nil]
    exact .block .empty (by decide) (by decide) (.assignAll (InRow.back (InRow.back hflow hversion)
      hweight))
  unfold distributionItems
  refine .lift_bind (yields_told_listedObjects (htold.get "flowDistributions"))
    fun distributions hdistributions => ?_
  split
  · exact .pure .nil
  · exact (Leaves.mapM fun distribution hmem => hitem distribution
      (hdistributions distribution hmem)).bind_pure fun items todos hitems =>
        .behindBlank (.block (.plain (by decide)) (by decide) (by decide) (.of_inRow hitems))

theorem leaves_draftFlowPolicy (haccounts : context.Accounts T)
    (henvironment : Told T context.environmentId) (hwords : context.graph.graph.HasWords)
    (htold : Told T (.obj document)) (howner : context.KnowsOwner document) :
    Leaves context (draftFlowPolicy context document) fun block todos =>
      block.ref.kind = .flowPolicy ∧ block.Composes T todos := by
  refine .known_bind fun name hname => .known_bind fun id _ => .known_bind fun unique hlookup =>
    .known_bind fun owner hfound => ?_
  have hunique := hwords.lookup hlookup
  have hid : owner.getD "" = "" ∨ T (owner.getD "") := by
    rw [howner owner (orFail_eq_ok_iff.1 hfound)]
    exact htold.text _
  refine (leaves_referencePair haccounts _ (by decide) hid).bind
    fun application todos happlication => .lift_bind (yields_writes_policyTrigger htold)
    fun trigger htrigger => (leaves_distributionItems haccounts htold).bind_pure
    fun distributions more hdistributions => ⟨rfl, ?_⟩
  have henvironment' : WritesPairs T [("environment_id", context.environment)] [] :=
    writesPairs_singleton (by decide) (composed_environment henvironment)
  have hname' : WritesPairs T [("name", Hcl.quote name)] [] :=
    writesPairs_singleton (by decide) (quote_requireText htold hname)
  have hstatus : WritesPairs T (textPair document "status" "status") [] :=
    writesPairs_textPair htold _ (by decide)
  have hpairs := InRow.back (InRow.back (InRow.front henvironment' happlication) hname') hstatus
  exact Block.composes_of_single (by decide : IsWord Kind.flowPolicy.type) hunique rfl
    (((Writes.assignAll hpairs).back htrigger).append hdistributions)

/-! ### Applications -/

theorem writes_objectItems (htold : Told T (.obj document)) (key : String) {name : String}
    (hname : IsWord name) {body : Members → List Item}
    (hbody : ∀ members, Told T (.obj members) → Writes T (body members) []) :
    Writes T (objectItems document key name body) [] := by
  have hget := htold.get key
  unfold objectItems
  split
  next members hmembers =>
    rw [hmembers] at hget
    exact .behindBlank (.object (.word hname) (hbody _ hget))
  next => exact .nil

theorem writesPairs_listPair (htold : Told T (.obj document)) (key : String) {name : String}
    (hname : IsWord name) : WritesPairs T (listPair document key name) [] := by
  have hget := htold.get key
  unfold listPair
  split
  next items hitems =>
    rw [hitems] at hget
    split
    · exact .nil
    · exact writesPairs_singleton hname (composed_textsLiteral hget)
  next => exact .nil

theorem writesPairs_oauthPairs (htold : Told T (.obj document)) :
    WritesPairs T (oauthPairs document) [] := by
  have hlists : ∀ pair ∈ oauthLists, IsWord pair.2 := by decide
  unfold oauthPairs
  exact InRow.front (InRow.front (InRow.front
    (.flatMap fun pair hpair => writesPairs_listPair htold _ (hlists pair hpair))
    (writesPairs_flagPair _ (by decide))) (writesPairs_textPair htold _ (by decide)))
    (writesPairs_textPair htold _ (by decide))

theorem leaves_draftApplication (henvironment : Told T context.environmentId)
    (hwords : context.graph.graph.HasWords) (htold : Told T (.obj document)) :
    Leaves context (draftApplication context document) fun block todos =>
      block.ref.kind = .application ∧ block.Composes T todos := by
  refine .known_bind fun name hname => .known_bind fun id _ => .known_bind fun unique hlookup =>
    .pure ⟨rfl, Block.composes_of_single (by decide : IsWord Kind.application.type)
      (hwords.lookup hlookup) rfl ?_⟩
  refine ((writes_head henvironment (quote_requireText htold hname)).append
    (writes_objectItems htold _ (by decide) fun key hkey => ?_)).append
    (writes_objectItems htold _ (by decide) fun oauth hoauth => ?_)
  · exact .assigns (writesPairs_flagPair _ (by decide))
  · exact .assignAll (writesPairs_oauthPairs hoauth)

/-! ### Connector instances -/

/-- The variable of an input for a property is put together of the name of the property. -/
theorem composed_interpolation {rules : PropertyRules} {unique property : String} {value : Json}
    {v : InputVariable} (hfrom : v.ComesFrom rules unique property value) (hunique : IsWord unique)
    (hproperty : T property) : Composed T v.interpolation.text [] := by
  have hfront : IsWord ("davinci_connection_" ++ stripHead unique ++ "_") :=
    (IsWord.append (by decide) (isWord_stripHead hunique)).append (by decide)
  have hname : Composed T (property ++ "\x7d\"") [] :=
    .name hproperty
  have hopen : Composed T "\"$\x7bvar." [] := .plain (by decide)
  have htext : v.interpolation.text = "\"$\x7bvar." ++
      ("davinci_connection_" ++ stripHead unique ++ "_") ++ (property ++ "\x7d\"") := by
    unfold InputVariable.interpolation
    rw [hfrom.name]
    unfold connectorInputName
    simp only [String.append_assoc]
  rw [htext]
  exact (hopen.front (.word hfront)).front hname

theorem told_held {property : Json} (htold : Told T property) : Told T property.held := by
  unfold Json.held
  split
  · exact htold.ofMembers?.get "value"
  · exact htold

theorem composes_holding {property : Json} (htold : Told T property) {value : Value}
    (hvalue : value.Composes T []) : (property.holding value).Composes T [] := by
  unfold Json.holding
  split
  next =>
    have htype := Value.composes_ofJson (htold.ofMembers?.get "type")
    have hnames : Composed T (Hcl.quote "type") [] ∧ Composed T (Hcl.quote "value") [] :=
      ⟨.quote_plain (by decide), .quote_plain (by decide)⟩
    refine Value.composes_object (InRow.front (.of_forall ?_) (.singleton ⟨hnames.2, hvalue⟩))
    split
    · simp only [Value.ofMembers]
      exact List.forall_mem_singleton.2 ⟨hnames.1, htype⟩
    · simp [Value.ofMembers]
  next => exact hvalue

/-- A property is put together of what it tells and of its name. -/
theorem composes_linked {rules : PropertyRules} {unique : String} (hunique : IsWord unique)
    {property : String × Json} {written : String × Value} (hname : T property.1)
    (hvalue : Told T property.2)
    (h : Linked (connectorInputs rules document unique) property written) :
    Composed T (Hcl.quote written.1) [] ∧ written.2.Composes T [] := by
  cases h with
  | own =>
    exact ⟨.quote hname, composes_holding hvalue (Value.composes_ofJson (told_held hvalue))⟩
  | input hmem hpath =>
    obtain ⟨name, value, hfrom⟩ := comesFrom_of_mem_connectorInputs hmem
    have hsame : name = property.1 := (String.append_right_inj _).1 (hfrom.path.symm.trans hpath)
    subst hsame
    refine ⟨.quote hname, composes_holding hvalue (Value.composes_expr ?_)⟩
    exact .of_text (composed_interpolation hfrom hunique hname)

theorem leaves_draftConnectorInstance (rules : PropertyRules)
    (henvironment : Told T context.environmentId) (hwords : context.graph.graph.HasWords)
    (htold : Told T (.obj document)) :
    Leaves context (draftConnectorInstance rules context document) fun block todos =>
      block.ref.kind = .connectorInstance ∧ block.Composes T todos := by
  refine .known_bind fun name hname => .known_bind fun connectorId hconnectorId =>
    .known_bind fun id _ => .known_bind fun unique hlookup => ?_
  have hunique := hwords.lookup hlookup
  refine .pure ⟨rfl, Block.composes_of_single (by decide : IsWord Kind.connectorInstance.type)
    hunique rfl ?_⟩
  have hconnector : Writes T
      [.blank, .object "connector" [.assign "id" (Hcl.quote connectorId)]] [] :=
    .behindBlank (.object (.word (by decide)) (.assign (.word (by decide))
      (quote_requireText (htold.inner "connector") hconnectorId)))
  refine ((writes_head henvironment (quote_requireText htold hname)).append hconnector).append ?_
  split
  · exact .nil
  · refine .behindBlank (.json (.word (by decide)) (Value.composes_object (.of_forall
      (List.forall_mem_map.2 fun property hproperty => ?_))))
    have hproperties := htold.inner "properties"
    exact composes_linked hunique (hproperties.name hproperty) (hproperties.value hproperty)
      (linked_linkedProperty _ _ property)

/-! ### Variables -/

theorem composed_valueText {value : Json} (htold : Told T value) :
    Composed T (valueText value) [] := by
  unfold valueText
  split
  · exact .quote htold.str
  · exact .word (Hcl.isWord_boolText _)
  · exact .word (Hcl.isWord_numberText _)
  · exact ((Composed.plain (by decide)).front (Value.composes_ofJson htold 4).joined).back
      (.plain (by decide))

/-- The line with the value is put together of what the value tells. -/
theorem composed_valueLine {inputs : List InputVariable} {value : Json}
    (hinputs : ∀ input ∈ inputs, IsWord input.reference.render) (htold : Told T value)
    {usesVariables : Bool} {dataType line : String}
    (h : valueLine? usesVariables dataType value inputs = some line) : Composed T line [] := by
  have hlinked := linkedLine_valueLine? usesVariables dataType value inputs
  have hequals : Composed T " = " [] := .plain (by decide)
  rw [h] at hlinked
  cases hlinked with
  | own hkey =>
    exact ((Composed.word (isWord_valueKey hkey)).front hequals).front (composed_valueText htold)
  | input hkey hmem =>
    have hword := hinputs _ hmem
    rw [InputVariable.render_reference] at hword
    exact ((Composed.word (isWord_valueKey hkey)).front hequals).front (.word hword)
  | secret hmem =>
    have hword := hinputs _ hmem
    rw [InputVariable.render_reference] at hword
    exact (Composed.plain (by decide)).front (.word hword)

/-- What is written for a value is an unfinished place if there is none. -/
theorem writes_valueItems {dataType : String} (htype : T dataType) {line : Option String}
    (hline : ∀ text, line = some text → Composed T text []) :
    Writes T (valueItems dataType line) (if line = none then [.value dataType] else []) := by
  have hremark : ∀ {text : String}, IsUnmarked text → Writes T [.line text] [] :=
    fun h => .line (.own h.hasTodos)
  have hgiven : ∀ s ∈ (Todo.value dataType).given, T s := by
    simp only [Todo.given]
    split
    · exact List.forall_mem_nil _
    · exact List.forall_mem_singleton.2 htype
  have htodo : Writes T [.line (Todo.value dataType).text] [.value dataType] :=
    .line (.todo hgiven)
  cases line with
  | some text => exact .object (.word (by decide)) (.line (hline text rfl))
  | none =>
    dsimp only [valueItems]
    rw [if_pos rfl]
    split
    next hsecret =>
      have htext : (Todo.value dataType).text = "# TODO: Add secret value manually" := by
        rw [Todo.text, if_pos hsecret]
        decide
      rw [htext] at htodo
      exact htodo.back ((hremark (by decide)).append ((hremark (by decide)).append
        (hremark (by decide))))
    next hsecret =>
      have htext : (Todo.value dataType).text = "# TODO: Add " ++ dataType ++ " value" := by
        have hmark : todoMark ++ " Add " = "# TODO: Add " := by decide
        rw [Todo.text, if_neg hsecret, hmark]
      rw [htext] at htodo
      exact htodo.back (hremark (by decide))

theorem writes_owningFlowItems (htold : Told T (.obj document)) :
    Writes T (owningFlowItems document) [] := by
  have hpair : WritesPairs T (textPair (document.inner "flow") "id" "id") [] :=
    writesPairs_textPair (htold.inner "flow") _ (by decide)
  unfold owningFlowItems
  split
  next key value heq =>
    rw [heq] at hpair
    exact .behindBlank (.object (.word (by decide)) (Writes.assigns hpair))
  next => exact .nil

/-- The unfinished places of the block of a variable. -/
theorem valueTodos_variable (usesVariables : Bool) {id unique hcl : String} :
    Block.valueTodos usesVariables document
        { ref := ⟨.variable, id⟩, name := unique, hcl := hcl,
          inputs := valueInputs document unique } =
      if valueLine? usesVariables (document.text "dataType") (document.get "value")
        (valueInputs document unique) = none then [.value (document.text "dataType")] else [] :=
  if_congr (and_iff_right rfl) rfl rfl

theorem leaves_draftVariable (henvironment : Told T context.environmentId)
    (hwords : context.graph.graph.HasWords) (htold : Told T (.obj document)) :
    Leaves context (draftVariable context document) fun block todos =>
      block.Composes T (todos ++ block.valueTodos context.usesVariables document) := by
  refine .known_bind fun name hname => .known_bind fun scope hscope =>
    .known_bind fun dataType htype => .known_bind fun id _ => .known_bind fun unique hlookup => ?_
  have hunique := hwords.lookup hlookup
  have hpairs : ∀ declared : Bool, WritesPairs T [("name", Hcl.quote name),
      ("context", Hcl.quote scope), ("data_type", Hcl.quote dataType),
      ("mutable", Hcl.boolText declared)] [] := fun declared =>
    writesPairs_cons (by decide) (quote_requireText htold hname)
      (writesPairs_cons (by decide) (quote_requireText htold hscope)
        (writesPairs_cons (by decide) (quote_requireText htold htype)
          (writesPairs_singleton (by decide) (.word (Hcl.isWord_boolText _)))))
  have hnote : ∀ overridden : Bool, Writes T (if overridden then
      [.line "# NOTE: mutable overridden to true because no value is provided"] else []) [] := by
    intro overridden
    split
    · exact .line (.own (IsUnmarked.hasTodos (by decide)))
    · exact .nil
  have hlimits : Writes T [.assignAll (textPair document "displayName" "display_name" ++
      numberPair document "min" "min" ++ numberPair document "max" "max")] [] :=
    .assignAll (InRow.front (InRow.front (writesPairs_textPair htold _ (by decide))
      (writesPairs_numberPair _ (by decide))) (writesPairs_numberPair _ (by decide)))
  obtain ⟨hgiven, rfl⟩ := requireText_eq_ok_iff.1 (orFail_eq_ok_iff.1 htype)
  have hline : ∀ text, valueLine? context.usesVariables (document.text "dataType")
      (document.get "value") (valueInputs document unique) = some text → Composed T text [] :=
    fun text => composed_valueLine
      (fun input hinput => isWord_reference_valueInputs document hunique hinput)
      (htold.get "value")
  have hvalue := writes_valueItems (htold.text_of_ne hgiven) hline
  refine .pure (Block.composes_of_single (by decide : IsWord Kind.variable.type) hunique rfl ?_)
  rw [List.nil_append, valueTodos_variable]
  have henvironment' : Writes T [.assign "environment_id" context.environment] [] :=
    .assign (.word (by decide)) (composed_environment henvironment)
  exact Writes.front (((((henvironment'.append (.behindBlank (.assignAll (hpairs _)))).append
    (hnote _)).append hlimits).append (writes_owningFlowItems htold)).append .blank) hvalue

/-- Only the blocks of variables can lack a value. -/
theorem valueTodos_of_ne {block : Block} (usesVariables : Bool) (h : block.ref.kind ≠ .variable) :
    block.valueTodos usesVariables document = [] :=
  if_neg fun hlacks => h hlacks.1

/-- **The unfinished places of a block** are the references that lead nowhere and the value that a
variable lacks, and every other part of its text is always the same or a text that the document
tells. -/
theorem Kind.leaves_draft (kind : Kind) (haccounts : context.Accounts T)
    (henvironment : Told T context.environmentId) (hwords : context.graph.graph.HasWords)
    (htold : Told T (.obj document)) (howner : kind = .flowPolicy → context.KnowsOwner document)
    (hnames : kind = .flow → HasDistinctProperties document) :
    Leaves context (kind.converter.draft context document) fun block todos =>
      block.Composes T (todos ++ block.valueTodos context.usesVariables document) := by
  have hother : ∀ {k : Kind} {d : Draft Block}, k ≠ .variable →
      Leaves context d (fun block todos => block.ref.kind = k ∧ block.Composes T todos) →
      Leaves context d fun block todos =>
        block.Composes T (todos ++ block.valueTodos context.usesVariables document) := by
    intro k d hk h block hblock
    obtain ⟨hkind, hcomposes⟩ := h block hblock
    rw [valueTodos_of_ne _ (hkind ▸ hk), List.append_nil]
    exact hcomposes
  cases kind with
  | «variable» => exact leaves_draftVariable henvironment hwords htold
  | connectorInstance =>
    exact hother (by decide) (leaves_draftConnectorInstance _ henvironment hwords htold)
  | flow =>
    exact hother (by decide)
      (leaves_draftFlow haccounts henvironment hwords htold (hnames rfl))
  | application => exact hother (by decide) (leaves_draftApplication henvironment hwords htold)
  | flowPolicy =>
    exact hother (by decide)
      (leaves_draftFlowPolicy haccounts henvironment hwords htold (howner rfl))

end Blocks

end HclExport
