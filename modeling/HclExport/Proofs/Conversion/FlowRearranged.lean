import HclExport.Proofs.Conversion.Agreement
import HclExport.Proofs.Conversion.DiagramKeys
import HclExport.Proofs.Conversion.EmbeddedSchemas
import HclExport.Proofs.Conversion.SameBut
import HclExport.Proofs.Graph.Rearranged

/-!
# Conversions of a flow with its elements in another order

Nodes and edges are written in the order of their ids, and references are looked up in the graph by
what they refer to. So the order of the elements does not matter for the diagram of a flow, nor for
the references that lead nowhere; it does matter for an input schema that is merged from schemas in
the nodes.

## Main definitions

* `Draft.Related` — drafts that ask for the same and come to related results.

## Main results

* `diagramItems_rearranged` — the diagram of a flow.
* `inputSchema_rearranged_iff` — **when the order of the nodes does not show in an input schema.**
* `related_draftFlow` — the block of a flow.
* `Converter.flow_rearranged` — **what a flow with its elements in another order comes to.**
-/

namespace HclExport

open Hcl (Item)

/-! ### Drafts that come to related results -/

/-- Both computations come to a result or neither does, and the results are equal under a
condition. -/
theorem rel_toOption_iff {α : Type} {p : Prop} {x y : Except Failure α} :
    Option.Rel (fun a b => p → a = b) x.toOption y.toOption ↔
      (Returns x ↔ Returns y) ∧ (p → x.toOption = y.toOption) := by
  constructor
  · intro h
    cases x with
    | error failure =>
      cases y with
      | error other => exact ⟨iff_of_false (not_returns_error _) (not_returns_error _), fun _ => rfl⟩
      | ok b => cases h
    | ok a =>
      cases y with
      | error other => cases h
      | ok b =>
        cases h with
        | some heq =>
          exact ⟨iff_of_true (returns_ok a) (returns_ok b), fun hp => congrArg some (heq hp)⟩
  · rintro ⟨hreturns, hequal⟩
    cases x with
    | error failure =>
      cases y with
      | error other => exact .none
      | ok b => exact absurd (hreturns.2 (returns_ok b)) (not_returns_error failure)
    | ok a =>
      cases y with
      | error failure => exact absurd (hreturns.1 (returns_ok a)) (not_returns_error failure)
      | ok b => exact .some fun hp => Option.some.inj (hequal hp)

/-- Drafts that ask for the same, and of which both come to a result or neither does; the results
are related. -/
structure Draft.Related {α β : Type} (answer : Request → Hcl.Expression) (R : α → β → Prop)
    (d : Draft α) (e : Draft β) : Prop where
  requests : d.requests answer = e.requests answer
  results : Option.Rel R (d.result answer).toOption (e.result answer).toOption

namespace Draft.Related

variable {α β γ δ : Type} {answer : Request → Hcl.Expression} {R : α → β → Prop}

theorem pure {a : α} {b : β} (h : R a b) : Related answer R (pure a) (pure b) :=
  ⟨rfl, .some h⟩

/-- What comes first is the same. -/
theorem same_bind (d : Draft γ) {f : γ → Draft α} {g : γ → Draft β}
    (h : ∀ c, Related answer R (f c) (g c)) : Related answer R (d >>= f) (d >>= g) := by
  induction d with
  | done result =>
    cases result with
    | error failure => exact ⟨rfl, .none⟩
    | ok c => exact h c
  | refer request next ih =>
    obtain ⟨hrequests, hresults⟩ := ih (answer request)
    exact ⟨congrArg (request :: ·) hrequests, hresults⟩

/-- What comes first asks for nothing, and comes to related results. -/
theorem lift_bind {S : γ → δ → Prop} {x : Except Failure γ} {y : Except Failure δ}
    (hxy : Option.Rel S x.toOption y.toOption) {f : γ → Draft α} {g : δ → Draft β}
    (h : ∀ c c', S c c' → Related answer R (f c) (g c')) :
    Related answer R (liftM x >>= f) (liftM y >>= g) := by
  cases x with
  | error failure =>
    cases y with
    | error other => exact ⟨rfl, .none⟩
    | ok c' => cases hxy
  | ok c =>
    cases y with
    | error other => cases hxy
    | ok c' =>
      cases hxy with
      | some hrel => exact h c c' hrel

end Draft.Related

/-! ### The diagram -/

section Diagram

variable {f g : List Json → List Json}

/-- Elements with different ids are put into one order. -/
theorem sortElements_of_perm {items others : List Json} (hperm : items.Perm others)
    (hids : ((others.filterMap Json.members?).map elementId).Nodup) :
    sortElements items = sortElements others := by
  refine sortOn_eq_of_perm (hperm.filterMap _) fun a ha b hb heq => ?_
  have hmem : ∀ {c}, c ∈ items.filterMap Json.members? → c ∈ others.filterMap Json.members? :=
    fun hc => (hperm.filterMap _).mem_iff.1 hc
  exact List.inj_on_of_nodup_map hids (hmem ha) (hmem hb) heq

theorem edgeGroup_mapItems (hg : ∀ items, (g items).Perm items) (value : Json) :
    (((value.items?.getD []).filterMap Json.members?).map elementId).Nodup →
    (match value.mapItems g with
      | .arr items => [edgesItem (sortElements items)]
      | _ => []) =
    match value with
      | .arr items => [edgesItem (sortElements items)]
      | _ => [] := by
  intro hids
  cases value with
  | arr items =>
    dsimp only [Json.mapItems]
    rw [sortElements_of_perm (hg items) hids]
  | _ => rfl

theorem elementGroups_arrangeElements (source : Resource)
    (hf : ∀ items, (f items).Perm items) (hg : ∀ items, (g items).Perm items) {elements : Members}
    (hnodes : ((elements.objects "nodes").map elementId).Nodup)
    (hedges : ((elements.objects "edges").map elementId).Nodup) :
    elementGroups source (elements.arrangeElements f g) = elementGroups source elements := by
  rw [Members.objects_eq_filterMap] at hnodes hedges
  have hgroup := edgeGroup_mapItems hg _ hedges
  unfold elementGroups
  rw [Members.get_nodes_arrangeElements, Members.get_edges_arrangeElements]
  cases hget : elements.get "nodes" with
  | arr items =>
    rw [hget] at hnodes
    dsimp only [Json.mapItems]
    rw [sortElements_of_perm (hf items) hnodes]
    exact congrArg (fun edges => do
      let body ← nodeItems source 0 (sortElements items)
      return [Item.object "nodes" body] ++ edges) hgroup
  | _ => exact congrArg (fun edges => (pure ([] ++ edges) : Draft (List Item))) hgroup

/-- Parts of a diagram other than its elements. -/
theorem viewItems_congr {diagram other : Members} (h : Members.SameBut "elements" diagram other) :
    viewItems diagram = viewItems other := by
  unfold viewItems integerPair diagramFlags
  simp only [List.flatMap_cons, List.flatMap_nil]
  rw [h.number? (by decide), h.numberPair (by decide), h.numberPair (by decide),
    h.flagPair (by decide), h.flagPair (by decide), h.flagPair (by decide),
    h.flagPair (by decide), h.flagPair (by decide)]

theorem sameBut_arrangeDiagram (diagram : Members) :
    Members.SameBut "elements" (diagram.arrangeDiagram f g) diagram :=
  fun _ hne => Members.get?_mapMember_of_ne diagram hne

theorem diagramBody_arrangeDiagram (source : Resource)
    (hf : ∀ items, (f items).Perm items) (hg : ∀ items, (g items).Perm items) {diagram : Members}
    (hnodes : (((diagram.inner "elements").objects "nodes").map elementId).Nodup)
    (hedges : (((diagram.inner "elements").objects "edges").map elementId).Nodup) :
    diagramBody source (diagram.arrangeDiagram f g) = diagramBody source diagram := by
  have hsame : Members.SameBut "elements" (diagram.arrangeDiagram f g) diagram :=
    sameBut_arrangeDiagram diagram
  have hencoded : ∀ key, key ≠ "elements" →
      encodedItems (diagram.arrangeDiagram f g) key = encodedItems diagram key := by
    intro key hne
    unfold encodedItems
    rw [hsame.get hne]
  have helements : (diagram.arrangeDiagram f g).get "elements" =
      (diagram.get "elements").mapObject (Members.arrangeElements f g) :=
    Members.get_mapMember_self diagram rfl
  unfold diagramBody
  rw [viewItems_congr hsame, hencoded _ (by decide), hencoded _ (by decide),
    hsame.get (by decide : "pan" ≠ "elements"), helements]
  cases hget : diagram.get "elements" with
  | obj elements =>
    rw [Members.inner_of_get hget] at hnodes hedges
    dsimp only [Json.mapObject]
    have hgroups : elementGroups source (Members.arrangeElements f g elements) =
        elementGroups source elements := elementGroups_arrangeElements source hf hg hnodes hedges
    rw [hgroups]
  | _ => rfl

end Diagram

section Flows

variable {document other : Members}

/-- The diagram of a flow whose elements have different ids. -/
theorem diagramItems_rearranged (h : document.Rearranged other) (source : Resource)
    (hnodes : ((elementsOf document "nodes").map elementId).Nodup)
    (hedges : ((elementsOf document "edges").map elementId).Nodup) :
    diagramItems source other = diagramItems source document := by
  obtain @⟨f, g, hf, hg⟩ := h
  have hget : (document.arranged f g).get "graphData" =
      (document.get "graphData").mapObject (Members.arrangeDiagram f g) :=
    Members.get_mapMember_self document rfl
  unfold diagramItems
  rw [hget]
  cases hdiagram : document.get "graphData" with
  | obj diagram =>
    unfold elementsOf at hnodes hedges
    rw [Members.inner_of_get hdiagram] at hnodes hedges
    dsimp only [Json.mapObject]
    rw [diagramBody_arrangeDiagram source hf hg hnodes hedges]
  | _ => rfl

/-! ### The block -/

/-- Nothing but the diagram is different. -/
theorem Members.Rearranged.sameBut (h : document.Rearranged other) :
    Members.SameBut "graphData" document other :=
  fun _ hne => h.get?_eq hne

namespace Members.SameBut

theorem enabledState (h : SameBut "graphData" document other) :
    HclExport.enabledState document = HclExport.enabledState other := by
  unfold HclExport.enabledState enabledFault
  rw [h.flag? (by decide), h.get (by decide : "flowStatus" ≠ "graphData"),
    h.get (by decide : "flowId" ≠ "graphData"), h.get (by decide : "id" ≠ "graphData")]

theorem settingsItems (h : SameBut "graphData" document other) :
    HclExport.settingsItems document = HclExport.settingsItems other := by
  unfold HclExport.settingsItems
  rw [h.inner (by decide)]

theorem outputSchemaItems (h : SameBut "graphData" document other) :
    HclExport.outputSchemaItems document = HclExport.outputSchemaItems other := by
  unfold HclExport.outputSchemaItems
  rw [h.inner (by decide)]

theorem flowTrigger (h : SameBut "graphData" document other) :
    HclExport.flowTrigger document = HclExport.flowTrigger other := by
  unfold HclExport.flowTrigger
  rw [h.get (by decide)]

theorem flowVersion (h : SameBut "graphData" document other) (context : Context)
    (unique : String) :
    HclExport.flowVersion context document unique = HclExport.flowVersion context other unique := by
  unfold HclExport.flowVersion
  rw [h.number? (by decide)]

theorem flowPairs (h : SameBut "graphData" document other) (name : String) :
    HclExport.flowPairs name document = HclExport.flowPairs name other := by
  unfold HclExport.flowPairs
  rw [h.textPair (by decide), h.textPair (by decide), h.textPair (by decide), h.text (by decide)]

end Members.SameBut

section Schema

variable (h : document.Rearranged other)

include h

theorem usableSchema_rearranged : UsableSchema document ↔ UsableSchema other :=
  usableSchema_of_perm (h.sameBut.get (by decide)) (h.sameBut.get (by decide))
    (h.items_perm (by decide))

theorem usesEmbedded_rearranged : UsesEmbedded document ↔ UsesEmbedded other := by
  unfold UsesEmbedded
  rw [h.sameBut.get (by decide : "inputSchema" ≠ "graphData"),
    h.sameBut.get (by decide : "inputSchemaCompiled" ≠ "graphData")]

theorem normalEntries_rearranged
    (hagree : UsesEmbedded document → SchemasAgree (embeddedSchemas document)) :
    normalEntries (inputSchema document) = normalEntries (inputSchema other) :=
  inputSchema_of_perm (h.sameBut.get (by decide)) (h.sameBut.get (by decide))
    (h.items_perm (by decide)) hagree

/-- The input schema of a flow, as far as it does not depend on the order of its nodes. -/
theorem inputSchemaItems_rearranged :
    Option.Rel
      (fun items items' =>
        (UsesEmbedded document → SchemasAgree (embeddedSchemas document)) → items = items')
      (inputSchemaItems document).toOption (inputSchemaItems other).toOption := by
  refine rel_toOption_iff.2 ⟨?_, fun hagree => ?_⟩
  · rw [returns_inputSchemaItems, returns_inputSchemaItems]
    exact usableSchema_rearranged h
  · exact inputSchemaItems_of_normalEntries (normalEntries_rearranged h hagree)

end Schema

/-! ### Whether the order of the nodes shows -/

/-- Any node can be put in front. -/
theorem exists_rearranged_front {node : Json} (h : node ∈ nodeValues document) :
    ∃ flow rest, document.Rearranged flow ∧ nodeValues flow = node :: rest := by
  classical
  obtain ⟨before, behind, hnodes⟩ := List.mem_iff_append.1 h
  let front : List Json → List Json := fun items =>
    if items = nodeValues document then node :: (before ++ behind) else items
  have hfront : ∀ items, (front items).Perm items := by
    intro items
    by_cases hitems : items = nodeValues document
    · unfold front
      rw [if_pos hitems, hitems, hnodes]
      exact List.perm_middle.symm
    · unfold front
      rw [if_neg hitems]
  refine ⟨_, before ++ behind, .intro (g := id) hfront fun _ => .refl _, ?_⟩
  unfold nodeValues at h hnodes ⊢
  rw [Members.elements_arranged, Members.get_nodes_arrangeElements]
  cases hget : ((document.inner "graphData").inner "elements").get "nodes" with
  | arr items =>
    rw [hget] at hnodes
    show front items = _
    unfold front nodeValues
    rw [hget]
    exact if_pos rfl
  | _ =>
    rw [hget] at h
    cases h

/-- The node in front decides what is defined. -/
theorem firstProperty?_front {flow schema : Members} {node : Json} {rest : List Json}
    (hnodes : nodeValues flow = node :: rest) (hschema : embeddedSchema? node = some schema)
    {name : String} {property : Json} (h : (schema.inner "properties").get? name = some property) :
    firstProperty? (embeddedSchemas flow) name = some property := by
  unfold embeddedSchemas firstProperty?
  rw [hnodes, List.filterMap_cons_some hschema, List.findSome?_cons, h]

/-- **The order of the nodes does not show in an input schema** if and only if the schemas in the
nodes agree or are not used. -/
theorem inputSchema_rearranged_iff (hreturns : Returns (inputSchema document)) :
    (∀ other, document.Rearranged other →
      normalEntries (inputSchema other) = normalEntries (inputSchema document)) ↔
    (UsesEmbedded document → SchemasAgree (embeddedSchemas document)) := by
  constructor
  · intro hsame huses schema hschema schema' hschema' name property property' hget hget'
    -- what is defined in a node counts where that node is put in front
    have hdefined : ∀ schema ∈ embeddedSchemas document, ∀ property,
        (schema.inner "properties").get? name = some property →
        ∃ properties names, normalEntries (inputSchema document) =
          some (namedEntries properties names) ∧
          properties.definition? name = definedEntry name property := by
      intro schema hschema property hget
      obtain ⟨node, hnode, hembedded⟩ := List.mem_filterMap.1 hschema
      obtain ⟨flow, rest, hflow, hnodes⟩ := exists_rearranged_front hnode
      have hflowReturns : Returns (inputSchema flow) := by
        rw [returns_inputSchema] at hreturns ⊢
        exact (usableSchema_rearranged hflow).1 hreturns
      obtain ⟨names, hentries⟩ :=
        exists_normalEntries_inputSchema ((usesEmbedded_rearranged hflow).1 huses) hflowReturns
      refine ⟨_, names, (hsame flow hflow).symm.trans hentries, ?_⟩
      rw [Members.definition?, get?_mergeSchemas, firstProperty?_front hnodes hembedded hget]
      rfl
    obtain ⟨properties, names, hentries, hfirst⟩ := hdefined schema hschema property hget
    obtain ⟨others, names', hentries', hsecond⟩ := hdefined schema' hschema' property' hget'
    rw [← hfirst, ← hsecond]
    exact definition?_eq_of_namedEntries (Option.some.inj (hentries.symm.trans hentries')) name
  · intro hagree other h
    exact (normalEntries_rearranged h hagree).symm

/-- The block of a flow whose elements have different ids. -/
theorem related_draftFlow (h : document.Rearranged other)
    (hnodes : ((elementsOf document "nodes").map elementId).Nodup)
    (hedges : ((elementsOf document "edges").map elementId).Nodup) (context : Context)
    (answer : Request → Hcl.Expression) :
    (draftFlow context document).Related answer
      (fun block block' =>
        (UsesEmbedded document → SchemasAgree (embeddedSchemas document)) → block = block')
      (draftFlow context other) := by
  have hsame := h.sameBut
  unfold draftFlow
  rw [hsame.requireText (by decide) (by decide), hsame.resourceId (by decide),
    hsame.enabledState, hsame.settingsItems, hsame.outputSchemaItems, hsame.flowTrigger]
  simp only [diagramItems_rearranged h _ hnodes hedges, hsame.flowVersion, hsame.flowPairs]
  refine .same_bind _ fun name => .same_bind _ fun id => .same_bind _ fun enabled =>
    .same_bind _ fun unique => .same_bind _ fun settings => .same_bind _ fun diagram => ?_
  refine .lift_bind (inputSchemaItems_rearranged h) fun schema schema' hschema => ?_
  refine .same_bind _ fun trigger => .same_bind _ fun version => .pure fun hagree => ?_
  rw [hschema hagree]

/-! ### Conversions -/

/-- Contexts that differ in graphs in which the same is found. -/
theorem Graph.Corresponds.agrees {g g' : Graph} (h : g.Corresponds g') (options : Context) :
    Context.Agrees { options with graph := g.close } { options with graph := g'.close } where
  environmentId := rfl
  skipsReferences := rfl
  writesImports := rfl
  usesVariables := rfl
  isStrict := rfl
  scope := rfl
  find? := h.find?
  edge? := h.reference?

/-- **A flow with its elements in another order.** Let no two nodes of a flow have the same id, and
no two edges, and let the graph be grown from the flow with its elements in either order. Then the
same is left behind, both conversions come to a result or neither does, and the block is the same
unless the flow takes its input schema from schemas in nodes that do not agree. -/
theorem Converter.flow_rearranged (h : document.Rearranged other)
    (hnodes : ((elementsOf document "nodes").map elementId).Nodup)
    (hedges : ((elementsOf document "edges").map elementId).Nodup)
    {history history' : List Graph.Operation}
    (hhistory : List.Forall₂ (Graph.Operation.Corresponds document other) history history')
    (options : Context) (ledger : Ledger) :
    let first := (Converter.flow.convert
      { options with graph := (Graph.after history).close } document).run ledger
    let second := (Converter.flow.convert
      { options with graph := (Graph.after history').close } other).run ledger
    second.2 = first.2 ∧ (Returns second.1 ↔ Returns first.1) ∧
      ((UsesEmbedded document → SchemasAgree (embeddedSchemas document)) →
        second.1.toOption = first.1.toOption) := by
  intro first second
  have hagrees := (Graph.corresponds_after h hhistory).agrees options
  -- the context with the other graph converts in the same way
  have hsecond : second = (Kind.flow.converter.convert
      { options with graph := (Graph.after history).close } other).run ledger :=
    (hagrees.run_convert (by decide : Kind.flow ≠ .flowPolicy) other ledger).symm
  obtain ⟨hrequests, hresults⟩ := related_draftFlow h hnodes hedges
    { options with graph := (Graph.after history).close }
    (Context.answer { options with graph := (Graph.after history).close })
  obtain ⟨hreturns, hequal⟩ := rel_toOption_iff.1 hresults
  rw [hsecond]
  unfold first Converter.convert Kind.converter
  rw [Draft.run_write, Draft.run_write]
  refine ⟨?_, hreturns.symm, fun hagree => (hequal hagree).symm⟩
  exact congrArg (List.foldl _ ledger) hrequests.symm

end Flows

/-! ### Two flows -/

/-- An element of a diagram with an id and other data. -/
def elementWith (id : String) (data : Members) : Json :=
  .obj [("data", .obj (("id", .str id) :: data))]

/-- A flow with two nodes that refer to connector instances, and two edges. -/
def branchingFlow : Members :=
  [("id", .str "f"), ("name", .str "F"),
   ("graphData", .obj [("elements", .obj
     [("nodes", .arr [elementWith "n" [("connectionId", .str "c")],
        elementWith "m" [("connectionId", .str "d")]]),
      ("edges", .arr [elementWith "y" [], elementWith "x" []])])])]

/-- The reference of that flow to a connector instance. -/
def branchingReference (id : String) : Edge where
  source := ⟨⟨.flow, "f"⟩, "F"⟩
  target := ⟨.connectorInstance, id⟩
  field := "connection_id"
  location := "graphData.elements.nodes[*].data.connectionId"

/-- A history in which one of its connector instances is registered. -/
def branchingHistory (ids : List String) : List Graph.Operation :=
  [.register ⟨.flow, "f"⟩ "F", .register ⟨.connectorInstance, "c"⟩ "C",
    .addEdges (ids.map branchingReference)]

/-- That flow with its elements the other way round comes to the same block, and the same reference
leads nowhere. -/
theorem Converter.flow_rearranged_branchingFlow :
    let first := (Converter.flow.convert
      { graph := (Graph.after (branchingHistory ["c", "d"])).close } branchingFlow).run {}
    let second := (Converter.flow.convert
      { graph := (Graph.after (branchingHistory ["d", "c"])).close }
      (branchingFlow.arranged List.reverse List.reverse)).run {}
    second.2 = first.2 ∧ second.1.toOption = first.1.toOption ∧
      first.1.toOption.isSome = true ∧
      first.2.missing.map (fun record => record.target.ref.id) = ["d"] := by
  have hrearranged : branchingFlow.Rearranged
      (branchingFlow.arranged List.reverse List.reverse) :=
    .intro List.reverse_perm List.reverse_perm
  have hparsed : Graph.Operation.Corresponds branchingFlow
      (branchingFlow.arranged List.reverse List.reverse)
      (.addEdges (["c", "d"].map branchingReference))
      (.addEdges (["d", "c"].map branchingReference)) :=
    @Graph.Operation.Corresponds.parsed _ _ ⟨⟨.flow, "f"⟩, "F"⟩ _ _ rfl rfl rfl
  have hhistory : List.Forall₂ (Graph.Operation.Corresponds branchingFlow
      (branchingFlow.arranged List.reverse List.reverse))
      (branchingHistory ["c", "d"]) (branchingHistory ["d", "c"]) :=
    .cons (.same _) (.cons (.same _) (.cons hparsed .nil))
  obtain ⟨hledger, -, hblock⟩ := Converter.flow_rearranged hrearranged (by decide) (by decide)
    hhistory { graph := (Graph.after []).close } {}
  refine ⟨hledger, hblock fun ⟨_, compiled, hcompiled, _⟩ => ?_, ?_, ?_⟩
  · cases hcompiled
  · decide +kernel
  · decide +kernel

/-- A node with an embedded schema. -/
def schemaNode (id schema : String) : Json :=
  elementWith id [("connectionId", .str "c"),
    ("properties", .obj [("inputSchema", .obj [("value", .str schema)])])]

/-- A flow with two nodes that define a property in different ways: in one it is nothing. -/
def disagreeingFlow : Members :=
  [("id", .str "f"), ("name", .str "F"), ("inputSchemaCompiled", .obj []),
   ("graphData", .obj [("elements", .obj
     [("nodes", .arr [schemaNode "a" "\x7b\"properties\":\x7b\"p\":\x7b\x7d\x7d\x7d",
        schemaNode "b" "\x7b\"properties\":\x7b\"p\":null\x7d\x7d"])])])]

/-- That flow with its nodes the other way round comes to another block, although no two of its
nodes have the same id. -/
theorem Converter.flow_order_shows :
    let context : Context :=
      { graph := (Graph.after (branchingHistory ["c", "c"])).close, skipsReferences := true }
    let other := disagreeingFlow.arranged List.reverse List.reverse
    disagreeingFlow.Rearranged other ∧
      (∀ flow ∈ [disagreeingFlow, other],
        (parseReferences ⟨⟨.flow, "f"⟩, "F"⟩ (.obj flow)).toOption =
          some (["c", "c"].map branchingReference)) ∧
      (elementsOf disagreeingFlow "nodes").map elementId = ["a", "b"] ∧
      elementsOf disagreeingFlow "edges" = [] ∧
      ∃ first second,
        ((Converter.flow.convert context disagreeingFlow).run {}).1.toOption = some first ∧
        ((Converter.flow.convert context other).run {}).1.toOption = some second ∧
        first.hcl ≠ second.hcl := by
  intro context other
  refine ⟨.intro List.reverse_perm List.reverse_perm, by decide +kernel, by decide, rfl, ?_⟩
  have h : ((Converter.flow.convert context disagreeingFlow).run {}).1.toOption.any (fun first =>
      ((Converter.flow.convert context other).run {}).1.toOption.any fun second =>
        decide (first.hcl ≠ second.hcl)) = true := by
    decide +kernel
  obtain ⟨first, hfirst, h⟩ := (Option.any_eq_true _ _).1 h
  obtain ⟨second, hsecond, h⟩ := (Option.any_eq_true _ _).1 h
  exact ⟨first, second, hfirst, hsecond, of_decide_eq_true h⟩

end HclExport
