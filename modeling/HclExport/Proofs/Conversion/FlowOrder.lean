import HclExport.Proofs.Conversion.Matching
import HclExport.Proofs.Conversion.Order
import HclExport.Proofs.Conversion.Usable

/-!
# The order of members in flows

The settings of a flow are written by name, the entries that are derived for its input schema come
by name, and the properties of its nodes are written as arguments of `jsonencode`. So a flow and its
sorted form come to the same block, as long as the lists among the settings hold scalars. Only what
a flow is reported with that tells both to be on and off may differ, as its id may be of any kind.

## Main definitions

* `Kind.HoldsScalars` — the lists of a document that are written as lists of texts hold scalars.

## Main results

* `settingsItems_sorted`, `inputSchemaItems_sorted`, `matches_diagramItems_sorted` — the parts.
* `matches_draftFlow_sorted` — the block of a flow.
* `Kind.matches_draft_sorted` — **the block of a document is that of its sorted form.**
-/

namespace HclExport

open Hcl (Item Value)

/-! ### Settings -/

/-- The settings that are written, by name. A level for logging that is added stands in its place
either way. -/
theorem sortOn_knownSettings_sorted (settings : Members) :
    sortOn Prod.fst (knownSettings settings.sorted) = (knownSettings settings).sorted := by
  have hfilter := settings.filter_sorted fun key => (settingNames.lookup key).isSome
  unfold knownSettings
  rw [hfilter]
  generalize (settings.filter fun setting => (settingNames.lookup setting.1).isSome) = known
  have hlevel : (Members.sorted known).lookup "logLevel" =
      (known.lookup "logLevel").map Json.sorted :=
    Members.get?_sorted known "logLevel"
  dsimp only
  rw [Members.isEmpty_sorted, hlevel, Option.isSome_map]
  -- nothing is known, or a level for logging is given, or one is added behind the others
  split
  · rfl
  · split
    · rw [Members.sortOn_sorted, Members.sorted_eq_map]
    · exact Members.sortOn_sorted_append known [("logLevel", .num (.int defaultLogLevel))]

theorem isEmpty_knownSettings_sorted (settings : Members) :
    (knownSettings settings.sorted).isEmpty = (knownSettings settings).isEmpty := by
  rw [← (sortOn_perm Prod.fst _).isEmpty_eq, sortOn_knownSettings_sorted, Members.isEmpty_sorted]

theorem get?_knownSettings_sorted (settings : Members) (key : String) :
    Members.get? (knownSettings settings.sorted) key =
      (Members.get? (knownSettings settings) key).map Json.sorted := by
  rw [← Members.get?_sortOn, sortOn_knownSettings_sorted, Members.get?_sorted]

theorem settingPair_sorted (name : String) {value : Json} (h : value.HoldsScalars) :
    settingPair name value.sorted = settingPair name value := by
  cases value with
  | arr items => rw [Json.sorted_arr, map_sorted_of_holdsScalars h]
  | _ => rfl

theorem settingPairs_map_sorted {settings : Members}
    (h : ∀ setting ∈ settings, setting.2.HoldsScalars) :
    settingPairs (settings.map fun setting => (setting.1, setting.2.sorted)) =
      settingPairs settings := by
  induction settings with
  | nil => rfl
  | cons setting rest ih =>
    obtain ⟨hsetting, hrest⟩ := List.forall_mem_cons.1 h
    rw [List.map_cons, settingPairs, settingPairs, settingPair_sorted _ hsetting, ih hrest]

theorem scriptLink_sorted (link : Members) : scriptLink link.sorted = scriptLink link := by
  simp [scriptLink]

theorem scriptItems_knownSettings_sorted (settings : Members) :
    scriptItems (knownSettings settings.sorted) = scriptItems (knownSettings settings) := by
  unfold scriptItems
  rw [get?_knownSettings_sorted]
  cases Members.get? (knownSettings settings) "jsLinks" with
  | none => rfl
  | some value =>
    rw [Option.map_some]
    dsimp only
    rw [listedObjects_sorted]
    cases listedObjects value with
    | error failure => rfl
    | ok links =>
      show (if (links.map Members.sorted).isEmpty then _ else _) = if links.isEmpty then _ else _
      rw [List.isEmpty_map, List.map_map, show scriptLink ∘ Members.sorted = scriptLink from
        funext scriptLink_sorted]

/-- The settings of a flow whose lists hold scalars. -/
theorem settingsItems_sorted {document : Members}
    (h : ∀ setting ∈ document.inner "settings",
      setting.1 ≠ "jsLinks" → setting.2.HoldsScalars) :
    settingsItems document.sorted = settingsItems document := by
  have hplain : settingPairs ((knownSettings (document.inner "settings")).sorted.filter
        fun setting => setting.1 != "jsLinks") =
      settingPairs ((sortOn Prod.fst (knownSettings (document.inner "settings"))).filter
        fun setting => setting.1 != "jsLinks") := by
    rw [Members.sorted_eq_map, List.filter_map]
    have hknown := (forall_knownSettings_iff (fun _ => by decide) (document.inner "settings")).2
      fun setting hsetting _ => h setting hsetting
    refine settingPairs_map_sorted fun setting hsetting => ?_
    obtain ⟨hmem, hname⟩ := List.mem_filter.1 hsetting
    exact hknown setting (mem_sortOn.1 hmem) (bne_iff_ne.1 hname)
  unfold settingsItems
  dsimp only
  rw [Members.inner_sorted, isEmpty_knownSettings_sorted, sortOn_knownSettings_sorted, hplain,
    scriptItems_knownSettings_sorted]

/-- A flow is switched on or off, or tells both. -/
theorem matches_enabledState_sorted (document : Members) :
    Matches Eq (orFail (enabledState document.sorted)) (orFail (enabledState document)) := by
  have hstatus : statusEnabled? (document.get "flowStatus").sorted =
      statusEnabled? (document.get "flowStatus") := by
    cases document.get "flowStatus" <;> simp [statusEnabled?]
  unfold enabledState
  rw [Members.get_sorted, hstatus, Members.flag?_sorted]
  split
  · split
    · exact .ok rfl
    · exact .fault _ _
  · exact .ok rfl
  · exact .ok rfl

/-! ### Input schemas -/

@[simp] theorem firstText_sorted (members : Members) (key other : String) :
    firstText members.sorted key other = firstText members key other := by
  simp [firstText]

theorem SchemaEntry.ofMembers_sorted (entry : Members) :
    SchemaEntry.ofMembers entry.sorted = SchemaEntry.ofMembers entry := by
  simp [SchemaEntry.ofMembers]

theorem SchemaEntry.ofProperty_sorted (name : String) (property : Members) (required : Bool) :
    SchemaEntry.ofProperty name property.sorted required =
      SchemaEntry.ofProperty name property required := by
  simp [SchemaEntry.ofProperty]

theorem requiredNames_sorted (required : List Json) :
    requiredNames (required.map Json.sorted) = requiredNames required := by
  have hlistable : isListable ∘ Json.sorted = isListable := funext isListable_sorted
  have htext : Json.text? ∘ Json.sorted = Json.text? := funext Json.text?_sorted
  unfold requiredNames
  rw [List.all_map, List.filterMap_map, hlistable, htext]

theorem filterMap_ofProperty_sorted (properties : Members) (names : List String) :
    ((sortOn Prod.fst properties.sorted).filterMap fun (name, property) =>
      property.members?.map fun members =>
        SchemaEntry.ofProperty name members (names.contains name)) =
    (sortOn Prod.fst properties).filterMap fun (name, property) =>
      property.members?.map fun members =>
        SchemaEntry.ofProperty name members (names.contains name) := by
  rw [Members.sortOn_sorted, List.filterMap_map]
  refine List.filterMap_congr fun property _ => ?_
  simp only [Function.comp_apply, Json.members?_sorted, Option.map_map]
  cases property.2.members? with
  | none => rfl
  | some members => exact congrArg some (SchemaEntry.ofProperty_sorted _ _ _)

/-- The entries of a schema come by name. -/
theorem deriveEntries_sorted (properties : Members) (required : List Json) :
    deriveEntries properties.sorted (required.map Json.sorted) =
      deriveEntries properties required := by
  unfold deriveEntries
  rw [requiredNames_sorted]
  simp only [filterMap_ofProperty_sorted]

/-- The items of an array, if a value is one. -/
theorem getD_items?_sorted (value : Json) :
    value.sorted.items?.getD [] = (value.items?.getD []).map Json.sorted := by
  rw [Json.items?_sorted]
  cases value.items? with
  | none => rfl
  | some items => rfl

theorem nodeSchema_sorted (node : Json) : nodeSchema node.sorted = nodeSchema node := by
  have hmembers : node.sorted.members?.getD [] = Members.sorted (node.members?.getD []) := by
    rw [Json.members?_sorted]
    cases node.members? with
    | none => rfl
    | some members => rfl
  unfold nodeSchema
  dsimp only
  rw [hmembers, Members.inner_sorted, Members.inner_sorted, Members.inner_sorted,
    Members.text_sorted]

theorem nodeEntries_sorted (document : Members) :
    nodeEntries document.sorted = nodeEntries document := by
  unfold nodeEntries
  dsimp only
  rw [Members.inner_sorted, Members.inner_sorted, Members.get_sorted, getD_items?_sorted,
    List.mapM_map, show nodeSchema ∘ Json.sorted = nodeSchema from funext nodeSchema_sorted]

theorem compiledEntries_sorted (compiled : Members) :
    compiledEntries compiled.sorted = compiledEntries compiled := by
  have hparameters : (compiled.sorted.get "parameters").members?.getD compiled.sorted =
      Members.sorted ((compiled.get "parameters").members?.getD compiled) := by
    rw [Members.get_sorted, Json.members?_sorted]
    cases (Members.get compiled "parameters").members? with
    | none => rfl
    | some members => rfl
  unfold compiledEntries
  dsimp only
  rw [hparameters, Members.inner_sorted, Members.get_sorted, getD_items?_sorted,
    deriveEntries_sorted]

theorem inputSchema_sorted (document : Members) :
    inputSchema document.sorted = inputSchema document := by
  unfold inputSchema
  rw [Members.get_sorted, Members.get_sorted, getD_items?_sorted, Json.members?_sorted]
  cases (Members.get document "inputSchema").items?.getD [] with
  | cons item rest =>
    rw [List.map_cons]
    dsimp only
    rw [← List.map_cons, Json.filterMap_members?_sorted, List.map_map,
      show SchemaEntry.ofMembers ∘ Members.sorted = SchemaEntry.ofMembers from
        funext SchemaEntry.ofMembers_sorted]
  | nil =>
    cases (Members.get document "inputSchemaCompiled").members? with
    | none => rfl
    | some compiled =>
      rw [Option.map_some, List.map_nil]
      dsimp only
      rw [compiledEntries_sorted, nodeEntries_sorted]

theorem inputSchemaItems_sorted (document : Members) :
    inputSchemaItems document.sorted = inputSchemaItems document := by
  unfold inputSchemaItems
  rw [inputSchema_sorted]

/-- The output schema is encoded as a whole. -/
theorem same_outputSchemaItems_sorted (document : Members) :
    Item.Same (outputSchemaItems document.sorted) (outputSchemaItems document) := by
  unfold outputSchemaItems
  dsimp only
  rw [Members.inner_sorted, Members.isEmpty_sorted, Members.get?_sorted]
  split
  · exact .refl _
  · refine .cons _ (.block _ _ _ ?_)
    cases Members.get? (document.inner "outputSchema") "output" with
    | none => exact .refl _
    | some value => exact .json _ (Value.same_ofJson_sorted value)

/-! ### Diagrams -/

theorem elementId_sorted (element : Members) : elementId element.sorted = elementId element := by
  simp [elementId]

@[simp] theorem elementKey_sorted (word : String) (index : Nat) (element : Members) :
    elementKey word index element.sorted = elementKey word index element := by
  simp [elementKey, elementId_sorted]

/-- Elements stand in the order of their ids. -/
theorem sortElements_sorted (elements : List Json) :
    sortElements (elements.map Json.sorted) = (sortElements elements).map Members.sorted := by
  unfold sortElements
  rw [Json.filterMap_members?_sorted, sortOn_map]
  exact congrArg _ (sortOn_congr fun element _ => elementId_sorted element)

@[simp] theorem positionItem_sorted (name : String) (position : Members) :
    positionItem name position.sorted = positionItem name position := by
  simp [positionItem]

@[simp] theorem elementItems_sorted (element : Members) :
    elementItems element.sorted = elementItems element := by
  unfold elementItems
  rw [Members.get_sorted]
  cases Members.get element "position" <;> simp

theorem edgeItem_sorted (index : Nat) (edge : Members) :
    edgeItem index edge.sorted = edgeItem index edge := by
  simp [edgeItem]

theorem edgesItem_sorted (edges : List Members) :
    edgesItem (edges.map Members.sorted) = edgesItem edges := by
  have hitems : (edges.map Members.sorted).mapIdx edgeItem = edges.mapIdx edgeItem := by
    refine List.ext_getElem (by simp) fun index _ _ => ?_
    simp only [List.getElem_mapIdx, List.getElem_map, edgeItem_sorted]
  unfold edgesItem
  rw [List.isEmpty_map, hitems]

theorem propertyReferences_sorted (source : Resource) (properties : Members)
    (fields : List (String × String)) :
    propertyReferences source properties.sorted fields =
      propertyReferences source properties fields := by
  induction fields with
  | nil => rfl
  | cons field rest ih =>
    rw [propertyReferences, propertyReferences, Members.text_sorted, ih]

theorem linkNodeProperties_eq_map (references : List (String × Hcl.Expression))
    (properties : Members) :
    linkNodeProperties references properties = .object (properties.map fun property =>
      (property.1, (references.lookup property.1).elim (.ofJson property.2) .expr)) := by
  unfold linkNodeProperties
  refine congrArg Value.object (List.map_congr_left ?_)
  rintro ⟨key, value⟩ -
  dsimp only
  cases references.lookup key <;> rfl

/-- The properties of a node are encoded as a whole, with references in their places. -/
theorem same_linkNodeProperties_sorted (references : List (String × Hcl.Expression))
    (properties : Members) :
    (linkNodeProperties references properties.sorted).Same
      (linkNodeProperties references properties) := by
  rw [linkNodeProperties_eq_map, linkNodeProperties_eq_map]
  refine Value.same_object_sorted
    (f := fun key value => (references.lookup key).elim (.ofJson value) .expr) fun property _ => ?_
  cases references.lookup property.1 with
  | some reference => exact .refl _
  | none => exact Value.same_ofJson_sorted _

section Nodes

variable (source : Resource) (answer : Request → Hcl.Expression)

theorem matches_nodePropertyItems_sorted (data : Members) :
    Matches Item.Same ((nodePropertyItems source data.sorted).result answer)
      ((nodePropertyItems source data).result answer) := by
  unfold nodePropertyItems
  rw [Members.get_sorted]
  cases Members.get data "properties" with
  | obj properties =>
    rw [Json.sorted_obj]
    dsimp only
    rw [propertyReferences_sorted]
    refine .same_bind fun references => .ok ?_
    exact .json _ (same_linkNodeProperties_sorted references properties)
  | _ => exact .ok (.refl _)

theorem matches_nodeDataItem_sorted (data : Members) :
    Matches (fun item other => Item.Same [item] [other])
      ((nodeDataItem source data.sorted).result answer)
      ((nodeDataItem source data).result answer) := by
  unfold nodeDataItem
  simp only [Members.text_sorted, textPair_sorted]
  refine .same_bind fun connection => ?_
  refine .draft_bind (matches_nodePropertyItems_sorted source answer data) ?_
  intro properties others hproperties
  exact .ok (.block _ _ _ (.cons _ hproperties))

theorem matches_nodeItem_sorted (index : Nat) (node : Members) :
    Matches (fun item other => Item.Same [item] [other])
      ((nodeItem source index node.sorted).result answer)
      ((nodeItem source index node).result answer) := by
  unfold nodeItem
  dsimp only
  rw [Members.inner_sorted, Members.isEmpty_sorted, elementKey_sorted, elementItems_sorted]
  split
  · exact .ok (.refl _)
  · refine .draft_bind (matches_nodeDataItem_sorted source answer (node.inner "data")) ?_
    intro item other hitem
    exact .ok (.block _ _ _ (.append hitem (.refl _)))

theorem matches_nodeItems_sorted (index : Nat) (nodes : List Members) :
    Matches Item.Same ((nodeItems source index (nodes.map Members.sorted)).result answer)
      ((nodeItems source index nodes).result answer) := by
  induction nodes generalizing index with
  | nil => exact .ok (.refl _)
  | cons node rest ih =>
    refine .draft_bind (matches_nodeItem_sorted source answer index node) ?_
    intro item other hitem
    refine .draft_bind (ih (index + 1)) fun items others hitems => .ok ?_
    exact .append hitem hitems

theorem edgeGroup_sorted (elements : Members) :
    (match (Members.get elements "edges").sorted with
      | .arr items => [edgesItem (sortElements items)]
      | _ => []) =
    match Members.get elements "edges" with
      | .arr items => [edgesItem (sortElements items)]
      | _ => [] := by
  cases Members.get elements "edges" with
  | arr items =>
    rw [Json.sorted_arr]
    dsimp only
    rw [sortElements_sorted, edgesItem_sorted]
  | _ => rfl

theorem matches_elementGroups_sorted (elements : Members) :
    Matches Item.Same ((elementGroups source elements.sorted).result answer)
      ((elementGroups source elements).result answer) := by
  have hedges := edgeGroup_sorted elements
  unfold elementGroups
  rw [Members.get_sorted, Members.get_sorted]
  dsimp only
  cases Members.get elements "nodes" with
  | arr items =>
    rw [Json.sorted_arr]
    dsimp only
    rw [sortElements_sorted]
    refine .draft_bind (matches_nodeItems_sorted source answer 0 (sortElements items)) ?_
    intro items others hitems
    exact .ok (.append (.block _ _ _ hitems) (.of_eq hedges))
  | _ => exact .ok (.append (.refl _) (.of_eq hedges))

theorem viewItems_sorted (diagram : Members) : viewItems diagram.sorted = viewItems diagram := by
  unfold viewItems
  simp only [integerPair_sorted, numberPair_sorted, flagPair_sorted]

theorem same_encodedItems_sorted (diagram : Members) (key : String) :
    Item.Same (encodedItems diagram.sorted key) (encodedItems diagram key) := by
  unfold encodedItems
  rw [Members.get_sorted]
  cases Members.get diagram key with
  | obj members => exact .json _ (Value.same_ofJson_sorted (.obj members))
  | _ => exact .refl _

theorem panItems_sorted (diagram : Members) :
    (match (Members.get diagram "pan").sorted with
      | .obj members => [Item.blank, positionItem "pan" members]
      | _ => []) =
    match Members.get diagram "pan" with
      | .obj members => [Item.blank, positionItem "pan" members]
      | _ => [] := by
  cases Members.get diagram "pan" <;> simp

theorem same_rendererItems_sorted (diagram : Members) :
    Item.Same
      (match encodedItems diagram.sorted "renderer" with
      | [] => []
      | items => Item.blank :: items)
      (match encodedItems diagram "renderer" with
      | [] => []
      | items => Item.blank :: items) := by
  unfold encodedItems
  rw [Members.get_sorted]
  cases Members.get diagram "renderer" with
  | obj members => exact .cons _ (.json _ (Value.same_ofJson_sorted (.obj members)))
  | _ => exact .refl _

/-- Data, elements, view and renderer of a diagram. -/
theorem matches_diagramBody_sorted (diagram : Members) :
    Matches Item.Same ((diagramBody source diagram.sorted).result answer)
      ((diagramBody source diagram).result answer) := by
  have hpan := panItems_sorted diagram
  have hrenderer := same_rendererItems_sorted diagram
  have hdata := same_encodedItems_sorted diagram "data"
  unfold diagramBody
  rw [Members.get_sorted, Members.get_sorted]
  dsimp only
  rw [viewItems_sorted]
  cases Members.get diagram "elements" with
  | obj elements =>
    rw [Json.sorted_obj]
    dsimp only
    refine .draft_bind (matches_elementGroups_sorted source answer elements) ?_
    intro items others hitems
    rw [pure_bind, pure_bind]
    refine .lift_bind rfl fun view _ => .ok ?_
    refine .append (.append (.append (.append hdata ?_) (.of_eq hpan)) (.refl _)) hrenderer
    exact .block _ _ _ hitems
  | _ =>
    dsimp only
    rw [pure_bind, pure_bind]
    refine .lift_bind rfl fun view _ => .ok ?_
    exact .append (.append (.append (.append hdata (.refl _)) (.of_eq hpan)) (.refl _)) hrenderer

theorem matches_diagramItems_sorted (document : Members) :
    Matches Item.Same ((diagramItems source document.sorted).result answer)
      ((diagramItems source document).result answer) := by
  unfold diagramItems
  rw [Members.get_sorted]
  cases Members.get document "graphData" with
  | obj diagram =>
    rw [Json.sorted_obj]
    refine .draft_bind (matches_diagramBody_sorted source answer diagram) ?_
    intro items others hitems
    exact .ok (.cons _ (.block _ _ _ hitems))
  | _ => exact .ok (.refl _)

end Nodes

/-! ### Whole flows -/

theorem flowTrigger_sorted (document : Members) :
    flowTrigger document.sorted = flowTrigger document := by
  unfold flowTrigger
  rw [Members.get_sorted]
  cases Members.get document "trigger" <;> simp

theorem flowVersion_sorted (context : Context) (document : Members) (unique : String) :
    flowVersion context document.sorted unique = flowVersion context document unique := by
  simp [flowVersion]

theorem flowPairs_sorted (name : String) (document : Members) :
    flowPairs name document.sorted = flowPairs name document := by
  simp [flowPairs]

/-- The block of a flow with its companions, if its lists hold scalars. What a flow that tells both
states is reported with may differ. -/
theorem matches_draftFlow_sorted (context : Context) (answer : Request → Hcl.Expression)
    {document : Members}
    (h : ∀ setting ∈ document.inner "settings",
      setting.1 ≠ "jsLinks" → setting.2.HoldsScalars) :
    Matches Eq ((draftFlow context document.sorted).result answer)
      ((draftFlow context document).result answer) := by
  unfold draftFlow
  simp only [requireText_sorted, resourceId_sorted]
  refine .lift_bind rfl fun name _ => .lift_bind rfl fun id _ => ?_
  refine .draft_bind (S := Eq) (matches_enabledState_sorted document) ?_
  rintro enabled _ rfl
  refine .lift_bind rfl fun unique _ => ?_
  refine .lift_bind (settingsItems_sorted h) fun settings _ => ?_
  refine .draft_bind (matches_diagramItems_sorted _ answer document) ?_
  intro diagram others hdiagram
  refine .lift_bind (inputSchemaItems_sorted document) fun schema _ => ?_
  refine .lift_bind (flowTrigger_sorted document) fun trigger _ => ?_
  refine .lift_bind (flowVersion_sorted context document unique) fun version _ => ?_
  -- of all the parts, the diagram and the output schema alone are written from other values
  have hwritten : ∀ header start rest, Item.renderAll (.braced header
        (start ++ settings ++ diagram ++ schema ++ outputSchemaItems document.sorted ++ trigger) ::
          rest) =
      Item.renderAll (.braced header
        (start ++ settings ++ others ++ schema ++ outputSchemaItems document ++ trigger) ::
          rest) := by
    intro header start rest
    refine (Item.Same.append (.block header _ _ ?_) (.refl rest)).renderAll_eq
    refine .append (.append (.append (.append (.refl _) hdiagram) (.refl _)) ?_) (.refl _)
    exact same_outputSchemaItems_sorted document
  rw [flowPairs_sorted, hwritten]
  exact .ok rfl

/-! ### Documents of every kind -/

namespace Kind

/-- The lists of a document that are written as lists of texts hold neither arrays nor objects:
those among the settings of a flow, apart from the links to scripts, and those among the settings
for OAuth of an application. -/
def HoldsScalars (kind : Kind) (document : Members) : Prop :=
  match kind with
  | .flow => ∀ setting ∈ document.inner "settings",
      setting.1 ≠ "jsLinks" → setting.2.HoldsScalars
  | .application => ∀ list ∈ oauthLists, ((document.inner "oauth").get list.1).HoldsScalars
  | _ => True

instance (kind : Kind) (document : Members) : Decidable (kind.HoldsScalars document) :=
  match kind with
  | .flow => inferInstanceAs (Decidable (∀ setting ∈ document.inner "settings",
      setting.1 ≠ "jsLinks" → setting.2.HoldsScalars))
  | .application => inferInstanceAs (Decidable (∀ list ∈ oauthLists,
      ((document.inner "oauth").get list.1).HoldsScalars))
  | .variable | .connectorInstance | .flowPolicy => .isTrue trivial

theorem holdsScalars_sorted_iff (kind : Kind) (document : Members) :
    kind.HoldsScalars document.sorted ↔ kind.HoldsScalars document := by
  cases kind with
  | flow =>
    unfold HoldsScalars
    simp only [Members.inner_sorted, Members.mem_sorted]
    constructor
    · intro h setting hsetting hname
      exact (Json.holdsScalars_sorted_iff _).1 (h _ ⟨setting, hsetting, rfl⟩ hname)
    · rintro h _ ⟨setting, hsetting, rfl⟩ hname
      exact (Json.holdsScalars_sorted_iff _).2 (h setting hsetting hname)
  | application =>
    simp only [HoldsScalars, Members.inner_sorted, Members.get_sorted,
      Json.holdsScalars_sorted_iff]
  | _ => exact Iff.rfl

theorem label_sorted (kind : Kind) (document : Members) :
    kind.converter.label document.sorted = kind.converter.label document := by
  cases kind with
  | «variable» =>
    show Except.ok (sanitizeComposite
      [document.sorted.text "name", document.sorted.text "context"]) = _
    rw [Members.text_sorted, Members.text_sorted]
    rfl
  | _ => exact labelOf_sorted document _

theorem parentId_sorted (kind : Kind) (context : Context) (document : Members) :
    kind.converter.parentId context document.sorted =
      kind.converter.parentId context document := by
  cases kind with
  | flowPolicy => exact owningApplication_sorted context document
  | _ => rfl

/-- A document whose lists hold scalars comes to the block of its sorted form. -/
theorem matches_draft_sorted (kind : Kind) (context : Context)
    (answer : Request → Hcl.Expression) {document : Members} (h : kind.HoldsScalars document) :
    Matches Eq ((kind.converter.draft context document.sorted).result answer)
      ((kind.converter.draft context document).result answer) := by
  cases kind with
  | «variable» =>
    exact .of_eq (fun _ => rfl) (congrArg _ (draftVariable_sorted context document))
  | connectorInstance =>
    exact .of_eq (fun _ => rfl) (congrArg _ (draftConnectorInstance_sorted {} context document))
  | flow => exact matches_draftFlow_sorted context answer h
  | application => exact .of_eq (fun _ => rfl) (congrArg _ (draftApplication_sorted context h))
  | flowPolicy =>
    exact .of_eq (fun _ => rfl) (congrArg _ (draftFlowPolicy_sorted context document))

end Kind

end HclExport
