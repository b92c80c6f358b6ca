import HclExport.Conversion.FlowPolicy
import HclExport.Resource.Schema

/-!
# Diagrams of flows

The nodes and edges of a flow in the order of their ids, with references to connector
instances, variables and other flows.

## Main definitions

* `sortElements` — elements in the order of their ids.
* `nodeReferences` — the properties of a node that refer to resources.
* `linkNodeProperties` — the properties of a node with references in them.
* `diagramItems` — the block of a diagram.
-/

namespace HclExport

open Hcl (Item Value)

/-- The id of an element of a diagram. -/
def elementId (element : Members) : String :=
  (element.inner "data").text "id"

/-- The objects of a list in the order of their ids. -/
def sortElements (elements : List Json) : List Members :=
  sortOn elementId (elements.filterMap Json.members?)

/-- The key of an element: its id, or its position behind a word. -/
def elementKey (word : String) (index : Nat) (element : Members) : String :=
  if elementId element = "" then word ++ "_" ++ toString index else elementId element

/-! ### What nodes and edges share -/

/-- The coordinates of an element or of the view. -/
def positionItem (name : String) (position : Members) : Item :=
  .object name ((numberPair position "x" "x" ++ numberPair position "y" "y").map
    fun (key, value) => .assign key value)

/-- Truth values of an element. -/
def elementFlags : List String :=
  ["removed", "selected", "selectable", "locked", "grabbable", "pannable"]

/-- Position, group, truth values and classes; the classes are always written. -/
def elementItems (element : Members) : List Item :=
  let position := match element.get "position" with
    | .obj members => [positionItem "position" members]
    | _ => []
  position ++
    [.assignAll
      (textPair element "group" "group" ++
        elementFlags.flatMap (fun flag => flagPair element flag flag) ++
        [("classes", Hcl.quote (element.text "classes"))])]

/-! ### Nodes -/

/-- Where the properties of a node stand in a document. -/
def nodePropertiesPath : String := "graphData.elements.nodes[*].data.properties."

/-- The properties of a node that refer to resources, and the fields of the references: the
last segments of the declared paths that lead into the properties. -/
def nodeReferences : List (String × String) :=
  Kind.flow.schema.filterMap fun path =>
    let cs := path.path.toList
    if nodePropertiesPath.toList.isPrefixOf cs then
      some (String.ofList (cs.drop nodePropertiesPath.length), path.field)
    else none

/-- The references among the properties of a node, in the order of their declaration. -/
def propertyReferences (source : Resource) (properties : Members) :
    List (String × String) → Draft (List (String × Hcl.Expression))
  | [] => return []
  | (key, field) :: rest => do
    let id := properties.text key
    if id = "" then propertyReferences source properties rest
    else
      let reference ← Draft.ask ⟨source, field, id⟩
      let more ← propertyReferences source properties rest
      return (key, reference) :: more

/-- Properties with references in their places. -/
def linkNodeProperties (references : List (String × Hcl.Expression)) (properties : Members) :
    Value :=
  .object (properties.map fun (key, value) =>
    (key, match references.lookup key with
      | some reference => .expr reference
      | none => .ofJson value))

/-- The properties of a node, if there are any. -/
def nodePropertyItems (source : Resource) (data : Members) : Draft (List Item) :=
  match data.get "properties" with
  | .obj properties => do
    let references ← propertyReferences source properties nodeReferences
    return [.json "properties" (linkNodeProperties references properties)]
  | _ => return []

/-- The data of a node. -/
def nodeDataItem (source : Resource) (data : Members) : Draft Item := do
  let connection ← referencePair source "connection_id" "connection_id"
    (data.text "connectionId")
  let properties ← nodePropertyItems source data
  let text := fun (pair : String × String) => textPair data pair.1 pair.2
  let before := [("id", "id"), ("nodeType", "node_type"), ("idUnique", "id_unique")]
  let after :=
    [("connectorId", "connector_id"), ("name", "name"), ("label", "label"),
     ("status", "status"), ("capabilityName", "capability_name"), ("type", "type")]
  return .object "data"
    (.assignAll (before.flatMap text ++ connection ++ after.flatMap text) :: properties)

/-- One node. -/
def nodeItem (source : Resource) (index : Nat) (node : Members) : Draft Item := do
  let data := node.inner "data"
  let items ← if data.isEmpty then pure [] else do
    pure [← nodeDataItem source data]
  return .object (Hcl.quote (elementKey "node" index node)) (items ++ elementItems node)

/-- Nodes with their positions from `index` on. -/
def nodeItems (source : Resource) : Nat → List Members → Draft (List Item)
  | _, [] => return []
  | index, node :: rest => do
    let item ← nodeItem source index node
    let more ← nodeItems source (index + 1) rest
    return item :: more

/-! ### Edges -/

/-- One edge. -/
def edgeItem (index : Nat) (edge : Members) : Item :=
  let data := edge.inner "data"
  let items := if data.isEmpty then [] else
    [Item.object "data"
      [.assignAll (["id", "source", "target"].flatMap fun key => textPair data key key)]]
  .object (Hcl.quote (elementKey "edge" index edge)) (items ++ elementItems edge)

/-- All edges. -/
def edgesItem (edges : List Members) : Item :=
  if edges.isEmpty then .assign "edges" "\x7b\x7d"
  else .object "edges" (edges.mapIdx edgeItem)

/-! ### The diagram -/

/-- Truth values of a diagram. -/
def diagramFlags : List (String × String) :=
  [("zoomingEnabled", "zooming_enabled"), ("panningEnabled", "panning_enabled"),
   ("userZoomingEnabled", "user_zooming_enabled"),
   ("userPanningEnabled", "user_panning_enabled"),
   ("boxSelectionEnabled", "box_selection_enabled")]

/-- The nodes and edges of a diagram, if they are lists. -/
def elementGroups (source : Resource) (elements : Members) : Draft (List Item) := do
  let nodes ← match elements.get "nodes" with
    | .arr items => do
      pure [Item.object "nodes" (← nodeItems source 0 (sortElements items))]
    | _ => pure []
  let edges := match elements.get "edges" with
    | .arr items => [edgesItem (sortElements items)]
    | _ => []
  return nodes ++ edges

/-- How a diagram is viewed. -/
def viewItems (diagram : Members) : Except Failure (List Item) := do
  let zoom ← integerPair diagram "zoom" "zoom"
  let pairs := zoom ++ numberPair diagram "minZoom" "min_zoom" ++
    numberPair diagram "maxZoom" "max_zoom" ++
    diagramFlags.flatMap fun (key, name) => flagPair diagram key name
  return if pairs.isEmpty then [] else [.blank, .assignAll pairs]

/-- An object of a diagram that is encoded as JSON text, if it is there. -/
def encodedItems (diagram : Members) (key : String) : List Item :=
  match diagram.get key with
  | .obj members => [.json key (.object (Value.ofMembers members))]
  | _ => []

/-- Data, elements, view and renderer of a diagram. -/
def diagramBody (source : Resource) (diagram : Members) : Draft (List Item) := do
  let elements ← match diagram.get "elements" with
    | .obj members => do
      pure [Item.object "elements" (← elementGroups source members)]
    | _ => pure []
  let pan := match diagram.get "pan" with
    | .obj members => [Item.blank, positionItem "pan" members]
    | _ => []
  let view ← viewItems diagram
  let renderer := match encodedItems diagram "renderer" with
    | [] => []
    | items => Item.blank :: items
  return encodedItems diagram "data" ++ elements ++ pan ++ view ++ renderer

/-- The block of a diagram behind an empty line, if there is one. -/
def diagramItems (source : Resource) (document : Members) : Draft (List Item) :=
  match document.get "graphData" with
  | .obj diagram => do
    return [.blank, .object "graph_data" (← diagramBody source diagram)]
  | _ => return []

end HclExport
