import HclExport.Conversion.Document
import HclExport.Json.Reader

/-!
# Input schemas of flows

What a flow asks for when it starts: the entries of the document, else those of its
compiled schema, else those of the schemas embedded in its nodes.

## Main definitions

* `normalizeDataType` — the data types that a configuration knows.
* `SchemaEntry` — one entry.
* `deriveEntries` — the entries of a schema.
* `inputSchema` — the entries of a document.
-/

namespace HclExport

open Hcl (Item)

/-- Other words for data types. -/
def dataTypeAliases : List (String × String) :=
  [("bool", "boolean"), ("integer", "number"), ("int", "number"), ("float", "number"),
   ("double", "number"), ("secret", "string")]

/-- The data types that a configuration knows. -/
def inputDataTypes : List String :=
  ["array", "boolean", "number", "object", "string"]

/-- A data type as a configuration knows it; an unknown one becomes a text. -/
def normalizeDataType (type : String) : String :=
  let small := lower type
  let known := (dataTypeAliases.lookup small).getD small
  if inputDataTypes.contains known then known else "string"

/-! ### Entries -/

/-- The first of two texts that is there. -/
def firstText (members : Members) (key other : String) : String :=
  if members.text key = "" then members.text other else members.text key

/-- One entry of an input schema. -/
structure SchemaEntry where
  property : String
  dataType : String
  control : String
  required : Option Bool
  expanded : Option Bool
  description : String

/-- An entry that a document gives. -/
def SchemaEntry.ofMembers (entry : Members) : SchemaEntry where
  property := entry.text "propertyName"
  dataType := firstText entry "preferredDataType" "dataType"
  control := entry.text "preferredControlType"
  required := entry.flag? "required"
  expanded := entry.flag? "isExpanded"
  description := entry.text "description"

/-- The entry of a property in a schema. -/
def SchemaEntry.ofProperty (name : String) (property : Members) (required : Bool) :
    SchemaEntry where
  property := name
  dataType := firstText property "preferredDataType" "type"
  control :=
    if property.text "preferredControlType" = "" then "textField"
    else property.text "preferredControlType"
  required := some required
  expanded := some (property.flag? "isExpanded" == some true)
  description := property.text "description"

/-- Whether a value can be a member of a set of names; lists and objects cannot. -/
def isListable : Json → Bool
  | .arr _ => false
  | .obj _ => false
  | _ => true

/-- The names in a list of required properties. -/
def requiredNames (required : List Json) : Except Failure (List String) :=
  if required.all isListable then .ok (required.filterMap Json.text?) else .error .mistyped

/-- The entries of the properties of a schema, by name. -/
def deriveEntries (properties : Members) (required : List Json) :
    Except Failure (List SchemaEntry) := do
  let names ← requiredNames required
  return (sortOn Prod.fst properties).filterMap fun (name, property) =>
    property.members?.map fun members => .ofProperty name members (names.contains name)

/-! ### Schemas in nodes -/

/-- The schema embedded in a node, if it can be read. -/
def nodeSchema (node : Json) : Except Failure (Option Members) :=
  let properties := Members.inner (Members.inner (node.members?.getD []) "data") "properties"
  let raw := (properties.inner "inputSchema").text "value"
  if raw = "" then .ok none
  else match Json.read raw with
    | .ok value => .ok value.members?
    | .error (.malformed _ _) => .ok none
    | .error e => .error (.ofJsonError raw e)

/-- The properties of several schemas, the first of a name kept, and all that they require. -/
def mergeSchemas (schemas : List Members) : Members × List Json :=
  let properties := schemas.flatMap fun schema => schema.inner "properties"
  let merged := properties.foldl
    (fun (found : Members) property =>
      if (found.lookup property.1).isSome then found else found ++ [property]) []
  (merged, schemas.flatMap fun schema => (schema.get "required").items?.getD [])

/-- The entries of the schemas in the nodes of a document. -/
def nodeEntries (document : Members) : Except Failure (List SchemaEntry) := do
  let elements := (document.inner "graphData").inner "elements"
  let nodes := (elements.get "nodes").items?.getD []
  let schemas ← nodes.mapM nodeSchema
  let (properties, required) := mergeSchemas (schemas.filterMap id)
  deriveEntries properties required

/-- The entries of the compiled schema of a document. -/
def compiledEntries (compiled : Members) : Except Failure (List SchemaEntry) :=
  let parameters := (compiled.get "parameters").members?.getD compiled
  deriveEntries (parameters.inner "properties") ((parameters.get "required").items?.getD [])

/-- The entries of a document: its own; without any, those of its compiled schema; and if
that has none, those of the schemas in its nodes. -/
def inputSchema (document : Members) : Except Failure (List SchemaEntry) :=
  match (document.get "inputSchema").items?.getD [] with
  | item :: rest => .ok (((item :: rest).filterMap Json.members?).map SchemaEntry.ofMembers)
  | [] =>
    match (document.get "inputSchemaCompiled").members? with
    | none => .ok []
    | some compiled => do
      let entries ← compiledEntries compiled
      if entries.isEmpty then nodeEntries document else return entries

/-! ### Output -/

/-- One entry; data type and description are always written. -/
def SchemaEntry.items (entry : SchemaEntry) : List Item :=
  let text (key value : String) := if value = "" then [] else [(key, Hcl.quote value)]
  let flag (key : String) (value : Option Bool) := match value with
    | some b => [(key, Hcl.boolText b)]
    | none => []
  [.assignAll
    (text "property_name" entry.property ++
      [("preferred_data_type", Hcl.quote (normalizeDataType entry.dataType))] ++
      text "preferred_control_type" entry.control ++
      flag "required" entry.required ++ flag "is_expanded" entry.expanded ++
      [("description", Hcl.quote entry.description)])]

/-- The input schema behind an empty line, if it has entries. -/
def inputSchemaItems (document : Members) : Except Failure (List Item) := do
  let entries ← inputSchema document
  if entries.isEmpty then return []
  return [.blank, .block "input_schema =" "[" "]" (Item.elements (entries.map SchemaEntry.items))]

end HclExport
