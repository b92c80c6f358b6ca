import HclExport.Conversion.Converter

/-!
# Connector instances

The properties of a connector instance are written as they are, in their containers of type
and value. A value that is taken from outside is replaced by its variable when it is masked,
and otherwise when variables are asked for.

## Main definitions

* `linkedProperty`, `linkedProperties` — properties with variables in them.
* `draftConnectorInstance`, `Converter.connectorInstance` — the conversion.
-/

namespace HclExport

open Hcl (Item Value)

/-- The variable that takes the place of a property, if one does. -/
def substitute? (usesVariables : Bool) (inputs : List InputVariable) (property : String) :
    Option InputVariable :=
  (inputs.find? fun input => input.path = "properties." ++ property).filter fun input =>
    input.current.isNone || usesVariables

/-- A property with a variable in its place or in that of its value. -/
def linkedProperty (substitute : Option InputVariable) (property : Json) : Value :=
  if hasTypedValue property then
    let members := property.members?.getD []
    let type := if isNamed (members.get "type") then [("type", members.get "type")] else []
    let value := match substitute with
      | some input => .expr input.interpolation
      | none => .ofJson (members.get "value")
    .object (Value.ofMembers type ++ [("value", value)])
  else match substitute with
    | some input => .expr input.interpolation
    | none => .ofJson property

/-- Properties with variables in them. -/
def linkedProperties (usesVariables : Bool) (inputs : List InputVariable)
    (properties : Members) : Value :=
  .object (properties.map fun (key, property) =>
    (key, linkedProperty (substitute? usesVariables inputs key) property))

/-- The block of a connector instance. -/
def draftConnectorInstance (rules : PropertyRules) (context : Context) (document : Members) :
    Draft Block := do
  let name ← orFail (requireText .connectorInstance document "name" "connector instance name")
  let connectorId ← orFail
    (requireText .connectorInstance (document.inner "connector") "id" "connector.id")
  let id ← orFail (resourceId .connectorInstance document)
  let unique ← orFail (context.graph.graph.lookup ⟨.connectorInstance, id⟩)
  let inputs := connectorInputs rules document unique
  let properties := document.inner "properties"
  let body :=
    [.assign "environment_id" context.environment, .blank, .assign "name" (Hcl.quote name),
     .blank, .object "connector" [.assign "id" (Hcl.quote connectorId)]] ++
    (if properties.isEmpty then []
      else [.blank, .json "properties" (linkedProperties context.usesVariables inputs properties)])
  return {
    ref := ⟨.connectorInstance, id⟩
    name := unique
    hcl := Item.renderAll [.braced (Hcl.resourceHeader Kind.connectorInstance.type unique) body]
    inputs := inputs }

/-- The converter of connector instances, for given rules about their properties. -/
def Converter.connectorInstance (rules : PropertyRules) : Converter where
  name := "ConnectorInstanceHandler"
  kind := .connectorInstance
  types := [Kind.connectorInstance.type]
  label := labelOf .connectorInstance
  parentId := fun _ _ => .ok none
  inputs := connectorInputs rules
  draft := draftConnectorInstance rules

end HclExport
