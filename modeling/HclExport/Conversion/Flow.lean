import HclExport.Conversion.Flow.Diagram
import HclExport.Conversion.Flow.InputSchema
import HclExport.Conversion.Flow.Settings

/-!
# Flows

A flow becomes three resources under one name: the flow, a resource that switches it on,
and one that deploys it when its version changes.

## Main definitions

* `enableItem`, `deployItem` — the companions of a flow.
* `draftFlow`, `Converter.flow` — the conversion.
-/

namespace HclExport

open Hcl (Item Value)

/-- The attributes that name a flow. -/
def flowPairs (name : String) (document : Members) : List (String × String) :=
  [("name", Hcl.quote name)] ++ textPair document "description" "description" ++
    (if document.text "flowColor" = "" then textPair document "color" "color"
      else textPair document "flowColor" "color")

/-- The output schema behind an empty line, if there is one. -/
def outputSchemaItems (document : Members) : List Item :=
  let schema := document.inner "outputSchema"
  if schema.isEmpty then []
  else
    let output := match schema.get? "output" with
      | some value => [Item.json "output" (.ofJson value)]
      | none => []
    [.blank, .object "output_schema" output]

/-- The trigger of a flow behind an empty line, if there is one. -/
def flowTrigger (document : Members) : Except Failure (List Item) :=
  match document.get "trigger" with
  | .obj trigger => do return [.blank, ← triggerItem trigger]
  | _ => .ok []

/-- The flow as its companions refer to it: by its address, or by its id. -/
def flowReference (context : Context) (id unique : String) : String :=
  if context.skipsReferences then Hcl.quote id
  else attributeAddress Kind.flow.type unique "id"

/-- The resource that switches a flow on or off. -/
def enableItem (context : Context) (id unique : String) (enabled : Option Bool) : Item :=
  let state := match context.skipsReferences, enabled with
    | true, some b => Hcl.boolText b
    | _, _ => attributeAddress Kind.flow.type unique "enabled"
  .braced (Hcl.resourceHeader flowEnableType unique)
    [.assignAll
      [("environment_id", context.environment), ("flow_id", flowReference context id unique),
       ("enabled", state)]]

/-- The version of a flow: that of the document when references are skipped. -/
def flowVersion (context : Context) (document : Members) (unique : String) :
    Except Failure String :=
  match context.skipsReferences, document.number? "currentVersion" with
  | true, some n => integerText n
  | _, _ => .ok (attributeAddress Kind.flow.type unique "current_version")

/-- The resource that deploys a flow. -/
def deployItem (context : Context) (id unique version : String) : Item :=
  .braced (Hcl.resourceHeader flowDeployType unique)
    [.assignAll
      [("environment_id", context.environment), ("flow_id", flowReference context id unique)],
     .object "deploy_trigger_values" [.assign (Hcl.quote "deployed_version") version]]

/-- The block of a flow with its companions. -/
def draftFlow (context : Context) (document : Members) : Draft Block := do
  let name ← orFail (requireText .flow document "name" "flow name")
  let id ← orFail (resourceId .flow document)
  let enabled ← orFail (enabledState document)
  let ref : Ref := ⟨.flow, id⟩
  let unique ← orFail (context.graph.graph.lookup ref)
  let source := context.sourceOf ref
  let settings ← settingsItems document
  let diagram ← diagramItems source document
  let schema ← inputSchemaItems document
  let trigger ← flowTrigger document
  let version ← flowVersion context document unique
  let body :=
    [.assign "environment_id" context.environment, .blank, .assignAll (flowPairs name document)] ++
      settings ++ diagram ++ schema ++ outputSchemaItems document ++ trigger
  return {
    ref := ref
    name := unique
    hcl := Item.renderAll
      [.braced (Hcl.resourceHeader Kind.flow.type unique) body, .blank,
       enableItem context id unique enabled, .blank, deployItem context id unique version] }

/-- The converter of flows. -/
def Converter.flow : Converter where
  name := "FlowHandler"
  kind := .flow
  types := [Kind.flow.type, flowEnableType, flowDeployType]
  label := labelOf .flow
  parentId := fun _ _ => .ok none
  inputs := fun _ _ => []
  draft := draftFlow
  companions := [flowEnableType]

end HclExport
