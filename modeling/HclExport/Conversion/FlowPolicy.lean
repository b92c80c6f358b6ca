import HclExport.Conversion.Converter

/-!
# Flow policies

A flow policy belongs to an application and distributes requests over flows; it refers to
both.

## Main definitions

* `owningApplication` — the application of a policy.
* `distributionItem` — one flow with its share.
* `draftFlowPolicy`, `Converter.flowPolicy` — the conversion.
-/

namespace HclExport

open Hcl (Item)

/-- The application of a policy: the one that the document names, or the recorded owner. -/
def owningApplication (context : Context) (document : Members) :
    Except Fault (Option String) :=
  if document.text "applicationId" != "" then .ok (some (document.text "applicationId"))
  else match context.ownership with
    | none => .ok none
    | some ownership => do
      let id ← resourceId .flowPolicy document
      return (ownership.parent? ⟨.flowPolicy, id⟩).map fun record => record.parent.id

/-- A reference as an attribute, if there is an id. -/
def referencePair (source : Resource) (field name id : String) :
    Draft (List (String × String)) := do
  if id = "" then return []
  let reference ← Draft.ask ⟨source, field, id⟩
  return [(name, reference.render)]

/-- One flow with its version and weight. -/
def distributionItem (source : Resource) (distribution : Members) : Draft Item := do
  let flow ← referencePair source "flow_id" "id" (distribution.text "id")
  let version ← integerPair distribution "version" "version"
  let weight ← integerPair distribution "weight" "weight"
  return .block "" "\x7b" "\x7d," [.assignAll (flow ++ version ++ weight)]

/-- The trigger of a policy, unless it is empty. -/
def policyTrigger (document : Members) : Except Failure (List Item) := do
  let trigger := document.inner "trigger"
  if trigger.isEmpty then return []
  return [.blank, ← triggerItem trigger]

/-- The flows of a policy, if there are any. -/
def distributionItems (source : Resource) (document : Members) : Draft (List Item) := do
  let distributions ← listedObjects (document.get "flowDistributions")
  if distributions.isEmpty then return []
  let items ← distributions.mapM (distributionItem source)
  return [.blank, .block "flow_distributions =" "[" "]" items]

/-- The block of a flow policy. -/
def draftFlowPolicy (context : Context) (document : Members) : Draft Block := do
  let name ← orFail (requireText .flowPolicy document "name" "flow policy name")
  let id ← orFail (resourceId .flowPolicy document)
  let ref : Ref := ⟨.flowPolicy, id⟩
  let unique ← orFail (context.graph.graph.lookup ref)
  let source := context.sourceOf ref
  let owner ← orFail (owningApplication context document)
  let application ← referencePair source "application_id" "davinci_application_id"
    (owner.getD "")
  let trigger ← policyTrigger document
  let distributions ← distributionItems source document
  let pairs := [("environment_id", context.environment)] ++ application ++
    [("name", Hcl.quote name)] ++ textPair document "status" "status"
  let body := .assignAll pairs :: trigger ++ distributions
  return {
    ref := ref
    name := unique
    hcl := Item.renderAll [.braced (Hcl.resourceHeader Kind.flowPolicy.type unique) body] }

/-- The converter of flow policies. -/
def Converter.flowPolicy : Converter where
  name := "FlowPolicyHandler"
  kind := .flowPolicy
  types := [Kind.flowPolicy.type]
  label := labelOf .flowPolicy
  parentId := owningApplication
  inputs := fun _ _ => []
  draft := draftFlowPolicy

end HclExport
