import HclExport.Conversion.Converter

/-!
# Variables

A variable is named by its name and its context together, since one name may occur in
several contexts. A secret value is never written: a masked one is taken from outside, and
any other is left out.

## Main definitions

* `valueKey?` — the attribute that holds a value.
* `valueLine?` — the line with the value.
* `draftVariable`, `Converter.variable` — the conversion.
-/

namespace HclExport

open Hcl (Item)

/-- The attribute that holds a value; empty texts, lists and objects are not held. -/
def valueKey? : Json → Option String
  | .bool _ => some "bool"
  | .num _ => some "float32"
  | .str s => if s = "" then none else some "string"
  | .arr items => if items.isEmpty then none else some "json_object"
  | .obj members => if members.isEmpty then none else some "json_object"
  | .null => none

/-- A value as it is written in place. -/
def valueText : Json → String
  | .str s => Hcl.quote s
  | .bool b => Hcl.boolText b
  | .num n => Hcl.numberText n
  | value => "jsonencode(" ++ (Hcl.Value.ofJson value).jsonText 4 ++ ")"

/-- The line with the value, given what is taken from outside; none if no value is written. -/
def valueLine? (usesVariables : Bool) (dataType : String) (value : Json)
    (inputs : List InputVariable) : Option String :=
  if lower dataType = "secret" then
    match inputs.head? with
    | some input =>
      if input.isSecret then some ("secret_string = " ++ input.reference.render) else none
    | none => none
  else
    (valueKey? value).map fun key =>
      match inputs.head? with
      | some input =>
        if usesVariables then key ++ " = " ++ input.reference.render
        else key ++ " = " ++ valueText value
      | none => key ++ " = " ++ valueText value

/-- What is written for the value: the line, or a remark that it is to be added. -/
def valueItems (dataType : String) : Option String → List Item
  | some line => [.object "value" [.line line]]
  | none =>
    if lower dataType = "secret" then
      [.line "# TODO: Add secret value manually", .line "# value = \x7b",
       .line "#   secret_string = \"your-secret-value\"", .line "# \x7d"]
    else
      [.line ("# TODO: Add " ++ dataType ++ " value"),
       .line "# Value omitted - will be set dynamically by flow execution"]

/-- The flow that a variable belongs to. -/
def owningFlowItems (document : Members) : List Item :=
  match textPair (document.inner "flow") "id" "id" with
  | [(key, value)] => [.blank, .object "flow" [.assign key value]]
  | _ => []

/-- The block of a variable. Without a value it has to be mutable, and the block says so when
the document does not. -/
def draftVariable (context : Context) (document : Members) : Draft Block := do
  let name ← orFail (requireText .variable document "name" "variable name")
  let scope ← orFail (requireText .variable document "context" "variable context")
  let dataType ← orFail (requireText .variable document "dataType" "variable data_type")
  let id ← orFail (resourceId .variable document)
  let unique ← orFail (context.graph.graph.lookup ⟨.variable, id⟩)
  let inputs := valueInputs document unique
  let value := valueLine? context.usesVariables dataType (document.get "value") inputs
  let declared := (document.flag? "mutable").getD false
  let overridden := value.isNone && !declared
  let body :=
    [.assign "environment_id" context.environment, .blank,
     .assignAll
       [("name", Hcl.quote name), ("context", Hcl.quote scope),
        ("data_type", Hcl.quote dataType), ("mutable", Hcl.boolText (declared || overridden))]] ++
    (if overridden then
      [.line "# NOTE: mutable overridden to true because no value is provided"] else []) ++
    [.assignAll
      (textPair document "displayName" "display_name" ++ numberPair document "min" "min" ++
        numberPair document "max" "max")] ++
    owningFlowItems document ++ [.blank] ++ valueItems dataType value
  return {
    ref := ⟨.variable, id⟩
    name := unique
    hcl := Item.renderAll [.braced (Hcl.resourceHeader Kind.variable.type unique) body]
    inputs := inputs }

/-- The converter of variables. -/
def Converter.variable : Converter where
  name := "VariableHandler"
  kind := .variable
  types := [Kind.variable.type]
  label := fun document => .ok (sanitizeComposite [document.text "name", document.text "context"])
  parentId := fun _ _ => .ok none
  inputs := valueInputs
  draft := draftVariable

end HclExport
