import HclExport.Conversion.Context

/-!
# Reading documents

What every kind of document has in common: an id, texts that must be there, numbers that
are written as integers, and triggers.

## Main definitions

* `Kind.idMembers`, `resourceId` — where an id stands, and the id of a document.
* `requireText` — a text that must be there.
* `integerText` — a number without its fraction.
* `listedObjects` — the objects in a list.
* `triggerItem` — the trigger of a flow or a flow policy.
-/

namespace HclExport

open Hcl (Item)

/-- The members that may hold the id of a document of a kind, the preferred one first. -/
def Kind.idMembers : Kind → List String
  | .flow => ["flowId", "id"]
  | .flowPolicy => ["policyId", "id"]
  | _ => ["id"]

/-- The fault of a document without an id. -/
def noIdFault (kind : Kind) : Fault :=
  Fault.of .conversion
    (kind.type ++ " document has no ID (looked for " ++ ", ".intercalate kind.idMembers ++ ")")
    [("resource_type", .str kind.type)]

/-- The id of a document: the first text among the members for it. -/
def resourceId (kind : Kind) (document : Members) : Except Fault String :=
  match kind.idMembers.find? fun key => document.text key != "" with
  | some key => .ok (document.text key)
  | none => .error (noIdFault kind)

/-- The fault of a document that lacks a text. -/
def requiredFault (kind : Kind) (document : Members) (label : String) : Fault :=
  Fault.of .conversion (label ++ " is required")
    [("resource_type", .str kind.type), ("resource_id", .str (document.text "id"))]

/-- A text that must be there; `label` names it in the complaint. -/
def requireText (kind : Kind) (document : Members) (key label : String) : Except Fault String :=
  if document.text key = "" then .error (requiredFault kind document label)
  else .ok (document.text key)

/-- A computation that may meet a fault, as one that may fail. -/
def orFail {α : Type} (result : Except Fault α) : Except Failure α :=
  result.mapError .fault

/-- A number without its fraction. -/
def integerText : Number → Except Failure String
  | .int i => .ok (toString i)
  | .real .nan => .error (.invalid "cannot convert float NaN to integer")
  | .real x =>
    match x.cut with
    | some i => .ok (toString i)
    | none => .error .overflow

/-- The objects in a list. A value that is not given, a text and an object hold none, and
any other value cannot be used as a list. -/
def listedObjects (value : Json) : Except Failure (List Members) :=
  match value with
  | .arr items => .ok (items.filterMap Json.members?)
  | .str _ => .ok []
  | .obj _ => .ok []
  | other => if other.isTruthy then .error .mistyped else .ok []

/-! ### Attributes -/

/-- A text as an attribute, if it is there. -/
def textPair (document : Members) (key name : String) : List (String × String) :=
  if document.text key = "" then [] else [(name, Hcl.quote (document.text key))]

/-- A truth value as an attribute, if it is there. -/
def flagPair (document : Members) (key name : String) : List (String × String) :=
  match document.flag? key with
  | some b => [(name, Hcl.boolText b)]
  | none => []

/-- A number as an attribute, if it is there. -/
def numberPair (document : Members) (key name : String) : List (String × String) :=
  match document.number? key with
  | some n => [(name, Hcl.numberText n)]
  | none => []

/-- A number without its fraction as an attribute, if it is there. -/
def integerPair (document : Members) (key name : String) :
    Except Failure (List (String × String)) :=
  match document.number? key with
  | some n => do return [(name, ← integerText n)]
  | none => .ok []

/-! ### Triggers -/

/-- A time limit as an attribute; a truth value counts as one or zero. -/
def timePair (authentication : Members) : Except Failure (List (String × String)) :=
  match authentication.get "time" with
  | .bool b => .ok [("time", if b then "1" else "0")]
  | _ => integerPair authentication "time" "time"

/-- The settings of one means of authentication, if there are any. -/
def authenticationItems (configuration : Members) (key : String) :
    Except Failure (List Item) := do
  let authentication := configuration.inner key
  if authentication.isEmpty then return []
  let pairs := flagPair authentication "enabled" "enabled" ++ (← timePair authentication) ++
    textPair authentication "timeFormat" "time_format"
  return [.blank, .object key [.assignAll pairs]]

/-- The trigger of a flow or a flow policy. -/
def triggerItem (trigger : Members) : Except Failure Item := do
  let type := (textPair trigger "type" "type").map fun (key, value) => Item.assign key value
  let configuration := trigger.inner "configuration"
  if configuration.isEmpty then return .object "trigger" type
  let mfa ← authenticationItems configuration "mfa"
  let password ← authenticationItems configuration "pwd"
  return .object "trigger" (type ++ [.blank, .object "configuration" (mfa ++ password)])

end HclExport
