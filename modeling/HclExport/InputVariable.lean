import HclExport.Hcl.Block
import HclExport.Resource.Kind
import HclExport.Resource.Name

/-!
# Input variables

Values that a configuration takes from outside instead of holding them: properties of
connector instances and values of variables. A masked value is always taken from
outside, has no default and is sensitive.

## Main definitions

* `InputVariable` — a value taken from outside.
* `PropertyRules` — which properties are secret, and which stay where they are.
* `connectorInputs`, `valueInputs` — the values of a document that are taken from outside.
* `renderInputs` — their declarations.
-/

namespace HclExport

/-- A value of a resource that is taken from outside. -/
structure InputVariable where
  kind : Kind
  resourceName : String
  resourceId : Json
  path : String
  current : Option Json
  name : String
  type : String := "string"
  description : String := ""
  isSensitive : Bool := false
  isSecret : Bool := false

namespace InputVariable

/-- The variable as an expression. -/
def reference (v : InputVariable) : Hcl.Expression :=
  { text := "var." ++ v.name }

/-- The variable inside a quoted literal. -/
def interpolation (v : InputVariable) : Hcl.Expression :=
  { text := "\"$\x7bvar." ++ v.name ++ "\x7d\"" }

/-- The default: the current value, or an empty text for a secret without one. -/
def default? (v : InputVariable) : Option Json :=
  match v.current with
  | some value => some value
  | none => if v.isSecret then some (.str "") else none

/-- The declaration as members: type, description, default and sensitivity. -/
def definition (v : InputVariable) : Members :=
  [("type", .str v.type)] ++
  (if v.description = "" then [] else [("description", .str v.description)]) ++
  (match v.default? with
    | some value => [("default", value)]
    | none => []) ++
  (if v.isSensitive then [("sensitive", .bool true)] else [])

/-- The declaration as a block. -/
def block (v : InputVariable) : Hcl.Item :=
  let description :=
    if v.description = "" then [] else [("description", Hcl.quote v.description)]
  let default := match v.default? with
    | some value => [("default", (Hcl.Value.ofJson value).nativeText 2)]
    | none => []
  let sensitive := if v.isSensitive then [("sensitive", "true")] else []
  .braced ("variable \"" ++ v.name ++ "\"")
    [.assignAll ([("type", v.type)] ++ description ++ default ++ sensitive)]

end InputVariable

/-- The declarations in order, each name only once; `declared` holds the names done. -/
def declareOnce (declared : List String) : List InputVariable → List InputVariable
  | [] => []
  | v :: rest =>
    if declared.contains v.name then declareOnce declared rest
    else v :: declareOnce (v.name :: declared) rest

/-- The variables kind by kind, those of a kind by name without regard to case. -/
def groupInputs (order : List Kind) (inputs : List InputVariable) : List InputVariable :=
  order.flatMap fun kind =>
    sortOn (fun v => lower v.name) (inputs.filter fun v => v.kind = kind)

/-- The declarations of variables, one empty line apart; nothing when there are none. -/
def renderInputs (order : List Kind) (inputs : List InputVariable) : String :=
  match declareOnce [] (groupInputs order inputs) with
  | [] => ""
  | found => "\n\n".intercalate
      (found.map fun v => trimRight (Hcl.Item.renderAll [v.block])) ++ "\n"

/-! ### What is taken from outside -/

/-- The text that stands for a value that is not shown. -/
def mask : String := "******"

/-- Whether a value is masked. -/
def isMasked : Json → Bool
  | .str s => trim s == mask
  | _ => false

/-- Whether a value is a text, a truth value or a number, and not the empty text. -/
def isPrimitive : Json → Bool
  | .str s => s != ""
  | .bool _ => true
  | .num _ => true
  | _ => false

/-- Whether a text is there and not blank. -/
def isNamed : Json → Bool
  | .str s => trim s != ""
  | _ => false

/-- Whether a property is a container of a value: it has a type that is not blank, or a
value that is primitive. -/
def hasTypedValue : Json → Bool
  | .obj members =>
    match Members.get? members "value" with
    | none => false
    | some value => isNamed (Members.get members "type") || isPrimitive value
  | _ => false

/-- The type of the variable that holds a value. -/
def inferType : Json → String
  | .bool _ => "bool"
  | .num _ => "number"
  | _ => "string"

/-- Which properties are secret, and which are not taken from outside. -/
structure PropertyRules where
  secret : List String :=
    ["clientSecret", "apiKey", "accessToken", "refreshToken", "password", "secret",
     "privateKey", "certificate", "signingKey", "encryptionKey", "bearerToken", "authToken"]
  excluded : List String :=
    ["createdDate", "updatedDate", "connectionId", "connectorId", "skRedirectUri",
     "skDisplayName"]

/-- The name of the variable for a property of a connector instance. -/
def connectorInputName (resourceName property : String) : String :=
  "davinci_connection_" ++ stripHead resourceName ++ "_" ++ property

/-- The name of the variable for the value of a variable. -/
def valueInputName (resourceName : String) : String :=
  "davinci_variable_" ++ stripHead resourceName ++ "_value"

/-- The text of a member inside a message; nothing when there is no member. -/
def displayMember (document : Members) (key : String) : String :=
  match document.get? key with
  | none => ""
  | some value => value.display

/-- The id of a document as it stands; an empty text when there is none. -/
def documentId (document : Members) : Json :=
  (document.get? "id").getD (.str "")

/-- The value of a property that may be taken from outside: that of a container, or a bare
mask. -/
def propertyValue? (property : Json) : Option Json :=
  if hasTypedValue property then
    match property with
    | .obj members => some (Members.get members "value")
    | _ => none
  else if isMasked property then some property
  else none

/-- The variable for one property, if its value is taken from outside. -/
def connectorInput? (rules : PropertyRules) (document : Members) (resourceName : String)
    (property : String × Json) : Option InputVariable := do
  let value ← propertyValue? property.2
  let masked := isMasked value
  if rules.excluded.contains property.1 && !masked then none
  else if !isPrimitive value then none
  else
    let secret := masked || rules.secret.contains property.1
    return {
      kind := .connectorInstance
      resourceName := resourceName
      resourceId := documentId document
      path := "properties." ++ property.1
      current := if masked then none else some value
      name := connectorInputName resourceName property.1
      type := if masked then "string" else inferType value
      description := property.1 ++ " for " ++ displayMember document "name" ++ " connector"
      isSensitive := secret
      isSecret := secret }

/-- The properties of a connector instance that are taken from outside, by name. -/
def connectorInputs (rules : PropertyRules) (document : Members) (resourceName : String) :
    List InputVariable :=
  (sortOn Prod.fst (document.inner "properties")).filterMap
    (connectorInput? rules document resourceName)

/-- Whether a document declares its value a secret. -/
def isSecretValue (document : Members) : Bool :=
  lower (displayMember document "dataType") == "secret"

/-- The value of a variable, if it is taken from outside: a primitive value, or a secret
that is masked. -/
def valueInputs (document : Members) (resourceName : String) : List InputVariable :=
  let value := document.get "value"
  let secret := isSecretValue document
  if isPrimitive value && (!secret || isMasked value) then
    [{ kind := .variable
       resourceName := resourceName
       resourceId := documentId document
       path := "value"
       current := if secret then none else some value
       name := valueInputName resourceName
       type := if secret then "string" else inferType value
       description := "Value for " ++ displayMember document "name" ++ " DaVinci variable"
       isSensitive := secret
       isSecret := secret }]
  else []

end HclExport
