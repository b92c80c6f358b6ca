import HclExport.Conversion.Converter

/-!
# Applications

The key of an application is never written; only whether it is in use.

## Main definitions

* `oauthPairs` — the settings for OAuth.
* `draftApplication`, `Converter.application` — the conversion.
-/

namespace HclExport

open Hcl (Item Value)

/-- Lists among the settings for OAuth, and the attributes that hold them. -/
def oauthLists : List (String × String) :=
  [("grantTypes", "grant_types"), ("redirectUris", "redirect_uris"),
   ("logoutUris", "logout_uris"), ("scopes", "scopes")]

/-- A list of values as a list of texts. -/
def textsLiteral (items : List Json) : String :=
  (Value.tuple (items.map fun item => .str item.display)).nativeText 0

/-- A list as an attribute, if it is there and not empty. -/
def listPair (settings : Members) (key name : String) : List (String × String) :=
  match settings.get key with
  | .arr items => if items.isEmpty then [] else [(name, textsLiteral items)]
  | _ => []

/-- The settings for OAuth. The address of the key set is spelled with small letters in
documents. -/
def oauthPairs (oauth : Members) : List (String × String) :=
  (oauthLists.flatMap fun (key, name) => listPair oauth key name) ++
    flagPair oauth "enforceSignedRequestOpenid" "enforce_signed_request_openid" ++
    textPair oauth "spJwksOpenid" "sp_jwks_openid" ++
    textPair oauth "spjwksUrl" "sp_jwks_url"

/-- An object of the document as a block behind an empty line, if it is there. -/
def objectItems (document : Members) (key name : String) (body : Members → List Item) :
    List Item :=
  match document.get key with
  | .obj members => [.blank, .object name (body members)]
  | _ => []

/-- The block of an application. -/
def draftApplication (context : Context) (document : Members) : Draft Block := do
  let name ← orFail (requireText .application document "name" "application name")
  let id ← orFail (resourceId .application document)
  let unique ← orFail (context.graph.graph.lookup ⟨.application, id⟩)
  let body :=
    [.assign "environment_id" context.environment, .blank, .assign "name" (Hcl.quote name)] ++
    objectItems document "apiKey" "api_key" (fun key =>
      (flagPair key "enabled" "enabled").map fun (key, value) => .assign key value) ++
    objectItems document "oauth" "oauth" (fun oauth => [.assignAll (oauthPairs oauth)])
  return {
    ref := ⟨.application, id⟩
    name := unique
    hcl := Item.renderAll [.braced (Hcl.resourceHeader Kind.application.type unique) body] }

/-- The converter of applications. -/
def Converter.application : Converter where
  name := "ApplicationHandler"
  kind := .application
  types := [Kind.application.type]
  label := labelOf .application
  parentId := fun _ _ => .ok none
  inputs := fun _ _ => []
  draft := draftApplication

end HclExport
