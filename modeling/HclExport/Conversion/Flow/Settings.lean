import HclExport.Conversion.Application

/-!
# Settings of flows

The settings that a configuration knows, under their names there. Any other setting is
dropped, and a level for logging is added when there are settings without one.

## Main definitions

* `settingNames` — the settings, and the attributes that hold them.
* `knownSettings` — the settings of a document that are written.
* `settingsItems` — the block of settings.
* `enabledState` — whether a flow is switched on.
-/

namespace HclExport

open Hcl (Item)

/-- The settings, and the attributes that hold them. -/
def settingNames : List (String × String) :=
  [("csp", "csp"), ("css", "css"), ("cssLinks", "css_links"),
   ("customErrorScreenBrandLogoUrl", "custom_error_screen_brand_logo_url"),
   ("customErrorShowFooter", "custom_error_show_footer"),
   ("customFaviconLink", "custom_favicon_link"),
   ("customLogoURLSelection", "custom_logo_urlselection"),
   ("customTitle", "custom_title"),
   ("defaultErrorScreenBrandLogo", "default_error_screen_brand_logo"),
   ("flowHttpTimeoutInSeconds", "flow_http_timeout_in_seconds"),
   ("flowTimeoutInSeconds", "flow_timeout_in_seconds"),
   ("intermediateLoadingScreenCSS", "intermediate_loading_screen_css"),
   ("intermediateLoadingScreenHTML", "intermediate_loading_screen_html"),
   ("jsCustomFlowPlayer", "js_custom_flow_player"),
   ("jsLinks", "js_links"),
   ("logLevel", "log_level"),
   ("requireAuthenticationToInitiate", "require_authentication_to_initiate"),
   ("scrubSensitiveInfo", "scrub_sensitive_info"),
   ("sensitiveInfoFields", "sensitive_info_fields"),
   ("useCSP", "use_csp"),
   ("useCustomCSS", "use_custom_css"),
   ("useCustomFlowPlayer", "use_custom_flow_player"),
   ("useCustomScript", "use_custom_script"),
   ("useIntermediateLoadingScreen", "use_intermediate_loading_screen"),
   ("validateOnSave", "validate_on_save")]

/-- The level for logging of a flow that does not give one. -/
def defaultLogLevel : Int := 4

/-- The settings that are written: the known ones, with a level for logging. -/
def knownSettings (settings : Members) : Members :=
  let known := settings.filter fun setting => (settingNames.lookup setting.1).isSome
  if known.isEmpty then []
  else if (known.lookup "logLevel").isSome then known
  else known ++ [("logLevel", .num (.int defaultLogLevel))]

/-- One setting as an attribute; objects are not written. -/
def settingPair (name : String) : Json → Except Failure (List (String × String))
  | .null => .ok [(name, "null")]
  | .bool b => .ok [(name, Hcl.boolText b)]
  | .num n => do return [(name, ← integerText n)]
  | .str s => .ok [(name, Hcl.quote s)]
  | .arr items => .ok [(name, textsLiteral items)]
  | .obj _ => .ok []

/-- Settings as attributes, one after the other. -/
def settingPairs : Members → Except Failure (List (String × String))
  | [] => .ok []
  | (key, value) :: rest => do
    let pair ← settingPair ((settingNames.lookup key).getD key) value
    return pair ++ (← settingPairs rest)

/-! ### Scripts -/

/-- A link to a script. -/
def scriptLink (link : Members) : List Item :=
  let text (key : String) : String × String := (key, Hcl.quote (link.text key))
  [.assignAll
    ([text "crossorigin", ("defer", Hcl.boolText ((link.flag? "defer").getD false)),
      text "integrity"] ++ textPair link "label" "label" ++
     [text "referrerpolicy", text "type", text "value"])]

/-- The links to scripts, if the setting is there. -/
def scriptItems (settings : Members) : Except Failure (List Item) :=
  match settings.get? "jsLinks" with
  | none => .ok []
  | some value => do
    let links ← listedObjects value
    if links.isEmpty then return [.assign "js_links" "[]"]
    return [.block "js_links =" "[" "]" (Item.elements (links.map scriptLink))]

/-- The block of settings behind an empty line, if there are any. -/
def settingsItems (document : Members) : Except Failure (List Item) := do
  let settings := knownSettings (document.inner "settings")
  if settings.isEmpty then return []
  let plain := (sortOn Prod.fst settings).filter fun setting => setting.1 != "jsLinks"
  let pairs ← settingPairs plain
  let scripts ← scriptItems settings
  return [.blank, .object "settings" (.assignAll pairs :: scripts)]

/-! ### Switched on or off -/

/-- The state that an exported status tells. -/
def statusEnabled? (status : Json) : Option Bool :=
  match status with
  | .str s => [("enabled", true), ("disabled", false)].lookup (lower s)
  | _ => none

/-- The fault of a document that tells both states. -/
def enabledFault (document : Members) (status flag : Bool) : Fault :=
  let flowId := document.get "flowId"
  let id := if flowId.isTruthy then flowId else document.get "id"
  Fault.of .enabledConflict
    ("flow enabled conflict: flowStatus=" ++ Hcl.boolText status ++ " enabled=" ++
      Hcl.boolText flag)
    [("resource_type", .str Kind.flow.type), ("resource_id", id)]

/-- Whether a flow is switched on, by its status and its flag; the two must not differ. -/
def enabledState (document : Members) : Except Fault (Option Bool) :=
  match statusEnabled? (document.get "flowStatus"), document.flag? "enabled" with
  | some status, some flag =>
    if status = flag then .ok (some flag) else .error (enabledFault document status flag)
  | status, none => .ok status
  | none, flag => .ok flag

end HclExport
