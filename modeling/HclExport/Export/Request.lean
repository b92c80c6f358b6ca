import HclExport.Export.Settings

/-!
# Requests for an export

An export can be asked for by the members of an object, each of which replaces an option that
the process variables give. A value may be of any kind; it is checked as far as it is used.

## Main definitions

* `ExportOptions.toMembers` — options as members.
* `ExportRequest`, `ExportRequest.ofMembers` — a request on top of the process variables.
* `ExportRequest.check` — the settings that are asked for.
-/

namespace HclExport

/-- Options as the members of an object. -/
def ExportOptions.toMembers (options : ExportOptions) : Members :=
  [("environment_id", options.environmentId),
   ("region", .str options.region),
   ("skip_dependencies", .bool options.skipsReferences),
   ("generate_imports", .bool options.writesImports),
   ("use_variable_references", .bool options.usesVariables),
   ("continue_on_parse_error", .bool options.toleratesUnmetPaths),
   ("deduplicate_hierarchy", .bool options.mergesOwnership),
   ("strict_mode", .bool options.isStrict),
   ("include_kinds", .arr (options.includedKinds.map Json.str)),
   ("excluded_resources", .arr (options.excludedResources.map Json.str))]

/-- Options by name, each with a value of any kind. -/
structure ExportRequest where
  members : Members

namespace ExportRequest

/-- The request that replaces options that the process variables give. A name that is no
option is refused. -/
def ofMembers (env : ProcessVariables) (given : Members) : Except Failure ExportRequest :=
  let options := (ExportOptions.ofVariables env).toMembers
  if given.all fun m => (options.get? m.1).isSome then
    .ok ⟨options.map fun (name, value) => (name, (given.get? name).getD value)⟩
  else .error .mistyped

/-- The texts that are met when a value is gone through one by one, and the failure that ends
them if something else is met. -/
def leadingTexts (value : Json) : List String × Option Failure :=
  match value.elements? with
  | none => ([], some .mistyped)
  | some parts =>
    let texts := (parts.map Json.text?).takeWhile Option.isSome
    (texts.filterMap id, if texts.length < parts.length then some .unsupported else none)

/-- The settings that are asked for, or the first complaint: about the region, the
environment, the kinds and the exclusions in turn. -/
def check (request : ExportRequest) : Except Failure ExportSettings := do
  let value := request.members.get
  let on := fun name => (value name).isTruthy
  let some region := (value "region").text? | .error .unsupported
  let (kinds, kindFailure?) := leadingTexts (value "include_kinds")
  let (exclusions, exclusionFailure?) := leadingTexts (value "excluded_resources")
  let settings ← ExportSettings.check {
    environmentId := value "environment_id"
    region := region
    skipsReferences := on "skip_dependencies"
    writesImports := on "generate_imports"
    usesVariables := on "use_variable_references"
    toleratesUnmetPaths := on "continue_on_parse_error"
    mergesOwnership := on "deduplicate_hierarchy"
    isStrict := on "strict_mode"
    includedKinds := kinds
    excludedResources := if kindFailure?.isSome then [] else exclusions }
  match kindFailure? <|> exclusionFailure? with
  | some failure => .error failure
  | none => .ok settings

/-- The members of a request that was checked: the region by its name, and lists as such. -/
def checkedMembers (request : ExportRequest) (settings : ExportSettings) : Members :=
  request.members.map fun (name, value) =>
    if name = "region" then (name, .str settings.region.name)
    else if name = "include_kinds" || name = "excluded_resources" then
      (name, .arr (value.elements?.getD []))
    else (name, value)

end ExportRequest

end HclExport
