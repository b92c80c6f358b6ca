import HclExport.Graph.Missing
import HclExport.Json.Display

/-!
# The settings of an export

Options come from process variables and from whoever asks for an export. Settings are
options that were checked: the region is known, an environment is given where ids are
written, and the kinds and resources in them are understood.

## Main definitions

* `ProcessVariables` — named texts from outside.
* `ExportOptions`, `ExportOptions.ofVariables` — options, and those that the variables give.
* `Region` — the regions.
* `ExportSettings`, `ExportSettings.check` — options that were checked.
-/

namespace HclExport

/-- Texts by name that a program is given from outside. -/
abbrev ProcessVariables := List (String × String)

namespace ProcessVariables

/-- The text of a variable, or a default when it is not set. -/
def text (env : ProcessVariables) (name default : String) : String :=
  (env.lookup name).getD default

/-- Whether a variable says yes; it does not when it is not set. -/
def flag (env : ProcessVariables) (name : String) : Bool :=
  ["1", "true", "yes"].contains (lower (trim (env.text name "")))

/-- Split a text at every comma. -/
def splitAtCommas : List Char → List (List Char)
  | [] => [[]]
  | ',' :: rest => [] :: splitAtCommas rest
  | c :: rest =>
    match splitAtCommas rest with
    | [] => [[c]]
    | first :: more => (c :: first) :: more

/-- The texts between commas in a variable, trimmed, without empty ones. -/
def list (env : ProcessVariables) (name : String) : List String :=
  let parts := splitAtCommas (env.text name "").toList
  (parts.map fun part => trim (String.ofList part)).filter (· != "")

end ProcessVariables

/-! ### Options -/

/-- What is asked of an export. The id of the environment may be a value of any kind. -/
structure ExportOptions where
  environmentId : Json := .str ""
  region : String := "NA"
  skipsReferences : Bool := false
  writesImports : Bool := false
  usesVariables : Bool := false
  toleratesUnmetPaths : Bool := false
  mergesOwnership : Bool := false
  isStrict : Bool := false
  includedKinds : List String := []
  excludedResources : List String := []

/-- The options that process variables give. -/
def ExportOptions.ofVariables (env : ProcessVariables) : ExportOptions where
  environmentId := .str (env.text "PINGONE_ENVIRONMENT_ID" "")
  region := env.text "PINGONE_REGION" "NA"
  skipsReferences := env.flag "DAVINCI_SKIP_DEPENDENCIES"
  writesImports := env.flag "DAVINCI_GENERATE_IMPORTS"
  usesVariables := env.flag "DAVINCI_USE_VARIABLE_REFERENCES"
  toleratesUnmetPaths := env.flag "DAVINCI_CONTINUE_ON_PARSE_ERROR"
  mergesOwnership := env.flag "DAVINCI_DEDUPLICATE_HIERARCHY"
  isStrict := env.flag "DAVINCI_STRICT_MODE"
  includedKinds := env.list "DAVINCI_INCLUDE_KINDS"
  excludedResources := env.list "DAVINCI_EXCLUDED_RESOURCES"

/-! ### Regions -/

/-- The regions. -/
inductive Region
  | northAmerica
  | europe
  | asiaPacific
  | canada
  deriving DecidableEq

namespace Region

/-- The name of a region. -/
def name : Region → String
  | .northAmerica => "NA"
  | .europe => "EU"
  | .asiaPacific => "AP"
  | .canada => "CA"

/-- All regions. -/
def all : List Region :=
  [.northAmerica, .europe, .asiaPacific, .canada]

theorem mem_all (region : Region) : region ∈ all := by
  cases region <;> decide

/-- The region of a name in any letter case. -/
def parse? (name : String) : Option Region :=
  all.find? fun region => region.name = upper name

/-- The region of a name in any letter case, or a complaint. -/
def parse (name : String) : Except Failure Region :=
  match parse? name with
  | some region => .ok region
  | none =>
    let known := quotedList (all.map Region.name)
    .error (.invalid s!"Invalid region: {upper name} (valid regions: {known})")

end Region

/-! ### Settings -/

/-- The identity that stands in a text as `<kind>:<id>`. -/
def parseExclusion (entry : String) : Except Failure Ref :=
  let cs := entry.toList
  match cs.dropWhile (· != ':') with
  | _ :: c :: rest => do
    let kind ← Kind.parse (String.ofList (cs.takeWhile (· != ':')))
    return ⟨kind, String.ofList (c :: rest)⟩
  | _ =>
    .error (.invalid s!"Excluded resource '{entry}' must have the form <kind>:<id>")

/-- Options that were checked. -/
structure ExportSettings where
  environmentId : Json
  region : Region
  skipsReferences : Bool
  writesImports : Bool
  usesVariables : Bool
  toleratesUnmetPaths : Bool
  mergesOwnership : Bool
  isStrict : Bool
  scope : Scope
  /-- Where ids are written, the environment is given. -/
  environment_given :
    environmentId.isTruthy = false → skipsReferences = false ∧ writesImports = false

/-- Check options: the region first, then the environment, the kinds and the exclusions. -/
def ExportSettings.check (options : ExportOptions) : Except Failure ExportSettings := do
  let region ← Region.parse options.region
  if hSkip : options.environmentId.isTruthy = false ∧ options.skipsReferences = true then
    .error (.invalid "PINGONE_ENVIRONMENT_ID is required when skipping dependencies")
  else if hImports : options.environmentId.isTruthy = false ∧ options.writesImports = true then
    .error (.invalid "PINGONE_ENVIRONMENT_ID is required when generating import blocks")
  else
    let included ← options.includedKinds.mapM Kind.parse
    let excluded ← options.excludedResources.mapM parseExclusion
    return {
      environmentId := options.environmentId
      region := region
      skipsReferences := options.skipsReferences
      writesImports := options.writesImports
      usesVariables := options.usesVariables
      toleratesUnmetPaths := options.toleratesUnmetPaths
      mergesOwnership := options.mergesOwnership
      isStrict := options.isStrict
      scope := { excluded := excluded, included := Kind.all.filter included.contains }
      environment_given := fun given => by
        simp only [given, true_and, Bool.not_eq_true] at hSkip hImports
        exact ⟨hSkip, hImports⟩ }

/-- The id of the environment in words, if it is given. -/
def ExportSettings.environment? (settings : ExportSettings) : Option String :=
  if settings.environmentId.isTruthy then some settings.environmentId.display else none

end HclExport
