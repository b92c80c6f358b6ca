import HclExport.Fault
import HclExport.Text.Blank
import HclExport.Text.LetterCase

/-!
# Kinds of resources

The closed set of resource kinds that are exported, each with its resource type in the
configuration and a short name.

## Main definitions

* `Kind`, `Kind.type`, `Kind.shortName` — the kinds and their names.
* `Kind.all`, `Kind.ordered` — the kinds, what is referred to before what refers to it.
* `Kind.ofType`, `Kind.parse` — the kind of a name.
-/

namespace HclExport

/-- The kinds of resources. -/
inductive Kind
  | variable
  | connectorInstance
  | flow
  | application
  | flowPolicy
  deriving DecidableEq

namespace Kind

/-- The resource type of a kind. -/
def type : Kind → String
  | .variable => "pingone_davinci_variable"
  | .connectorInstance => "pingone_davinci_connector_instance"
  | .flow => "pingone_davinci_flow"
  | .application => "pingone_davinci_application"
  | .flowPolicy => "pingone_davinci_application_flow_policy"

/-- The short name of a kind. -/
def shortName : Kind → String
  | .variable => "variable"
  | .connectorInstance => "connector_instance"
  | .flow => "flow"
  | .application => "application"
  | .flowPolicy => "flow_policy"

/-- All kinds, those that others refer to first. -/
def all : List Kind :=
  [.variable, .connectorInstance, .flow, .application, .flowPolicy]

theorem mem_all (kind : Kind) : kind ∈ all := by
  cases kind <;> decide

/-- The position of a kind among all. -/
def rank (kind : Kind) : Nat :=
  all.idxOf kind

/-- The kind of a resource type. -/
def ofType? (type : String) : Option Kind :=
  all.find? fun kind => kind.type = type

/-- The kind of a short name in any letter case, or of a resource type. -/
def parse? (name : String) : Option Kind :=
  let name := trim name
  match all.find? fun kind => lower name = kind.shortName with
  | some kind => some kind
  | none => ofType? name

/-- The complaint about a name that is no resource type. -/
def unknownType (name : String) : String :=
  "Unknown resource type: " ++ name ++ " (known: " ++ ", ".intercalate (all.map type) ++ ")"

/-- The kind of a resource type, or a complaint. -/
def ofType (type : String) : Except Failure Kind :=
  match ofType? type with
  | some kind => .ok kind
  | none => .error (.invalid (unknownType type))

/-- The kind of a short name or a resource type, or a complaint. -/
def parse (name : String) : Except Failure Kind :=
  match parse? name with
  | some kind => .ok kind
  | none => .error (.invalid (unknownType (trim name)))

/-- A resource type determines its kind. -/
theorem ofType?_type (kind : Kind) : ofType? kind.type = some kind := by
  cases kind <;> decide +kernel

end Kind

end HclExport
