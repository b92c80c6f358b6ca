import HclExport.Resource.Kind

/-!
# Where documents hold references

Each kind of resource declares the paths in its documents at which the id of another
resource may stand, and the kind of that resource.

## Main definitions

* `ReferencePath` — one declared path.
* `Kind.schema` — the declared paths of a kind.
* `Kind.referencePath` — the path of a field, or a complaint.
* `describeSchemas` — all declared paths in words.
-/

namespace HclExport

/-- A path at which a document may hold the id of a resource of the kind `target`. -/
structure ReferencePath where
  path : String
  target : Kind
  field : String
  isArray : Bool := false
  isOptional : Bool := false
  description : String := ""

/-- The declared paths of a kind. -/
def Kind.schema : Kind → List ReferencePath
  | .flow =>
    [{ path := "graphData.elements.nodes[*].data.connectionId"
       target := .connectorInstance
       field := "connection_id"
       isArray := true
       description := "Connector instances used by flow nodes" },
     { path := "graphData.elements.nodes[*].data.properties.variableId"
       target := .variable
       field := "variable_id"
       isArray := true
       isOptional := true
       description := "Variables read or written by flow nodes" },
     { path := "graphData.elements.nodes[*].data.properties.subFlowId"
       target := .flow
       field := "subflow_id"
       isArray := true
       isOptional := true
       description := "Sub-flows invoked by flow nodes" }]
  | .flowPolicy =>
    [{ path := "flowDistributions[*].id"
       target := .flow
       field := "flow_id"
       isArray := true
       description := "Flows distributed by the policy" },
     { path := "applicationId"
       target := .application
       field := "application_id"
       description := "Application owning the policy" }]
  | .variable => []
  | .connectorInstance => []
  | .application => []

/-- The declared path of a field. -/
def Kind.referencePath (kind : Kind) (field : String) : Except Failure ReferencePath :=
  match kind.schema.find? fun path => path.field = field with
  | some path => .ok path
  | none => .error (.undeclared (kind.type ++ " has no reference field '" ++ field ++ "'"))

/-- One declared path in words. -/
def ReferencePath.describe (kind : Kind) (path : ReferencePath) : String :=
  let need := if path.isOptional then "optional" else "required"
  s!"{kind.type}: {path.path} -> {path.target.type} ({path.field}, {need})"

/-- All declared paths in words. -/
def describeSchemas : List String :=
  Kind.all.flatMap fun kind => kind.schema.map (ReferencePath.describe kind)

end HclExport
