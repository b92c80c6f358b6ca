import HclExport.Hcl.Quoted
import HclExport.Resource.Address
import HclExport.Sorting

/-!
# Import blocks

An import block ties a declared resource to the id under which it exists already. Ids
start with the environment; the id of a flow policy also names the application.

## Main definitions

* `ImportBlock` — one import.
* `importId` — the id of an import, or a complaint.
* `renderImports` — import blocks in the order of creation.
-/

namespace HclExport

/-- The type of the resource that switches a flow on. -/
def flowEnableType : String := "pingone_davinci_flow_enable"

/-- The type of the resource that deploys a flow. -/
def flowDeployType : String := "pingone_davinci_flow_deploy"

/-- An import: the declared resource and the id under which it exists. -/
structure ImportBlock where
  type : String
  name : String
  id : Json

/-- The types that can be imported, in the order of creation. -/
def importableTypes : List String :=
  [Kind.variable.type, Kind.connectorInstance.type, Kind.flow.type, flowEnableType,
   Kind.application.type, Kind.flowPolicy.type]

/-- The fault of an import that cannot be written. -/
def importFault (type : Json) (message : String) : Fault :=
  Fault.of .importId message [("resource_type", type)]

/-- Whether a value is the name of a type that can be imported. -/
def isImportable (type : Json) : Bool :=
  match type with
  | .str name => importableTypes.contains name
  | _ => false

/-- The id of an import: the environment, the owner if the type has one, and the resource.
The parts are written whatever they are, but all of them have to be given. -/
def importId (type environmentId id parentId : Json) : Except Fault String :=
  if !isImportable type then
    .error (importFault type ("unsupported resource type for import: " ++ type.display))
  else if !environmentId.isTruthy then
    .error (importFault type "environment ID is required to build import IDs")
  else if !id.isTruthy then
    .error (importFault type "resource ID is required to build import IDs")
  else if type.display = Kind.flowPolicy.type then
    if !parentId.isTruthy then
      .error
        { importFault type (type.display ++ " import requires the parent application ID") with
          context := [("resource_id", id), ("resource_type", type)] }
    else .ok (environmentId.display ++ "/" ++ parentId.display ++ "/" ++ id.display)
  else .ok (environmentId.display ++ "/" ++ id.display)

/-! ### Output -/

/-- The block in lines. -/
def ImportBlock.render (block : ImportBlock) : String :=
  "import \x7b\n  to = " ++ address block.type block.name ++ "\n  id = " ++
    Hcl.quoteValue block.id ++ "\n\x7d"

/-- The position of a type in the order of creation; unknown types come last. -/
def importRank (type : String) : Nat :=
  importableTypes.idxOf type

/-- Import blocks in the order of creation, those of a type by name without regard to case. -/
def sortImports (blocks : List ImportBlock) : List ImportBlock :=
  let keyed := blocks.map fun block => (importRank block.type, lower block.name, block)
  (sortBy (fun a b => a.1 < b.1 || (a.1 == b.1 && textLe a.2.1 b.2.1)) keyed).map
    fun entry => entry.2.2

/-- Import blocks one empty line apart; nothing when there are none. -/
def renderImports (blocks : List ImportBlock) : String :=
  if blocks.isEmpty then ""
  else "\n\n".intercalate ((sortImports blocks).map ImportBlock.render) ++ "\n"

end HclExport
