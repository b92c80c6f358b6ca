import HclExport.Graph.Missing
import HclExport.Graph.Ownership
import HclExport.Hcl.Expression
import HclExport.Import
import HclExport.InputVariable

/-!
# The context of a conversion

What every conversion of a document may consult, and what it leaves behind: the
references that led nowhere and the ids that had to be written as they are.

## Main definitions

* `Context` — the sealed graph and the options of a run.
* `Ledger`, `Conversion` — what conversions leave behind, and computations that do.
* `Context.referenceFor` — how a reference is written.
-/

namespace HclExport

/-- The sealed graph, what the export covers, and the options of a run. -/
structure Context where
  graph : SealedGraph
  environmentId : Json := .str ""
  skipsReferences : Bool := false
  writesImports : Bool := false
  usesVariables : Bool := false
  isStrict : Bool := false
  scope : Scope := {}
  ownership : Option Ownership := none

/-- An id that was written as it is, because no known reference backs it. -/
structure UnlinkedReference where
  source : String
  field : String
  targetId : String
  deriving DecidableEq

/-- What conversions leave behind. -/
structure Ledger where
  missing : List MissingRecord := []
  unlinked : List UnlinkedReference := []
  inputs : List InputVariable := []
  imports : List ImportBlock := []

/-- A computation that may fail; what it left behind until then stays. -/
abbrev Conversion := ExceptT Failure (StateM Ledger)

namespace Ledger

/-- Add a reference that led nowhere. -/
def addMissing (record : MissingRecord) (ledger : Ledger) : Ledger :=
  { ledger with missing := ledger.missing ++ [record] }

/-- Add an id that was written as it is. -/
def addUnlinked (reference : UnlinkedReference) (ledger : Ledger) : Ledger :=
  { ledger with unlinked := ledger.unlinked ++ [reference] }

/-- Add the variables and imports of a block that is kept. -/
def addKept (inputs : List InputVariable) (imports : List ImportBlock) (ledger : Ledger) :
    Ledger :=
  { ledger with
    inputs := ledger.inputs ++ inputs
    imports := ledger.imports ++ imports }

end Ledger

namespace Context

/-- The variable that holds the environment. -/
def environmentVariable : String := "pingone_environment_id"

/-- The environment as an expression. -/
def environment (context : Context) : String :=
  if context.skipsReferences then Hcl.quoteValue context.environmentId
  else "var." ++ environmentVariable

/-- A resource under its registered name, or without a name. -/
def sourceOf (context : Context) (ref : Ref) : Resource :=
  (context.graph.graph.find? ref).getD ⟨ref, ""⟩

/-- The first reference of a resource in a field to an id. -/
def edge? (context : Context) (source : Ref) (field targetId : String) : Option Edge :=
  context.graph.graph.edges.find? fun e =>
    e.source.ref = source && e.field = field && e.target.id = targetId

/-- How a reference is written. Without references, or without a known one to back it, the
id is written as it is; a reference to a registered resource becomes its address, any
other a placeholder. -/
def referenceFor (context : Context) (source : Resource) (field targetId : String)
    (key : String) : Conversion Hcl.Expression := do
  let literal : Hcl.Expression := { text := Hcl.quote targetId }
  if context.skipsReferences then return literal
  match context.edge? source.ref field targetId with
  | none =>
    modify (Ledger.addUnlinked ⟨source.ref.key, field, targetId⟩)
    return literal
  | some e =>
    match context.graph.graph.find? e.target with
    | some target => return { text := attributeAddress e.target.kind.type target.name key }
    | none =>
      let record := context.scope.missing source ⟨e.target, ""⟩ e.field e.location
      modify (Ledger.addMissing record)
      return .ofText (placeholder e.target.kind e.target.id record.reason.description)

end Context

end HclExport
