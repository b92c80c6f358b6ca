import HclExport.Json.Display
import HclExport.Json.Reader
import HclExport.Text.Utf8

/-!
# Faults and failures

A fault is something that an export can report about its input or its settings: a
message with a code, details, a cause and advice. A failure is any way in which a
computation ends without a result; most failures are faults.

## Main definitions

* `FaultKind`, `FaultKind.lineage` — the kinds of faults and the wider kinds they belong to.
* `Fault`, `Fault.text` — a fault and its one-line text.
* `Fault.of` — a fault with the code and the advice of its kind.
* `Failure`, `Failure.ofJsonError` — the ways to end without a result.
-/

namespace HclExport

/-- The kinds of faults. -/
inductive FaultKind
  | general
  | resolution
  | requiredPath
  | notRegistered
  | cyclic
  | invalidGraph
  | sealed
  | conversion
  | enabledConflict
  | importId
  | configuration
  deriving DecidableEq

namespace FaultKind

/-- The kind that a kind belongs to. -/
def parent? : FaultKind → Option FaultKind
  | .general => none
  | .resolution => some .general
  | .requiredPath => some .resolution
  | .notRegistered => some .resolution
  | .cyclic => some .resolution
  | .invalidGraph => some .resolution
  | .sealed => some .resolution
  | .conversion => some .general
  | .enabledConflict => some .conversion
  | .importId => some .general
  | .configuration => some .general

/-- The kind and the ever wider kinds it belongs to; three steps reach the widest. -/
def lineage (kind : FaultKind) : List FaultKind :=
  let first := kind.parent?
  let second := first.bind parent?
  kind :: (first.toList ++ second.toList)

/-- Every kind belongs to the general one. -/
theorem general_mem_lineage (kind : FaultKind) : .general ∈ kind.lineage := by
  cases kind <;> decide

/-- Whether a kind belongs to a wider one. -/
def isA (kind wider : FaultKind) : Bool :=
  kind.lineage.contains wider

/-- The code of the faults of a kind. -/
def code? : FaultKind → Option String
  | .general => none
  | .resolution => none
  | .requiredPath => some "REQUIRED_PATH_MISSING"
  | .notRegistered => some "RESOURCE_NOT_REGISTERED"
  | .cyclic => some "CIRCULAR_DEPENDENCY"
  | .invalidGraph => some "GRAPH_VALIDATION_FAILED"
  | .sealed => some "GRAPH_SEALED"
  | .conversion => some "CONVERSION_FAILED"
  | .enabledConflict => some "FLOW_ENABLED_CONFLICT"
  | .importId => some "IMPORT_ID_INVALID"
  | .configuration => some "CONFIG_INVALID"

/-- The advice given with the faults of a kind. -/
def advice? : FaultKind → Option String
  | .cyclic => some "Break the reference loop between the listed resources"
  | .enabledConflict => some "Re-export the flow so flowStatus and enabled agree"
  | .configuration => some "Check your .env file or command-line options"
  | _ => none

/-- The details that a fault of a kind names beside its message. -/
def detailNames : FaultKind → List String
  | .requiredPath => ["resource_type", "resource_id", "path"]
  | .notRegistered => ["resource_type", "resource_id"]
  | .conversion => ["resource_type", "resource_id"]
  | .enabledConflict => ["resource_type", "resource_id"]
  | .importId => ["resource_type"]
  | .configuration => ["config_key"]
  | _ => []

end FaultKind

/-- A fault: what is wrong, with a code, details in order, the text of a cause and advice. -/
structure Fault where
  kind : FaultKind
  message : String
  code : Option String
  context : Members
  cause : Option String
  advice : Option String

namespace Fault

/-- The details that are given, each set in its place or added behind the others. -/
def addDetails (context details : Members) : Members :=
  details.foldl (fun found detail =>
    if detail.2.isTruthy then Members.set detail.1 detail.2 found else found) context

/-- A fault with the code and the advice of its kind. -/
def of (kind : FaultKind) (message : String) (details : Members) : Fault :=
  ⟨kind, message, kind.code?, addDetails [] details, none, kind.advice?⟩

/-- A part of a text that is left out when there is nothing to say. -/
def clause (before : String) (said : Option String) (after : String) : String :=
  match said with
  | none => ""
  | some s => if s = "" then "" else before ++ s ++ after

/-- The details in a row. -/
def contextText (context : Members) : String :=
  ", ".intercalate (context.map fun (key, value) => key ++ "=" ++ value.display)

/-- The fault in one line: code, message, details, cause and advice. -/
def text (fault : Fault) : String :=
  let details :=
    if fault.context.isEmpty then "" else " (context: " ++ contextText fault.context ++ ")"
  let cause := match fault.cause with
    | none => ""
    | some s => " (caused by: " ++ s ++ ")"
  clause "[" fault.code "] " ++ fault.message ++ details ++ cause ++
    clause " (suggestion: " fault.advice ")"

end Fault

/-! ### Failures -/

/-- The ways in which a computation ends without a result. -/
inductive Failure
  /-- A fault that can be reported. -/
  | fault (fault : Fault)
  /-- A value that its place does not allow. -/
  | invalid (message : String)
  /-- A name that is not declared. -/
  | undeclared (message : String)
  /-- A value of a kind that cannot be used at all. -/
  | mistyped
  /-- A value that does not have what is asked of it. -/
  | unsupported
  /-- A number too great for an integer. -/
  | overflow
  /-- Octets that are not text. -/
  | undecodable (error : Utf8Error)
  /-- Values inside each other beyond all measure. -/
  | tooDeep

/-- The failure of a text that cannot be read as JSON. -/
def Failure.ofJsonError (text : String) : JsonError → Failure
  | .tooDeep => .tooDeep
  | e => .invalid (e.message text)

end HclExport
