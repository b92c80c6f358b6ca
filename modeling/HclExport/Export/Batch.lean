import HclExport.Json.Reader
import HclExport.Resource.Kind

/-!
# Batches

A batch holds the documents of an export under the names of their kinds. A kind may be
named in several ways and more than once; its documents stand in the order of the batch.

## Main definitions

* `Batch`, `Batch.of` — documents by kind.
* `Batch.ofJson` — the batch that a value holds.
* `Batch.read` — the batch that a file holds.
-/

namespace HclExport

/-- Documents with their kinds, in order. -/
structure Batch where
  documents : List (Kind × Members) := []

namespace Batch

/-- The documents of a kind. -/
def of (batch : Batch) (kind : Kind) : List Members :=
  (batch.documents.filter fun entry => entry.1 = kind).map Prod.snd

/-- The plural names of kinds. -/
def plurals : List (String × Kind) :=
  [("variables", .variable), ("connectors", .connectorInstance),
   ("connector_instances", .connectorInstance), ("connectorInstances", .connectorInstance),
   ("flows", .flow), ("applications", .application), ("flow_policies", .flowPolicy),
   ("flowPolicies", .flowPolicy)]

/-- The kind that a name in a batch stands for. -/
def kindNamed? (name : String) : Option Kind :=
  match plurals.lookup name with
  | some kind => some kind
  | none => Kind.parse? name

/-- The kind that a name in a batch stands for, or a fault. -/
def kindNamed (name : String) : Except Fault Kind :=
  match kindNamed? name with
  | some kind => .ok kind
  | none => .error
      { Fault.of .configuration ("Unknown resource kind in batch: " ++ name) [] with
        cause := some (Kind.unknownType (trim name)) }

/-- The fault of an entry that is not built as it has to be. -/
def entryFault (kind : Kind) (message : String) : Fault :=
  { Fault.of .configuration message [] with context := [("kind", .str kind.type)] }

/-- The documents in the list under a name. -/
def documentsNamed (name : String) (kind : Kind) :
    List Json → Except Fault (List (Kind × Members))
  | [] => .ok []
  | .obj document :: rest => do return (kind, document) :: (← documentsNamed name kind rest)
  | _ :: _ =>
    .error (entryFault kind ("Every " ++ name ++ " document must be a JSON object"))

/-- The documents of an entry. -/
def ofEntry (entry : String × Json) : Except Fault (List (Kind × Members)) := do
  let kind ← kindNamed entry.1
  match entry.2 with
  | .arr items => documentsNamed entry.1 kind items
  | _ => .error (entryFault kind ("Documents for " ++ entry.1 ++ " must be a list"))

/-- The batch that a value holds. -/
def ofJson : Json → Except Fault Batch
  | .obj entries => do
    let found ← entries.mapM ofEntry
    return ⟨found.flatten⟩
  | _ => .error (Fault.of .configuration "Resource batch must be a JSON object" [])

/-- The fault of a file that cannot be read. -/
def unreadable (path why : String) : Fault :=
  { Fault.of .configuration s!"Failed to read resource batch from {path}: {why}" [] with
    cause := some why }

/-- The batch in the octets of a file. -/
def ofOctets (path : String) (octets : List UInt8) : Except Failure Batch :=
  match Utf8.decode octets with
  | .error e => .error (.undecodable e)
  | .ok decoded =>
    let text := unifyLineBreaks decoded
    match Json.read text with
    | .ok value => (ofJson value).mapError .fault
    | .error (.malformed complaint offset) =>
      .error (.fault (unreadable path (JsonError.message text (.malformed complaint offset))))
    | .error e => .error (.ofJsonError text e)

/-- The batch that a file holds, given its octets; there are none if there is no file. -/
def read (path : String) (octets? : Option (List UInt8)) : Except Failure Batch :=
  match octets? with
  | some octets => ofOctets path octets
  | none =>
    .error (.fault (unreadable path ("[Errno 2] No such file or directory: " ++ quoted path)))

end Batch

end HclExport
