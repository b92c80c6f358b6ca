import HclExport.Graph.Basic

/-!
# References that lead nowhere

A reference whose target is not part of the export is recorded with the reason, which
follows from what the export covers.

## Main definitions

* `Scope` — which kinds an export covers, and which resources it leaves out.
* `MissingReason`, `Scope.classify` — why a resource is absent.
* `MissingRecord`, `Scope.missing` — a reference to an absent resource.
* `missingSummary` — the records in words.
-/

namespace HclExport

/-- The resources left out of an export, and the kinds it is restricted to; with none
listed it covers every kind. -/
structure Scope where
  excluded : List Ref := []
  included : List Kind := []

/-- Why a resource is not part of an export. -/
inductive MissingReason
  | notFound
  | excluded
  | notIncluded
  deriving DecidableEq

namespace MissingReason

/-- The reason in short. -/
def word : MissingReason → String
  | .notFound => "not found"
  | .excluded => "excluded"
  | .notIncluded => "not included"

/-- The reason as part of a sentence. -/
def description : MissingReason → String
  | .notFound => "not found in environment"
  | .excluded => "was excluded from export"
  | .notIncluded => "was not included in export filters"

/-- The reason as a heading. -/
def heading : MissingReason → String
  | .notFound => "Not Found in Environment"
  | .excluded => "Excluded Resources"
  | .notIncluded => "Not Included in Export"

end MissingReason

namespace Scope

/-- Whether a resource is left out. -/
def isExcluded (scope : Scope) (ref : Ref) : Bool :=
  scope.excluded.contains ref

/-- Whether a kind is covered. -/
def covers (scope : Scope) (kind : Kind) : Bool :=
  scope.included.isEmpty || scope.included.contains kind

/-- Why a resource is absent: it was left out, its kind is not covered, or it is nowhere. -/
def classify (scope : Scope) (ref : Ref) : MissingReason :=
  if scope.isExcluded ref then .excluded
  else if scope.covers ref.kind then .notFound
  else .notIncluded

end Scope

/-- A reference to an absent resource. -/
structure MissingRecord where
  source : Resource
  target : Resource
  reason : MissingReason
  field : String
  location : String
  deriving DecidableEq

/-- The record of a reference to an absent resource. -/
def Scope.missing (scope : Scope) (source target : Resource) (field location : String) :
    MissingRecord :=
  ⟨source, target, scope.classify target.ref, field, location⟩

/-! ### Summary -/

/-- A resource in words: its type, its name if it has one, and its id. -/
def Resource.describe (r : Resource) : String :=
  if r.name = "" then r.ref.kind.type ++ " " ++ r.ref.id
  else r.ref.kind.type ++ " \"" ++ r.name ++ "\" (" ++ r.ref.id ++ ")"

/-- One record in words. -/
def MissingRecord.describe (record : MissingRecord) : String :=
  let field := if record.field = "" then "" else " [field: " ++ record.field ++ "]"
  "  • " ++ record.source.describe ++ " → " ++ record.target.describe ++ field

/-- The records of one reason below their heading; nothing when there are none. -/
def missingSection (records : List MissingRecord) (reason : MissingReason) : List String :=
  match records.filter fun record => record.reason = reason with
  | [] => []
  | found => "" :: s!"{reason.heading} ({found.length}):" :: found.map MissingRecord.describe

/-- All records in words, what was left out on purpose first. -/
def missingSummary (records : List MissingRecord) : String :=
  if records.isEmpty then "✓ All dependencies resolved successfully"
  else
    let sections := [MissingReason.excluded, .notIncluded, .notFound].flatMap
      (missingSection records)
    "\n".intercalate
      ([s!"\n⚠ Missing Dependencies Summary ({records.length} total)",
        String.ofList (List.replicate 60 '=')] ++ sections ++
       ["", "Note: Missing references are marked with # TODO: comments",
        "in the generated configuration. Add the referenced resources",
        "to the export or replace the placeholders manually."])

end HclExport
