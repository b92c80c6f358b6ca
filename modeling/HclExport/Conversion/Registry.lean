import HclExport.Conversion.Application
import HclExport.Conversion.ConnectorInstance
import HclExport.Conversion.Flow
import HclExport.Conversion.FlowPolicy
import HclExport.Conversion.Variable

/-!
# The registry of converters

Which converter takes the documents of which kind. A kind belongs to whoever claimed it
first; the five standard converters claim all kinds.

## Main definitions

* `Registration` — a claim to the documents of a kind.
* `ConverterRegistry.register`, `ConverterRegistry.complete` — make claims.
* `ConverterRegistry.find?` — the claim to a kind.
-/

namespace HclExport

/-- A claim to the documents of a kind. -/
structure Registration where
  name : String
  kind : Kind
  /-- The resource types that are written. -/
  types : List String := []
  /-- How the documents are converted; a claim without it converts nothing. -/
  converter? : Option Converter := none

/-- The claim of a converter. -/
def Converter.registration (converter : Converter) : Registration :=
  ⟨converter.name, converter.kind, converter.types, some converter⟩

/-- The standard converter of a kind. -/
def Kind.converter : Kind → Converter
  | .variable => .variable
  | .connectorInstance => .connectorInstance {}
  | .flow => .flow
  | .application => .application
  | .flowPolicy => .flowPolicy

/-- The standard converter of a kind is one for that kind. -/
theorem Kind.kind_converter (kind : Kind) : kind.converter.kind = kind := by
  cases kind <;> rfl

/-- Claims in the order in which they were made. -/
structure ConverterRegistry where
  registrations : List Registration := []

namespace ConverterRegistry

/-- The claim to a kind. -/
def find? (registry : ConverterRegistry) (kind : Kind) : Option Registration :=
  registry.registrations.find? fun r => r.kind = kind

/-- Make a claim. A kind that is claimed already is refused, unless both claims are those
of a standard converter, which is the same one. -/
def register (registry : ConverterRegistry) (new : Registration) :
    Except Failure ConverterRegistry :=
  match registry.find? new.kind with
  | none => .ok { registrations := registry.registrations ++ [new] }
  | some old =>
    if old.converter?.isSome && new.converter?.isSome then .ok registry
    else .error (.invalid s!"{new.name} and {old.name} both handle {new.kind.type}")

/-- Make claims one by one up to the first that is refused; those made before it stand. -/
def registerAll (registry : ConverterRegistry) :
    List Registration → Except Failure Unit × ConverterRegistry
  | [] => (.ok (), registry)
  | new :: rest =>
    match registry.register new with
    | .error e => (.error e, registry)
    | .ok grown => registerAll grown rest

/-- If a kind is not claimed, let the standard converters make their claims. -/
def complete (registry : ConverterRegistry) : Except Failure Unit × ConverterRegistry :=
  if Kind.all.all fun kind => (registry.find? kind).isSome then (.ok (), registry)
  else registry.registerAll (Kind.all.map fun kind => kind.converter.registration)

/-- The registry of the standard converters. -/
def standard : ConverterRegistry where
  registrations := Kind.all.map fun kind => kind.converter.registration

/-- All resource types that are written, in order. -/
def types (registry : ConverterRegistry) : List String :=
  sortOn id (registry.registrations.flatMap Registration.types).eraseDups

/-- The converter of a kind, if the kind is claimed. -/
def converter? (registry : ConverterRegistry) (kind : Kind) :
    Except Failure (Option Converter) :=
  match registry.find? kind with
  | none => .ok none
  | some registration =>
    match registration.converter? with
    | some converter => .ok (some converter)
    | none => .error .mistyped

/-- The converter of a kind, which has to be claimed. -/
def converterOf (registry : ConverterRegistry) (kind : Kind) : Except Failure Converter := do
  match ← registry.converter? kind with
  | some converter => .ok converter
  | none => .error .unsupported

end ConverterRegistry

end HclExport
