import HclExport.Conversion.Flow
import Mathlib.Data.List.Basic

/-!
# Where no fault is met

Only what every document has to have can be at fault: its name, its id, its owner. The
parts of a block are left out, or fail in ways that nobody reports.

## Main definitions

* `NoFault` — a result that is no fault.

## Main results

* `noFault_settingsItems`, `noFault_viewItems`, `noFault_inputSchemaItems`,
  `noFault_triggerItem` — the parts of the blocks of flows and flow policies.
-/

namespace HclExport

/-- A result that is no fault; it may be a failure of another sort. -/
def NoFault {α : Type} (result : Except Failure α) : Prop :=
  ∀ fault, result ≠ .error (.fault fault)

namespace NoFault

variable {α β : Type}

theorem ok (a : α) : NoFault (.ok a) := by
  intro fault h
  cases h

theorem error {failure : Failure} (h : ∀ fault, failure ≠ .fault fault) :
    NoFault (.error failure : Except Failure α) := by
  intro fault heq
  exact h fault (Except.error.inj heq)

theorem bind {result : Except Failure α} {next : α → Except Failure β} (h : NoFault result)
    (hnext : ∀ a, NoFault (next a)) : NoFault (result >>= next) := by
  intro fault heq
  cases result with
  | error failure =>
    obtain rfl : failure = .fault fault := Except.error.inj heq
    exact h fault rfl
  | ok a => exact hnext a fault heq

theorem mapM {f : α → Except Failure β} (h : ∀ a, NoFault (f a)) (xs : List α) :
    NoFault (xs.mapM f) := by
  induction xs with
  | nil => exact ok []
  | cons x xs ih =>
    rw [List.mapM_cons]
    exact (h x).bind fun y => ih.bind fun ys => ok (y :: ys)

end NoFault

open NoFault

/-! ### Numbers and lists -/

theorem noFault_integerText (n : Number) : NoFault (integerText n) := by
  unfold integerText
  split
  · exact ok _
  -- what is not a number, and what is infinite, fails without a fault
  · exact error fun fault h => by cases h
  · split
    · exact ok _
    · exact error fun fault h => by cases h

theorem noFault_integerPair (document : Members) (key name : String) :
    NoFault (integerPair document key name) := by
  unfold integerPair
  split
  · exact (noFault_integerText _).bind fun text => ok _
  · exact ok _

theorem noFault_listedObjects (value : Json) : NoFault (listedObjects value) := by
  unfold listedObjects
  split
  · exact ok _
  · exact ok _
  · exact ok _
  · split
    · exact error fun fault h => by cases h
    · exact ok _

/-! ### Triggers -/

theorem noFault_timePair (authentication : Members) : NoFault (timePair authentication) := by
  unfold timePair
  split
  · exact ok _
  · exact noFault_integerPair _ _ _

theorem noFault_authenticationItems (configuration : Members) (key : String) :
    NoFault (authenticationItems configuration key) := by
  unfold authenticationItems
  dsimp only
  split
  · exact ok _
  · exact (noFault_timePair _).bind fun time => ok _

theorem noFault_triggerItem (trigger : Members) : NoFault (triggerItem trigger) := by
  unfold triggerItem
  dsimp only
  split
  · exact ok _
  · exact (noFault_authenticationItems _ _).bind fun mfa =>
      (noFault_authenticationItems _ _).bind fun password => ok _

theorem noFault_flowTrigger (document : Members) : NoFault (flowTrigger document) := by
  unfold flowTrigger
  split
  · exact (noFault_triggerItem _).bind fun item => ok _
  · exact ok _

theorem noFault_policyTrigger (document : Members) : NoFault (policyTrigger document) := by
  unfold policyTrigger
  dsimp only
  split
  · exact ok _
  · exact (noFault_triggerItem _).bind fun item => ok _

/-! ### Settings, views and versions -/

theorem noFault_settingPair (name : String) (value : Json) :
    NoFault (settingPair name value) := by
  cases value with
  | num n => exact (noFault_integerText n).bind fun text => ok _
  | _ => exact ok _

theorem noFault_settingPairs (settings : Members) : NoFault (settingPairs settings) := by
  induction settings with
  | nil => exact ok []
  | cons setting rest ih =>
    exact (noFault_settingPair _ _).bind fun pair => ih.bind fun more => ok _

theorem noFault_scriptItems (settings : Members) : NoFault (scriptItems settings) := by
  unfold scriptItems
  split
  · exact ok _
  · refine (noFault_listedObjects _).bind fun links => ?_
    split
    · exact ok _
    · exact ok _

theorem noFault_settingsItems (document : Members) : NoFault (settingsItems document) := by
  unfold settingsItems
  dsimp only
  split
  · exact ok _
  · exact (noFault_settingPairs _).bind fun pairs => (noFault_scriptItems _).bind fun scripts =>
      ok _

theorem noFault_viewItems (diagram : Members) : NoFault (viewItems diagram) := by
  unfold viewItems
  exact (noFault_integerPair _ _ _).bind fun zoom => ok _

theorem noFault_flowVersion (context : Context) (document : Members) (unique : String) :
    NoFault (flowVersion context document unique) := by
  unfold flowVersion
  split
  · exact noFault_integerText _
  · exact ok _

/-! ### Input schemas -/

theorem noFault_requiredNames (required : List Json) : NoFault (requiredNames required) := by
  unfold requiredNames
  split
  · exact ok _
  · exact error fun fault h => by cases h

theorem noFault_deriveEntries (properties : Members) (required : List Json) :
    NoFault (deriveEntries properties required) :=
  (noFault_requiredNames required).bind fun _ => ok _

theorem noFault_nodeSchema (node : Json) : NoFault (nodeSchema node) := by
  unfold nodeSchema
  dsimp only
  split
  · exact ok _
  · split
    · exact ok _
    · exact ok _
    · -- however a node's own schema is malformed, the document is not at fault
      refine error fun fault h => ?_
      unfold Failure.ofJsonError at h
      split at h
      · cases h
      · cases h

theorem noFault_nodeEntries (document : Members) : NoFault (nodeEntries document) :=
  (NoFault.mapM noFault_nodeSchema _).bind fun _ => noFault_deriveEntries _ _

theorem noFault_inputSchema (document : Members) : NoFault (inputSchema document) := by
  unfold inputSchema
  split
  · exact ok _
  · split
    · exact ok _
    · refine (noFault_deriveEntries _ _).bind fun entries => ?_
      split
      · exact noFault_nodeEntries document
      · exact ok _

theorem noFault_inputSchemaItems (document : Members) : NoFault (inputSchemaItems document) := by
  unfold inputSchemaItems
  refine (noFault_inputSchema document).bind fun entries => ?_
  split
  · exact ok _
  · exact ok _

end HclExport
