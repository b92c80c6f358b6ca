import HclExport.Proofs.Export.InputNames

/-!
# Inputs that are named by identifiers

A variable is declared under an identifier, and an expression refers to it by that. The name of an
input starts like an identifier and goes on with the name of its resource, which is legal. What
comes last is the property as the document spells it, so that the name is an identifier exactly if
the property holds nothing but letters, digits, underscores and hyphens. Values of variables are
always named by identifiers.

## Main definitions

* `Hcl.readVariable` — the variable that an expression starts with.

## Main results

* `isIdentifier_connectorInputName_iff` — the name of an input for a property.
* `inputs_isIdentifier_iff` — **which inputs are named by identifiers.**
-/

namespace HclExport

open Hcl.Value (isIdentifier isNameChar isNameStart)

/-! ### Identifiers -/

/-- The name of the variable that an expression starts with, and what stands behind it: the name
goes on as far as there are characters that may stand in one. -/
def Hcl.readVariable : List Char → Option (List Char × List Char)
  | 'v' :: 'a' :: 'r' :: '.' :: c :: rest =>
    if isNameStart c then some (c :: rest.takeWhile isNameChar, rest.dropWhile isNameChar)
    else none
  | _ => none

open Hcl (readVariable)

theorem isIdentifier_append {front : List Char} (h : isIdentifier front = true)
    (more : List Char) : isIdentifier (front ++ more) = more.all isNameChar := by
  cases front with
  | nil => cases h
  | cons c rest =>
    simp only [isIdentifier, Bool.and_eq_true] at h
    simp [isIdentifier, h.1, h.2]

theorem isLegalText_iff_all {s : String} : IsLegalText s ↔ s.toList.all isNameChar = true :=
  List.all_eq_true.symm

/-- An expression refers to a variable and to nothing else if the name of the variable is an
identifier. -/
theorem readVariable_iff (name : List Char) :
    readVariable ("var.".toList ++ name) = some (name, []) ↔ isIdentifier name = true := by
  have hword : "var.".toList = ['v', 'a', 'r', '.'] := by decide
  rw [hword]
  cases name with
  | nil => simp [readVariable, isIdentifier]
  | cons c rest =>
    have hread : readVariable (['v', 'a', 'r', '.'] ++ c :: rest) =
        if isNameStart c then some (c :: rest.takeWhile isNameChar, rest.dropWhile isNameChar)
        else none := rfl
    rw [hread, isIdentifier]
    by_cases hstart : isNameStart c = true
    · rw [if_pos hstart, hstart, Bool.true_and, Option.some_inj, Prod.mk.injEq,
        List.dropWhile_eq_nil_iff, List.all_eq_true]
      refine ⟨fun h => h.2, fun h => ⟨?_, h⟩⟩
      rw [List.takeWhile_eq_self_iff.2 h]
    · simp [hstart]

/-! ### Names of inputs -/

/-- What stands before the property in the name of an input. -/
theorem isIdentifier_front {head rest : String} (hhead : isIdentifier head.toList = true)
    (hrest : IsLegalText rest) : isIdentifier (head ++ rest ++ "_").toList = true := by
  rw [String.append_assoc, String.toList_append, isIdentifier_append hhead]
  exact isLegalText_iff_all.1 (hrest.append (by decide))

/-- The name of an input for a property is an identifier if the property is a legal text. -/
theorem isIdentifier_connectorInputName_iff {resourceName : String} (h : IsName resourceName)
    (property : String) :
    isIdentifier (connectorInputName resourceName property).toList = true ↔
      IsLegalText property := by
  obtain ⟨rest, rfl, hrest⟩ := h
  have hfront : isIdentifier ("davinci_connection_" ++ rest ++ "_").toList = true :=
    isIdentifier_front (by decide) hrest
  unfold connectorInputName
  rw [stripHead_nameHead, String.toList_append, isIdentifier_append hfront, isLegalText_iff_all]

theorem isIdentifier_valueInputName {resourceName : String} (h : IsName resourceName) :
    isIdentifier (valueInputName resourceName).toList = true := by
  obtain ⟨rest, rfl, hrest⟩ := h
  have hfront : isIdentifier ("davinci_variable_" ++ rest ++ "_").toList = true :=
    isIdentifier_front (by decide) hrest
  have hend : "_value" = "_" ++ "value" := by decide
  unfold valueInputName
  rw [stripHead_nameHead, hend, ← String.append_assoc, String.toList_append,
    isIdentifier_append hfront]
  decide

/-- **Which inputs are named by identifiers.** An input that a connector instance takes from outside
belongs to one of its properties. Its name is an identifier, and an expression refers to it and to
nothing else, exactly if that property is a legal text. The value of a variable is always named by
an identifier. -/
theorem inputs_isIdentifier_iff {resourceName : String} (h : IsName resourceName)
    (rules : PropertyRules) (document : Members) :
    (∀ v ∈ connectorInputs rules document resourceName,
      ∃ property ∈ (document.inner "properties").map Prod.fst,
        v.path = "properties." ++ property ∧
        (isIdentifier v.name.toList = true ↔ IsLegalText property) ∧
        (readVariable v.reference.text.toList = some (v.name.toList, []) ↔
          IsLegalText property)) ∧
    ∀ v ∈ valueInputs document resourceName,
      isIdentifier v.name.toList = true ∧
        readVariable v.reference.text.toList = some (v.name.toList, []) := by
  have hreads : ∀ v : InputVariable,
      readVariable v.reference.text.toList = some (v.name.toList, []) ↔
        isIdentifier v.name.toList = true := by
    intro v
    rw [InputVariable.reference, String.toList_append, readVariable_iff]
  simp only [hreads, and_self]
  constructor
  · intro v hv
    obtain ⟨property, hproperty, hinput⟩ := List.mem_filterMap.1 hv
    obtain ⟨value, -, hfrom⟩ := comesFrom_of_connectorInput? hinput
    refine ⟨property.1, List.mem_map_of_mem (mem_sortOn.1 hproperty), hfrom.path, ?_⟩
    rw [hfrom.name]
    exact isIdentifier_connectorInputName_iff h property.1
  · intro v hv
    obtain ⟨⟨hkind, -⟩ | ⟨-, -, hname⟩, hvalue, hresource⟩ := stands_of_mem_valueInputs hv
    · rw [hvalue] at hkind
      cases hkind
    · rw [hname, hresource]
      exact isIdentifier_valueInputName h

/-- A connector instance with a property that is a legal text and one that is not. -/
def spelledConnector : Members :=
  [("id", .str "c"), ("name", .str "F"),
   ("properties", .obj [("a b", .obj [("value", .str "x")]), ("api-key", .str mask)])]

theorem inputs_isIdentifier_iff_spelledConnector :
    IsName "pingcli__F" ∧
      ∃ v ∈ connectorInputs {} spelledConnector "pingcli__F",
        v.path = "properties.api-key" ∧ isIdentifier v.name.toList = true := by
  have hname : IsName "pingcli__F" := ⟨"F", by decide, by decide⟩
  have hfound : (connectorInputs {} spelledConnector "pingcli__F").any
      (fun v => v.path == "properties.api-key") = true := by decide
  obtain ⟨v, hv, hpath⟩ := List.any_eq_true.1 hfound
  have hpath : v.path = "properties.api-key" := eq_of_beq hpath
  obtain ⟨property, -, hproperty, hidentifier, -⟩ :=
    (inputs_isIdentifier_iff hname {} spelledConnector).1 v hv
  have hsame : "properties." ++ property = "properties." ++ "api-key" := by
    rw [← hproperty, hpath]
    decide
  rw [(String.append_right_inj _).1 hsame] at hidentifier
  exact ⟨hname, v, hv, hpath, hidentifier.2 (by decide)⟩

/-- The name of the other input holds a blank, so that an expression refers to another variable and
goes on behind it. -/
theorem connectorInputs_not_isIdentifier :
    IsName "pingcli__F" ∧
      ∃ v ∈ connectorInputs {} spelledConnector "pingcli__F",
        v.name = "davinci_connection_F_a b" ∧ isIdentifier v.name.toList = false ∧
        readVariable v.reference.text.toList =
          some ("davinci_connection_F_a".toList, " b".toList) := by
  refine ⟨⟨"F", by decide, by decide⟩, ?_⟩
  have hfound : (connectorInputs {} spelledConnector "pingcli__F").any (fun v =>
      v.name == "davinci_connection_F_a b" && !isIdentifier v.name.toList &&
        readVariable v.reference.text.toList ==
          some ("davinci_connection_F_a".toList, " b".toList)) = true := by decide
  obtain ⟨v, hv, htest⟩ := List.any_eq_true.1 hfound
  simp only [Bool.and_eq_true, beq_iff_eq, Bool.not_eq_true'] at htest
  exact ⟨v, hv, htest.1.1, htest.1.2, htest.2⟩

end HclExport
