import HclExport.Proofs.Conversion.Substitution

/-!
# Masks that are written

A masked value is taken from outside where it is looked for: as a property of a connector instance,
or as the value of a property, and as the value of a variable that is declared a secret. Inside a
value that is itself a list or an object nobody looks for masks, nor in the type of a property, and
they are written as they are. The masked value of any other variable is taken from outside like a
value that is not masked.

## Main definitions

* `Hcl.Value.literals`, `Hcl.Value.masks` — the texts that are written as they are, and the masked
  ones of them.
* `Json.innerMasks`, `Json.exposedMasks` — the masks inside a value, and the masks of a property
  that no variable takes the place of.
* `Block.MasksProperties`, `Block.MasksValue` — what became of the masks in a block.

## Main results

* `masks_linkedProperty` — the masks that are written of a property.
* `holdsMask_iff` — which properties are taken from outside without a value.
* `ensures_masks`, `ensures_maskedValue` — the masks in the blocks of connector instances and of
  variables.
-/

namespace HclExport

open Hcl (Value)

/-! ### Texts in values -/

namespace Hcl.Value

mutual

/-- The texts that are written as they are, at any depth; an expression is none. -/
def literals : Value → List String
  | .str s => [s]
  | .tuple items => itemLiterals items
  | .object members => memberLiterals members
  | _ => []

/-- The texts in the items of a tuple. -/
def itemLiterals : List Value → List String
  | [] => []
  | item :: rest => literals item ++ itemLiterals rest

/-- The texts in the members of an object. -/
def memberLiterals : List (String × Value) → List String
  | [] => []
  | (_, value) :: rest => literals value ++ memberLiterals rest

end

/-- The masked texts that are written as they are. -/
def masks (value : Value) : List String :=
  value.literals.filter fun s => isMasked (.str s)

theorem masks_object (members : List (String × Value)) :
    (object members).masks = members.flatMap fun member => member.2.masks := by
  show (memberLiterals members).filter _ = _
  induction members with
  | nil => rfl
  | cons member rest ih =>
    rw [memberLiterals, List.filter_append, List.flatMap_cons, ih]
    rfl

@[simp] theorem masks_null : null.masks = [] := rfl

@[simp] theorem masks_expr (e : Expression) : (expr e).masks = [] := rfl

/-- A text is all that is written of itself. -/
theorem masks_str (s : String) :
    (str s).masks = if isMasked (.str s) then [s] else [] := by
  show [s].filter _ = _
  split
  next h => exact List.filter_cons_of_pos h
  next h => exact List.filter_cons_of_neg h

end Hcl.Value

/-! ### Properties -/

/-- The masks inside a value that is not a text itself. -/
def Json.innerMasks : Json → List String
  | .str _ => []
  | value => (Value.ofJson value).masks

/-- The masks of a property that no variable takes the place of: those around its value, and those
inside it. -/
def Json.exposedMasks (property : Json) : List String :=
  (property.holding .null).masks ++ property.held.innerMasks

/-- What is written around a value does not depend on the value. -/
theorem masks_holding (property : Json) (value : Value) :
    (property.holding value).masks = (property.holding .null).masks ++ value.masks := by
  unfold Json.holding
  split
  · simp [Value.masks_object]
  · simp

/-- A property holds a mask exactly if its value is masked. -/
theorem holdsMask_iff_held {property : Json} :
    property.HoldsMask ↔ isMasked property.held = true := by
  constructor
  · intro h
    obtain ⟨value, hvalue, hmasked⟩ := h.propertyValue?
    rwa [(propertyValue?_eq_some_iff.1 hvalue).2]
  · intro hmasked
    unfold Json.held at hmasked
    split at hmasked
    next htyped =>
      cases property with
      | obj members =>
        cases hvalue : Members.get? members "value" with
        | none =>
          rw [hasTypedValue, hvalue] at htyped
          cases htyped
        | some value =>
          have hheld : Members.get members "value" = value := by
            rw [Members.get, hvalue]
            rfl
          rw [← hheld] at hvalue
          exact .inside hvalue hmasked
      | _ => cases htyped
    next => exact .bare hmasked

section Inputs

variable {rules : PropertyRules} {document : Members} {resourceName : String}

theorem masks_ofJson {value : Json} (h : ¬ isMasked value = true) :
    (Value.ofJson value).masks = value.innerMasks := by
  cases value with
  | str s => rw [Value.ofJson, Value.masks_str, if_neg h, Json.innerMasks]
  | _ => rfl

/-- Nothing is inside a value that can be taken from outside. -/
theorem innerMasks_of_isPrimitive {value : Json} (h : isPrimitive value = true) :
    value.innerMasks = [] := by
  cases value with
  | null => cases h
  | arr items => cases h
  | obj members => cases h
  | _ => rfl

/-- The masks that are written of a property are those that no variable takes the place of. -/
theorem masks_linkedProperty (hkeys : ((document.inner "properties").map Prod.fst).Nodup)
    {key : String} {property : Json} (h : (key, property) ∈ document.inner "properties")
    (usesVariables : Bool) :
    (linkedProperty (substitute? usesVariables (connectorInputs rules document resourceName) key)
      property).masks = property.exposedMasks := by
  rw [substitute?_connectorInputs hkeys h, linkedProperty_eq, masks_holding, Json.exposedMasks]
  congr 1
  cases hinput : connectorInput? rules document resourceName (key, property) with
  | none =>
    -- a masked value would have been taken from outside
    refine masks_ofJson fun hmasked => ?_
    obtain ⟨v, hv, -⟩ := connectorInput?_of_holdsMask (holdsMask_iff_held.2 hmasked)
    rw [hinput] at hv
    cases hv
  | some v =>
    obtain ⟨value, hvalue, hfrom⟩ := comesFrom_of_connectorInput? hinput
    obtain rfl := (propertyValue?_eq_some_iff.1 hvalue).2
    by_cases hsubstituted : (v.current.isNone || usesVariables) = true
    · rw [Option.filter_some, if_pos hsubstituted, innerMasks_of_isPrimitive hfrom.primitive]
      exact Value.masks_expr v.interpolation
    · rw [Option.filter_some, if_neg hsubstituted]
      refine masks_ofJson fun hmasked => hsubstituted ?_
      rw [hfrom.current, if_pos hmasked]
      rfl

/-- A property is taken from outside without a value exactly if it holds a mask. -/
theorem holdsMask_iff (hkeys : ((document.inner "properties").map Prod.fst).Nodup)
    {key : String} {property : Json} (h : (key, property) ∈ document.inner "properties") :
    property.HoldsMask ↔ ∃ v ∈ connectorInputs rules document resourceName,
      v.path = "properties." ++ key ∧ v.IsMaskedFor resourceName key := by
  have hmem (v : InputVariable) :
      v ∈ connectorInputs rules document resourceName ∧ v.path = "properties." ++ key ↔
        connectorInput? rules document resourceName (key, property) = some v := by
    rw [← Option.mem_toList, ← filter_connectorInputs hkeys h, List.mem_filter,
      decide_eq_true_iff]
  constructor
  · intro hmask
    obtain ⟨v, hv, hfor⟩ := connectorInput?_of_holdsMask hmask
    obtain ⟨hlisted, hpath⟩ := (hmem v).2 hv
    exact ⟨v, hlisted, hpath, hfor⟩
  · rintro ⟨v, hlisted, hpath, hfor⟩
    obtain ⟨value, hvalue, hfrom⟩ := comesFrom_of_connectorInput? ((hmem v).1 ⟨hlisted, hpath⟩)
    rw [holdsMask_iff_held, (propertyValue?_eq_some_iff.1 hvalue).2]
    by_contra hunmasked
    have hcurrent := hfrom.current
    rw [if_neg hunmasked, hfor.current] at hcurrent
    cases hcurrent

end Inputs

/-! ### Blocks -/

/-- The masks in the block of a connector instance are those that no variable takes the place of,
and its masked properties are taken from outside. -/
structure Block.MasksProperties (context : Context) (document : Members) (block : Block) :
    Prop where
  written : ∃ written, block.hcl = connectorText context document block.name written ∧
    written.map Prod.fst = (document.inner "properties").map Prod.fst ∧
    (Value.object written).masks =
      (document.inner "properties").flatMap fun property => property.2.exposedMasks
  listed : ∀ key property, (key, property) ∈ document.inner "properties" →
    (property.HoldsMask ↔ ∃ v ∈ block.inputs,
      v.path = "properties." ++ key ∧ v.IsMaskedFor block.name key)

/-- What becomes of the masks of a connector instance. -/
theorem ensures_masks (rules : PropertyRules) (context : Context) {document : Members}
    (hkeys : ((document.inner "properties").map Prod.fst).Nodup)
    (answer : Request → Hcl.Expression) :
    (draftConnectorInstance rules context document).Ensures answer
      (Block.MasksProperties context document) := by
  intro block hblock
  obtain ⟨hinputs, hhcl⟩ := ensures_connectorText rules context document answer block hblock
  rw [hinputs] at hhcl
  refine ⟨⟨_, hhcl, ?_, ?_⟩, ?_⟩
  · rw [List.map_map]
    rfl
  · rw [Value.masks_object, List.flatMap_map]
    exact List.flatMap_congr fun property hproperty => masks_linkedProperty hkeys hproperty _
  · intro key property hproperty
    rw [hinputs]
    exact holdsMask_iff hkeys hproperty

/-! ### Values of variables -/

/-- The masked value of a variable is taken from outside by the one input of its block. For a secret
the input has no value, an empty default and is sensitive, and it is written in place of the mask.
Otherwise the mask is its default, and written if variables are not asked for. -/
structure Block.MasksValue (context : Context) (document : Members) (block : Block) : Prop where
  secret : lower (document.text "dataType") = "secret" → ∃ v, block.inputs = [v] ∧
    v.name = valueInputName block.name ∧ v.current = none ∧ v.isSensitive = true ∧
    v.default? = some (.str "") ∧
    block.hcl = variableText context document block.name
      (some ("secret_string = " ++ ("var." ++ v.name)))
  other : lower (document.text "dataType") ≠ "secret" → ∃ v, block.inputs = [v] ∧
    v.name = valueInputName block.name ∧ v.isSensitive = false ∧
    v.default? = some (document.get "value") ∧
    block.hcl = variableText context document block.name
      (some ("string = " ++ if context.usesVariables then "var." ++ v.name
        else valueText (document.get "value")))

/-- Where the type of a variable is a text that is not empty, it decides whether the value is a
secret. -/
theorem isSecretValue_eq {document : Members} (h : document.text "dataType" ≠ "") :
    isSecretValue document = (lower (document.text "dataType") == "secret") := by
  unfold isSecretValue
  rw [displayMember_of_text h]

/-- The line with a masked value. -/
theorem valueLine?_of_isMasked {value : Json} (h : isMasked value = true) (usesVariables : Bool)
    (dataType : String) (v : InputVariable) :
    valueLine? usesVariables dataType value [v] =
      if lower dataType = "secret" then
        if v.isSecret then some ("secret_string = " ++ ("var." ++ v.name)) else none
      else some ("string = " ++ if usesVariables then "var." ++ v.name else valueText value) := by
  have hkey : valueKey? value = some "string" := by
    cases value with
    | str s =>
      have hne : s ≠ "" := by simpa [isPrimitive] using isPrimitive_of_isMasked h
      exact if_neg hne
    | _ => cases h
  unfold valueLine?
  split
  · simp [v.render_reference]
  · cases usesVariables with
    | false => simp [hkey]
    | true => simp [hkey, v.render_reference]

/-- The one input for the masked value of a variable. -/
theorem valueInputs_of_isMasked {document : Members}
    (hmasked : isMasked (document.get "value") = true) (resourceName : String) :
    ∃ v, valueInputs document resourceName = [v] ∧ v.name = valueInputName resourceName ∧
      v.current = (if isSecretValue document then none else some (document.get "value")) ∧
      v.isSensitive = isSecretValue document ∧ v.isSecret = isSecretValue document := by
  have htaken : (isPrimitive (document.get "value") &&
      (!isSecretValue document || isMasked (document.get "value"))) = true := by
    rw [isPrimitive_of_isMasked hmasked, hmasked]
    simp
  exact ⟨_, if_pos htaken, rfl, rfl, rfl, rfl⟩

/-- A value that is taken from outside is primitive, and masked if it is a secret; and it has one
input. -/
theorem valueInputs_of_ne_nil {document : Members} {name : String}
    (h : valueInputs document name ≠ []) (resource : String) :
    isPrimitive (document.get "value") = true ∧
      (isSecretValue document = true → isMasked (document.get "value") = true) ∧
      ∃ v, valueInputs document resource = [v] ∧ v.name = valueInputName resource ∧
        v.isSecret = isSecretValue document := by
  have htaken : (isPrimitive (document.get "value") &&
      (!isSecretValue document || isMasked (document.get "value"))) = true := by
    by_contra hnone
    exact h (if_neg hnone)
  obtain ⟨hprimitive, hmasked⟩ := Bool.and_eq_true_iff.1 htaken
  refine ⟨hprimitive, fun hsecret => ?_, _, if_pos htaken, rfl, rfl⟩
  rwa [hsecret] at hmasked

/-- What becomes of the masked value of a variable. -/
theorem ensures_maskedValue (context : Context) {document : Members}
    (hmasked : isMasked (document.get "value") = true) (answer : Request → Hcl.Expression) :
    (draftVariable context document).Ensures answer (Block.MasksValue context document) := by
  intro block hblock
  obtain ⟨hgiven, hinputs, hhcl⟩ := ensures_variableText context document answer block hblock
  obtain ⟨v, hone, hvname, hcurrent, hsensitive, hsecret⟩ :=
    valueInputs_of_isMasked hmasked block.name
  rw [hone] at hinputs
  rw [hinputs, valueLine?_of_isMasked hmasked] at hhcl
  rw [isSecretValue_eq hgiven] at hcurrent hsensitive hsecret
  constructor
  · intro hlower
    rw [hlower, beq_self_eq_true] at hcurrent hsensitive hsecret
    rw [if_pos hlower, hsecret, if_pos rfl] at hhcl
    have hdefault : v.default? = some (.str "") := by
      unfold InputVariable.default?
      rw [hcurrent, hsecret]
      rfl
    exact ⟨v, hinputs, hvname, hcurrent, hsensitive, hdefault, hhcl⟩
  · intro hlower
    rw [beq_eq_false_iff_ne.2 hlower] at hcurrent hsensitive
    rw [if_neg hlower] at hhcl
    have hdefault : v.default? = some (document.get "value") := by
      unfold InputVariable.default?
      rw [hcurrent]
      rfl
    exact ⟨v, hinputs, hvname, hsensitive, hdefault, hhcl⟩

/-! ### Defaults -/

/-- No property has a masked default. -/
theorem InputVariable.ComesFrom.not_isMasked_default {rules : PropertyRules}
    {resource property : String} {value default : Json} {v : InputVariable}
    (h : v.ComesFrom rules resource property value) (hdefault : v.default? = some default) :
    ¬ isMasked default = true := by
  intro hmasked
  unfold InputVariable.default? at hdefault
  rw [h.current] at hdefault
  by_cases hvalue : isMasked value = true
  · -- the value is kept back, and what is left for a default is the empty text
    rw [if_pos hvalue] at hdefault
    obtain ⟨-, hempty⟩ := Option.ite_none_right_eq_some.1 hdefault
    obtain rfl := Option.some.inj hempty
    revert hmasked
    decide
  · rw [if_neg hvalue] at hdefault
    obtain rfl := Option.some.inj hdefault
    exact hvalue hmasked

/-- A masked default of a variable is its value. -/
theorem get_value_of_masked_default {document : Members} {resourceName : String}
    {v : InputVariable} (h : v ∈ valueInputs document resourceName) {default : Json}
    (hdefault : v.default? = some default) (hmasked : isMasked default = true) :
    document.get "value" = default := by
  unfold valueInputs at h
  dsimp only at h
  split at h
  next =>
    obtain rfl := List.mem_singleton.1 h
    unfold InputVariable.default? at hdefault
    cases hsecret : isSecretValue document with
    | true =>
      simp only [hsecret, if_true] at hdefault
      rw [← Option.some.inj hdefault] at hmasked
      cases hmasked
    | false =>
      simp only [hsecret, Bool.false_eq_true, if_false] at hdefault
      exact Option.some.inj hdefault
  next => cases h

end HclExport
