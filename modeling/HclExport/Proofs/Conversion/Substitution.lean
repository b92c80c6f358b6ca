import HclExport.Proofs.Conversion.Block

/-!
# Variables in place of values

The properties of a connector instance are gone through twice: once to list what is taken from
outside, in the order of their names, and once to write them, each with the input that was listed
under its path. Both see the same properties, so a masked value is listed and replaced by its
variable whatever the rules and the options are, and a value that is not listed is written as it
is. The value of a variable is written on a line of its own, and either way what stands in place of
a value is the value itself or the variable of an input that was listed.

## Main definitions

* `Json.HoldsMask` — a property is masked, or holds a masked value.
* `Json.held`, `Json.holding` — the value of a property, and a property with another value.
* `InputVariable.ComesFrom` — an input that was listed for a property with a given value.
* `InputVariable.IsMaskedFor` — an input that stands for a masked property.
* `Linked`, `LinkedLine` — a property and a value as they are written.
* `connectorText`, `variableText` — the blocks of connector instances and of variables.
* `Block.LinksProperties`, `Block.LinksValue` — a block that is written with given properties, or
  with a given value, and with variables of its inputs in their places.

## Main results

* `filter_connectorInputs` — the inputs that are listed under the path of one property.
* `ensures_linksProperties`, `ensures_linksValue` — what stands in place of a value.
* `Converter.connectorInstance_properties` — **how the properties of a connector instance are
  written.**
-/

namespace HclExport

open Hcl (Item Value)

/-! ### Properties and their values -/

/-- A property is masked itself, or holds a masked value. -/
inductive Json.HoldsMask : Json → Prop
  | bare {property : Json} (h : isMasked property = true) : HoldsMask property
  | inside {members : Members} {value : Json} (hvalue : members.get? "value" = some value)
      (h : isMasked value = true) : HoldsMask (.obj members)

/-- The value of a property: what a container holds, and otherwise all of it. -/
def Json.held (property : Json) : Json :=
  if hasTypedValue property then (property.members?.getD []).get "value" else property

/-- A property with a given value: a container keeps its type, unless that is blank, and
otherwise nothing is kept. -/
def Json.holding (property : Json) (value : Value) : Value :=
  if hasTypedValue property then
    let type := (property.members?.getD []).get "type"
    .object (Value.ofMembers (if isNamed type then [("type", type)] else []) ++ [("value", value)])
  else value

theorem isPrimitive_of_isMasked {value : Json} (h : isMasked value = true) :
    isPrimitive value = true := by
  cases value with
  | str s =>
    -- an empty text is not masked, since the mask has something in it
    have hne : s ≠ "" := by
      rintro rfl
      revert h
      decide
    simpa [isPrimitive] using hne
  | _ => cases h

/-- What is taken from outside for a property is its value. -/
theorem propertyValue?_eq_some_iff {property value : Json} :
    propertyValue? property = some value ↔
      (hasTypedValue property = true ∨ isMasked property = true) ∧ property.held = value := by
  unfold propertyValue? Json.held
  by_cases htyped : hasTypedValue property = true
  · cases property with
    | obj members => simp [htyped, Json.members?]
    | _ => cases htyped
  · by_cases hmasked : isMasked property = true
    · simp [htyped, hmasked]
    · simp [htyped, hmasked]

/-- Whatever form a masked property has, its value is found, and it is masked. -/
theorem Json.HoldsMask.propertyValue? {property : Json} (h : property.HoldsMask) :
    ∃ value, HclExport.propertyValue? property = some value ∧ isMasked value = true := by
  cases h with
  | bare h =>
    cases property with
    | str s => exact ⟨.str s, propertyValue?_eq_some_iff.2 ⟨Or.inr h, rfl⟩, h⟩
    | _ => cases h
  | @inside members value hvalue h =>
    have htyped : hasTypedValue (.obj members) = true := by
      simp [hasTypedValue, hvalue, isPrimitive_of_isMasked h]
    refine ⟨value, propertyValue?_eq_some_iff.2 ⟨Or.inl htyped, ?_⟩, h⟩
    simp [Json.held, htyped, Json.members?, Members.get, hvalue]

/-! ### What is listed -/

/-- An input that was listed for a property of a resource with a given value. -/
structure InputVariable.ComesFrom (rules : PropertyRules) (resource property : String)
    (value : Json) (v : InputVariable) : Prop where
  kind : v.kind = .connectorInstance
  resourceName : v.resourceName = resource
  path : v.path = "properties." ++ property
  name : v.name = connectorInputName resource property
  primitive : isPrimitive value = true
  type : v.type = if isMasked value then "string" else inferType value
  current : v.current = if isMasked value then none else some value
  isSensitive : v.isSensitive = (isMasked value || rules.secret.contains property)
  isSecret : v.isSecret = (isMasked value || rules.secret.contains property)

/-- An input that stands for a masked property of a resource: a sensitive text without a value,
declared with an empty default. -/
structure InputVariable.IsMaskedFor (resource property : String) (v : InputVariable) : Prop where
  name : v.name = connectorInputName resource property
  type : v.type = "string"
  current : v.current = none
  isSensitive : v.isSensitive = true
  default : v.definition.get? "default" = some (.str "")

/-- What was listed for a masked value stands for a masked property. -/
theorem InputVariable.ComesFrom.isMaskedFor {rules : PropertyRules} {resource property : String}
    {value : Json} {v : InputVariable} (h : v.ComesFrom rules resource property value)
    (hmasked : isMasked value = true) : v.IsMaskedFor resource property := by
  have htype := h.type
  have hcurrent := h.current
  have hsensitive := h.isSensitive
  have hsecret := h.isSecret
  rw [hmasked] at htype hcurrent hsensitive hsecret
  refine ⟨h.name, htype, hcurrent, hsensitive, ?_⟩
  unfold InputVariable.definition InputVariable.default?
  rw [hcurrent, hsecret]
  -- the default comes after the type and the description, if there is one
  split
  · rfl
  · rfl

section Inputs

variable {rules : PropertyRules} {document : Members} {resourceName : String}

theorem comesFrom_of_connectorInput? {property : String × Json} {v : InputVariable}
    (h : connectorInput? rules document resourceName property = some v) :
    ∃ value, propertyValue? property.2 = some value ∧
      v.ComesFrom rules resourceName property.1 value := by
  unfold connectorInput? at h
  cases hvalue : propertyValue? property.2 with
  | none =>
    rw [hvalue] at h
    cases h
  | some value =>
    rw [hvalue] at h
    simp only [Option.bind_eq_bind, Option.bind_some] at h
    split at h
    · cases h
    split at h
    · cases h
    next hprimitive =>
      obtain rfl := Option.some.inj h
      exact ⟨value, rfl, rfl, rfl, rfl, rfl, by simpa using hprimitive, rfl, rfl, rfl, rfl⟩

/-- A masked property is listed, even one that is excluded. -/
theorem connectorInput?_of_holdsMask {key : String} {property : Json} (h : property.HoldsMask) :
    ∃ v, connectorInput? rules document resourceName (key, property) = some v ∧
      v.IsMaskedFor resourceName key := by
  obtain ⟨value, hvalue, hmasked⟩ := h.propertyValue?
  have hlisted : (connectorInput? rules document resourceName (key, property)).isSome = true := by
    simp [connectorInput?, hvalue, hmasked, isPrimitive_of_isMasked hmasked]
  obtain ⟨v, hv⟩ := Option.isSome_iff_exists.1 hlisted
  obtain ⟨value', hvalue', hfrom⟩ := comesFrom_of_connectorInput? hv
  obtain rfl : value = value' := Option.some.inj (hvalue.symm.trans hvalue')
  exact ⟨v, hv, hfrom.isMaskedFor hmasked⟩

theorem comesFrom_of_mem_connectorInputs {v : InputVariable}
    (h : v ∈ connectorInputs rules document resourceName) :
    ∃ property value, v.ComesFrom rules resourceName property value := by
  obtain ⟨property, -, hinput⟩ := List.mem_filterMap.1 h
  obtain ⟨value, -, hfrom⟩ := comesFrom_of_connectorInput? hinput
  exact ⟨property.1, value, hfrom⟩

/-- The inputs that are listed under the path of a property: its own, if it has one. -/
theorem filter_connectorInputs (hkeys : ((document.inner "properties").map Prod.fst).Nodup)
    {key : String} {property : Json} (h : (key, property) ∈ document.inner "properties") :
    (connectorInputs rules document resourceName).filter
        (fun v => v.path = "properties." ++ key) =
      (connectorInput? rules document resourceName (key, property)).toList := by
  have hsorted : (sortOn Prod.fst (document.inner "properties")).filter (fun x => x.1 = key) =
      [(key, property)] := by
    have hperm := sortOn_perm Prod.fst (document.inner "properties")
    exact filter_key_eq_singleton ((hperm.map Prod.fst).nodup_iff.2 hkeys) (hperm.mem_iff.2 h)
  -- an input is listed under the path exactly when its property has that name
  have hpath : ∀ x : String × Json,
      (connectorInput? rules document resourceName x).filter
          (fun v => v.path = "properties." ++ key) =
        if x.1 = key then connectorInput? rules document resourceName x else none := by
    intro x
    cases hx : connectorInput? rules document resourceName x with
    | none => simp
    | some v =>
      obtain ⟨_, -, hfrom⟩ := comesFrom_of_connectorInput? hx
      simp [Option.filter, hfrom.path, String.append_right_inj]
  have hguard : ∀ xs : List (String × Json),
      xs.filterMap (fun x =>
          if x.1 = key then connectorInput? rules document resourceName x else none) =
        (xs.filter fun x => x.1 = key).filterMap (connectorInput? rules document resourceName) := by
    intro xs
    rw [List.filterMap_filter]
    simp only [decide_eq_true_eq]
  unfold connectorInputs
  rw [List.filter_filterMap]
  simp only [hpath]
  rw [hguard, hsorted]
  cases hinput : connectorInput? rules document resourceName (key, property) with
  | none => simp [hinput]
  | some v => simp [hinput]

/-- The input that takes the place of a property is its own: without a value always, and
otherwise if variables are asked for. -/
theorem substitute?_connectorInputs
    (hkeys : ((document.inner "properties").map Prod.fst).Nodup) {key : String} {property : Json}
    (h : (key, property) ∈ document.inner "properties") (usesVariables : Bool) :
    substitute? usesVariables (connectorInputs rules document resourceName) key =
      (connectorInput? rules document resourceName (key, property)).filter fun input =>
        input.current.isNone || usesVariables := by
  unfold substitute?
  rw [← List.head?_filter, filter_connectorInputs hkeys h, Option.head?_toList]

end Inputs

/-! ### What is written -/

/-- A property is written around its value, or around the variable that takes its place. -/
theorem linkedProperty_eq (substitute : Option InputVariable) (property : Json) :
    linkedProperty substitute property = property.holding
      (match substitute with
        | some input => .expr input.interpolation
        | none => .ofJson property.held) := by
  unfold linkedProperty Json.holding Json.held
  cases substitute with
  | none =>
    by_cases h : hasTypedValue property = true
    · simp only [h, if_true]
    · simp only [h, Bool.false_eq_true, if_false]
  | some input =>
    by_cases h : hasTypedValue property = true
    · simp only [h, if_true]
    · simp only [h, Bool.false_eq_true, if_false]

/-- A property as it is written, under its own name: with its own value, or with the variable of
an input that was listed under its path. -/
inductive Linked (inputs : List InputVariable) (property : String × Json) :
    String × Value → Prop
  | own : Linked inputs property (property.1, property.2.holding (.ofJson property.2.held))
  | input {v : InputVariable} (h : v ∈ inputs) (hpath : v.path = "properties." ++ property.1) :
    Linked inputs property (property.1, property.2.holding (.expr v.interpolation))

theorem linked_linkedProperty (usesVariables : Bool) (inputs : List InputVariable)
    (property : String × Json) :
    Linked inputs property
      (property.1, linkedProperty (substitute? usesVariables inputs property.1) property.2) := by
  rw [linkedProperty_eq]
  cases h : substitute? usesVariables inputs property.1 with
  | none => exact .own
  | some v =>
    obtain ⟨hfound, -⟩ := Option.filter_eq_some_iff.1 h
    exact .input (List.mem_of_find?_eq_some hfound) (by simpa using List.find?_some hfound)

/-- A line with a value as it is written, if it is: with the value, or with the variable of an
input. -/
inductive LinkedLine (inputs : List InputVariable) (value : Json) : Option String → Prop
  | none : LinkedLine inputs value none
  | own {key : String} (hkey : valueKey? value = some key) :
    LinkedLine inputs value (some (key ++ " = " ++ valueText value))
  | input {key : String} (hkey : valueKey? value = some key) {v : InputVariable} (h : v ∈ inputs) :
    LinkedLine inputs value (some (key ++ " = " ++ ("var." ++ v.name)))
  | secret {v : InputVariable} (h : v ∈ inputs) :
    LinkedLine inputs value (some ("secret_string = " ++ ("var." ++ v.name)))

theorem InputVariable.render_reference (v : InputVariable) :
    v.reference.render = "var." ++ v.name := by
  simp [reference, Hcl.Expression.render, Hcl.Expression.renderBefore, Hcl.Expression.remark]

theorem linkedLine_valueLine? (usesVariables : Bool) (dataType : String) (value : Json)
    (inputs : List InputVariable) :
    LinkedLine inputs value (valueLine? usesVariables dataType value inputs) := by
  unfold valueLine?
  split
  · -- a secret is never written itself
    split
    next v hv =>
      split
      · rw [v.render_reference]
        exact .secret (List.mem_of_head? hv)
      · exact .none
    next => exact .none
  · cases hkey : valueKey? value with
    | none => exact .none
    | some key =>
      dsimp only [Option.map]
      split
      next v hv =>
        split
        · rw [v.render_reference]
          exact .input hkey (List.mem_of_head? hv)
        · exact .own hkey
      next => exact .own hkey

/-- What stands in the block of a connector instance above its properties. -/
def connectorHead (context : Context) (document : Members) : List Item :=
  [.assign "environment_id" context.environment, .blank,
   .assign "name" (Hcl.quote (document.text "name")), .blank,
   .object "connector" [.assign "id" (Hcl.quote ((document.inner "connector").text "id"))]]

/-- What stands in the block of a variable above its value, which is left out or not. -/
def variableHead (context : Context) (document : Members) (isOmitted : Bool) : List Item :=
  let declared := (document.flag? "mutable").getD false
  let overridden := isOmitted && !declared
  [.assign "environment_id" context.environment, .blank,
   .assignAll
     [("name", Hcl.quote (document.text "name")), ("context", Hcl.quote (document.text "context")),
      ("data_type", Hcl.quote (document.text "dataType")),
      ("mutable", Hcl.boolText (declared || overridden))]] ++
  (if overridden then
    [.line "# NOTE: mutable overridden to true because no value is provided"] else []) ++
  [.assignAll
    (textPair document "displayName" "display_name" ++ numberPair document "min" "min" ++
      numberPair document "max" "max")] ++
  owningFlowItems document ++ [.blank]

/-- The block of a connector instance with given properties. -/
def connectorText (context : Context) (document : Members) (name : String)
    (written : List (String × Value)) : String :=
  Item.renderAll [.braced (Hcl.resourceHeader Kind.connectorInstance.type name)
    (connectorHead context document ++
      (if written.isEmpty then [] else [.blank, .json "properties" (.object written)]))]

/-- The block of a variable with a given line for its value. -/
def variableText (context : Context) (document : Members) (name : String) (line : Option String) :
    String :=
  Item.renderAll [.braced (Hcl.resourceHeader Kind.variable.type name)
    (variableHead context document line.isNone ++ valueItems (document.text "dataType") line)]

/-- A block is that of a connector instance, and holds each of its properties once, with its own
value or with the variable of an input of the block. -/
def Block.LinksProperties (context : Context) (document : Members) (block : Block) : Prop :=
  ∃ written, block.hcl = connectorText context document block.name written ∧
    List.Forall₂ (Linked block.inputs) (document.inner "properties") written

/-- A block is that of a variable, and holds its value, or the variable of an input of the block
for it, or neither. -/
def Block.LinksValue (context : Context) (document : Members) (block : Block) : Prop :=
  ∃ line, block.hcl = variableText context document block.name line ∧
    LinkedLine block.inputs (document.get "value") line

/-- The block of a connector instance, with its properties as they are written. -/
theorem ensures_connectorText (rules : PropertyRules) (context : Context) (document : Members)
    (answer : Request → Hcl.Expression) :
    (draftConnectorInstance rules context document).Ensures answer fun block =>
      block.inputs = connectorInputs rules document block.name ∧
      block.hcl = connectorText context document block.name
        ((document.inner "properties").map fun (key, property) =>
          (key, linkedProperty (substitute? context.usesVariables block.inputs key) property)) := by
  refine .bind fun name hname => .bind fun connectorId hconnector => .bind fun _ _ =>
    .bind fun unique _ => .pure ⟨rfl, ?_⟩
  obtain ⟨-, rfl⟩ := requireText_eq_ok_iff.1 (orFail_eq_ok_iff.1 hname)
  obtain ⟨-, rfl⟩ := requireText_eq_ok_iff.1 (orFail_eq_ok_iff.1 hconnector)
  unfold connectorText
  rw [List.isEmpty_map]
  rfl

/-- What stands in place of a property is the property or the variable of an input. -/
theorem ensures_linksProperties (rules : PropertyRules) (context : Context) (document : Members)
    (answer : Request → Hcl.Expression) :
    (draftConnectorInstance rules context document).Ensures answer
      (Block.LinksProperties context document) := by
  intro block hblock
  refine ⟨_, (ensures_connectorText rules context document answer block hblock).2, ?_⟩
  rw [List.forall₂_map_right_iff]
  exact List.forall₂_same.2 fun property _ => linked_linkedProperty _ _ property

/-- The block of a variable, with the line for its value. -/
theorem ensures_variableText (context : Context) (document : Members)
    (answer : Request → Hcl.Expression) :
    (draftVariable context document).Ensures answer fun block =>
      document.text "dataType" ≠ "" ∧ block.inputs = valueInputs document block.name ∧
      block.hcl = variableText context document block.name
        (valueLine? context.usesVariables (document.text "dataType") (document.get "value")
          block.inputs) := by
  refine .bind fun name hname => .bind fun scope hscope => .bind fun dataType htype =>
    .bind fun _ _ => .bind fun unique _ => .pure ?_
  obtain ⟨-, rfl⟩ := requireText_eq_ok_iff.1 (orFail_eq_ok_iff.1 hname)
  obtain ⟨-, rfl⟩ := requireText_eq_ok_iff.1 (orFail_eq_ok_iff.1 hscope)
  obtain ⟨hgiven, rfl⟩ := requireText_eq_ok_iff.1 (orFail_eq_ok_iff.1 htype)
  exact ⟨hgiven, rfl, rfl⟩

/-- What stands in place of a value is the value or the variable of an input. -/
theorem ensures_linksValue (context : Context) (document : Members)
    (answer : Request → Hcl.Expression) :
    (draftVariable context document).Ensures answer (Block.LinksValue context document) := by
  intro block hblock
  obtain ⟨-, -, hhcl⟩ := ensures_variableText context document answer block hblock
  exact ⟨_, hhcl, linkedLine_valueLine? _ _ _ _⟩

/-- **How the properties of a connector instance are written.** Whatever the rules and the options
of a conversion are, each property is written once, under its own name. Where a masked value was,
bare or in a container, its variable is written; and that variable is the only one that the block
takes from outside for the property, sensitive, without a value and with an empty default. What
is not taken from outside is written with the value that it has. -/
theorem Converter.connectorInstance_properties {rules : PropertyRules} {context : Context}
    {document : Members} {ledger after : Ledger} {block : Block}
    (h : ((Converter.connectorInstance rules).convert context document).run ledger =
      (.ok block, after))
    (hkeys : ((document.inner "properties").map Prod.fst).Nodup) :
    ∃ written : List (String × Value),
      block.hcl = connectorText context document block.name written ∧
      written.map Prod.fst = (document.inner "properties").map Prod.fst ∧
      ∀ key property, (key, property) ∈ document.inner "properties" →
        (property.HoldsMask → ∃ v,
          block.inputs.filter (fun w => w.path = "properties." ++ key) = [v] ∧
          v.IsMaskedFor block.name key ∧
          (key, property.holding (.expr v.interpolation)) ∈ written) ∧
        ((∀ v ∈ block.inputs, v.path ≠ "properties." ++ key) →
          (key, property.holding (.ofJson property.held)) ∈ written) := by
  have hresult : ((Converter.connectorInstance rules).draft context document).result
      context.answer = .ok block := by
    unfold Converter.convert at h
    rw [Draft.run_write] at h
    exact congrArg Prod.fst h
  obtain ⟨hinputs, hhcl⟩ := ensures_connectorText rules context document _ block hresult
  refine ⟨_, hhcl, ?_, fun key property hmem => ?_⟩
  · rw [List.map_map]
    rfl
  have hfilter : (connectorInputs rules document block.name).filter
        (fun w => w.path = "properties." ++ key) =
      (connectorInput? rules document block.name (key, property)).toList :=
    filter_connectorInputs hkeys hmem
  have hwritten : (key, linkedProperty (substitute? context.usesVariables block.inputs key)
      property) ∈ (document.inner "properties").map fun (key, property) =>
        (key, linkedProperty (substitute? context.usesVariables block.inputs key) property) :=
    List.mem_map_of_mem hmem
  rw [linkedProperty_eq, hinputs, substitute?_connectorInputs hkeys hmem] at hwritten
  rw [hinputs]
  constructor
  · intro hmask
    obtain ⟨v, hv, hfor⟩ : ∃ v, connectorInput? rules document block.name (key, property) = some v ∧
        v.IsMaskedFor block.name key := connectorInput?_of_holdsMask hmask
    rw [hv] at hfilter hwritten
    refine ⟨v, hfilter, hfor, ?_⟩
    simpa [Option.filter, hfor.current] using hwritten
  · intro hnone
    have hinput : connectorInput? rules document block.name (key, property) = none := by
      rw [← Option.toList_eq_nil_iff, ← hfilter, List.filter_eq_nil_iff]
      simpa using hnone
    rw [hinput] at hwritten
    exact hwritten

/-- A connector instance with two properties: one that is excluded but masked, and one that is
neither. -/
def maskedConnector : Members :=
  [("id", .str "c"), ("name", .str "Form"), ("connector", .obj [("id", .str "f")]),
   ("properties", .obj
     [("connectionId", .obj [("type", .str "string"), ("value", .str " ****** ")]),
      ("scopes", .arr [.str "openid"])])]

/-- A context in which that connector instance is registered. -/
def maskedContext : Context where
  graph := Graph.close { resources := [⟨⟨.connectorInstance, "c"⟩, "pingcli__Form"⟩] }

theorem Converter.connectorInstance_properties_masked :
    ∃ block after,
      ((Converter.connectorInstance {}).convert maskedContext maskedConnector).run {} =
        (.ok block, after) ∧
      ∃ v, block.inputs.filter (fun w => w.path = "properties.connectionId") = [v] ∧
        v.IsMaskedFor "pingcli__Form" "connectionId" := by
  have hrun : ∃ block after,
      ((Converter.connectorInstance {}).convert maskedContext maskedConnector).run {} =
        (.ok block, after) ∧ block.name = "pingcli__Form" := ⟨_, _, rfl, rfl⟩
  obtain ⟨block, after, h, hname⟩ := hrun
  obtain ⟨written, -, -, hproperties⟩ := Converter.connectorInstance_properties h (by decide)
  obtain ⟨v, hv, hfor, -⟩ := (hproperties "connectionId" _ List.mem_cons_self).1
    (.inside rfl (by decide))
  rw [hname] at hfor
  exact ⟨block, after, h, v, hv, hfor⟩

end HclExport
