import HclExport.Proofs.Conversion.Masks
import HclExport.Proofs.Export.Resembling
import HclExport.Proofs.Export.Secrecy
import HclExport.Proofs.Sorting

/-!
# Values that are taken from outside stay out of the resources

Where variables are asked for, a value that is taken from outside is replaced by its variable, and
that one is named by the resource and the property. So documents that differ in such values alone
have the same blocks, apart from the values that the blocks take from outside.

## Main definitions

* `SameButInput` — properties that differ at most in a value that is taken from outside of both.
* `Kind.SameButInputs`, `Batch.SameButInputs` — documents and batches that differ in such values.
* `Block.SameText` — blocks that are the same but for the values that they take from outside.

## Main results

* `linkedProperties_eq_of_inputs`, `valueLine?_eq_of_inputs` — what is written in place of values.
* `Kind.SameButInputs.resembles` — documents that differ in such values have the same blocks.
* `Batch.texts_eq_of_inputs` — **the texts of an export do not depend on such values.**
-/

namespace HclExport

/-! ### Properties and documents that differ in inputs -/

/-- Whether a property of a connector instance is taken from outside. -/
def isInput (property : String × Json) : Bool :=
  (connectorInput? {} [] "" property).isSome

/-- Properties under one name that differ at most in a value that is taken from outside of both: the
value of a container, or a bare mask. -/
inductive SameButInput : String × Json → String × Json → Prop
  /-- The properties are the same. -/
  | same (property : String × Json) : SameButInput property property
  /-- The properties are containers that differ in their values. -/
  | container (key : String) {p q : Members} (h : Members.SameBut "value" p q)
      (hp : isInput (key, .obj p) = true) (hq : isInput (key, .obj q) = true) :
    SameButInput (key, .obj p) (key, .obj q)
  /-- The properties are bare masks. -/
  | mask (key : String) {p q : String} (hp : isInput (key, .str p) = true)
      (hq : isInput (key, .str q) = true) : SameButInput (key, .str p) (key, .str q)

/-- Documents of a kind that differ at most in values that are taken from outside of both: values of
one class of a variable, or values of the properties of a connector instance. -/
inductive Kind.SameButInputs : Kind → Members → Members → Prop
  /-- The documents are the same. -/
  | same (kind : Kind) (document : Members) : SameButInputs kind document document
  /-- The documents differ in the value of a variable. -/
  | value {a b : Members} (h : Members.SameBut "value" a b) (ha : valueInputs a "" ≠ [])
      (hb : valueInputs b "" ≠ [])
      (hclass : inferType (a.get "value") = inferType (b.get "value")) :
    SameButInputs .variable a b
  /-- The documents differ in properties of a connector instance. -/
  | properties {a b p q : Members} (h : Members.SameBut "properties" a b)
      (ha : a.get? "properties" = some (.obj p)) (hb : b.get? "properties" = some (.obj q))
      (hproperties : List.Forall₂ SameButInput p q) :
    SameButInputs .connectorInstance a b

/-- Batches with the same documents in the same places, kind by kind, up to such values. -/
def Batch.SameButInputs (batch other : Batch) : Prop :=
  ∀ kind : Kind, List.Forall₂ kind.SameButInputs (batch.of kind) (other.of kind)

/-- Blocks that are the same but for the values that they take from outside. -/
def Block.SameText (a b : Block) : Prop :=
  a.ref = b.ref ∧ a.name = b.name ∧ a.hcl = b.hcl

theorem Block.SameText.refl (block : Block) : block.SameText block :=
  ⟨rfl, rfl, rfl⟩

/-! ### Properties -/

section Properties

variable {rules : PropertyRules} {a b : Members} {resource : String}

/-- Whether a property is taken from outside depends on the property alone. -/
theorem isSome_connectorInput? (document other : Members) (resourceName otherName : String)
    (property : String × Json) :
    (connectorInput? rules document resourceName property).isSome =
      (connectorInput? rules other otherName property).isSome := by
  unfold connectorInput?
  cases propertyValue? property.2 with
  | none => rfl
  | some value =>
    simp only [Option.bind_eq_bind, Option.bind_some]
    split
    · rfl
    · split
      · rfl
      · rfl

theorem isSome_of_isInput {property : String × Json} (h : isInput property = true)
    (document : Members) (resourceName : String) :
    (connectorInput? {} document resourceName property).isSome = true := by
  rw [isSome_connectorInput? document [] resourceName ""]
  exact h

namespace SameButInput

variable {x y : String × Json}

theorem key_eq (h : SameButInput x y) : x.1 = y.1 := by
  cases h <;> rfl

/-- They are both taken from outside, or neither is. -/
theorem isSome_eq (h : SameButInput x y) (document other : Members) (resource : String) :
    (connectorInput? {} document resource x).isSome =
      (connectorInput? {} other resource y).isSome := by
  cases h with
  | same => exact isSome_connectorInput? _ _ _ _ _
  | container key _ hp hq => rw [isSome_of_isInput hp, isSome_of_isInput hq]
  | mask key hp hq => rw [isSome_of_isInput hp, isSome_of_isInput hq]

/-- They are the same, or they are both taken from outside and hold any given value alike. -/
theorem eq_or (h : SameButInput x y) :
    x = y ∨ isInput x = true ∧ isInput y = true ∧
      ∀ value, x.2.holding value = y.2.holding value := by
  cases h with
  | same => exact Or.inl rfl
  | @container key p q h hp hq =>
    refine Or.inr ⟨hp, hq, fun value => ?_⟩
    have htyped : ∀ {members : Members}, isInput (key, .obj members) = true →
        hasTypedValue (.obj members) = true := by
      intro members hinput
      obtain ⟨v, hv⟩ := Option.isSome_iff_exists.1 hinput
      obtain ⟨found, hfound, -⟩ := comesFrom_of_connectorInput? hv
      exact (propertyValue?_eq_some_iff.1 hfound).1.resolve_right (by simp [isMasked])
    unfold Json.holding
    rw [if_pos (htyped hp), if_pos (htyped hq)]
    simp only [Json.members?, Option.getD_some, h.get (by decide : "type" ≠ "value")]
    rfl
  | @mask key p q hp hq =>
    refine Or.inr ⟨hp, hq, fun value => ?_⟩
    rfl

end SameButInput

/-- Inputs for one path under one name. -/
def InputVariable.SameName (v w : InputVariable) : Prop :=
  v.path = w.path ∧ v.name = w.name

/-- The inputs of properties that differ in inputs have the same paths and names. -/
theorem forall₂_connectorInputs
    (h : List.Forall₂ SameButInput (a.inner "properties") (b.inner "properties"))
    (resource : String) :
    List.Forall₂ InputVariable.SameName (connectorInputs {} a resource)
      (connectorInputs {} b resource) := by
  unfold connectorInputs
  refine List.rel_filterMap ?_ (forall₂_sortOn (fun _ _ hxy => hxy.key_eq) h)
  intro x y hxy
  have hsome := hxy.isSome_eq a b resource
  cases hx : connectorInput? {} a resource x with
  | none =>
    rw [hx] at hsome
    have hy : connectorInput? {} b resource y = none := by
      rw [← Option.not_isSome_iff_eq_none, ← hsome]
      simp
    rw [hy]
    exact .none
  | some v =>
    rw [hx] at hsome
    obtain ⟨w, hy⟩ := Option.isSome_iff_exists.1 hsome.symm
    obtain ⟨_, -, hv⟩ := comesFrom_of_connectorInput? hx
    obtain ⟨_, -, hw⟩ := comesFrom_of_connectorInput? hy
    rw [hy]
    exact .some ⟨by rw [hv.path, hw.path, hxy.key_eq], by rw [hv.name, hw.name, hxy.key_eq]⟩

/-- Where variables are asked for, the variable in place of a property is the input under its
path. -/
theorem substitute?_true (inputs : List InputVariable) (key : String) :
    substitute? true inputs key = inputs.find? fun input => input.path = "properties." ++ key := by
  unfold substitute?
  cases inputs.find? fun input => input.path = "properties." ++ key with
  | none => rfl
  | some input => simp

/-- Inputs with the same paths and names take the places of the same properties. -/
theorem substitute?_rel {inputs others : List InputVariable}
    (h : List.Forall₂ InputVariable.SameName inputs others) (key : String) :
    Option.Rel InputVariable.SameName (substitute? true inputs key)
      (substitute? true others key) := by
  rw [substitute?_true, substitute?_true]
  induction h with
  | nil => exact .none
  | @cons v w _ _ hvw _ ih =>
    rw [List.find?_cons, List.find?_cons, hvw.1]
    split
    · exact .some hvw
    · exact ih

/-- An input takes the place of every property that is taken from outside. -/
theorem isSome_substitute? {document : Members} {property : String × Json}
    (hmem : property ∈ document.inner "properties") (hinput : isInput property = true)
    (resource : String) :
    (substitute? true (connectorInputs {} document resource) property.1).isSome = true := by
  obtain ⟨v, hv⟩ := Option.isSome_iff_exists.1 (isSome_of_isInput hinput document resource)
  obtain ⟨_, -, hfrom⟩ := comesFrom_of_connectorInput? hv
  rw [substitute?_true, List.find?_isSome]
  refine ⟨v, List.mem_filterMap.2 ⟨property, mem_sortOn.2 hmem, hv⟩, ?_⟩
  rw [hfrom.path]
  exact decide_eq_true rfl

/-- **What is written in place of properties** does not depend on what is taken from outside. -/
theorem linkedProperties_eq_of_inputs
    (h : List.Forall₂ SameButInput (a.inner "properties") (b.inner "properties"))
    (resource : String) :
    linkedProperties true (connectorInputs {} a resource) (a.inner "properties") =
      linkedProperties true (connectorInputs {} b resource) (b.inner "properties") := by
  have hrel := substitute?_rel (forall₂_connectorInputs h resource)
  have hsome := fun (x : String × Json) (hx : x ∈ a.inner "properties") hinput =>
    isSome_substitute? hx hinput resource
  unfold linkedProperties
  refine congrArg Hcl.Value.object ?_
  -- the properties are gone through one by one, with the inputs of all of them
  generalize connectorInputs {} a resource = inputs at hrel hsome
  generalize connectorInputs {} b resource = others at hrel
  generalize a.inner "properties" = properties at h hsome
  generalize b.inner "properties" = properties' at h
  induction h with
  | nil => rfl
  | @cons x y _ _ hxy _ ih =>
    rw [List.map_cons, List.map_cons, ih fun z hz => hsome z (List.mem_cons_of_mem _ hz)]
    refine congrArg (· :: _) (Prod.ext hxy.key_eq ?_)
    have hsubstitutes := hrel x.1
    have hkey := hxy.key_eq
    dsimp only
    rw [linkedProperty_eq, linkedProperty_eq, ← hkey]
    rcases hxy.eq_or with rfl | ⟨hinput, -, hholding⟩
    · generalize substitute? true inputs x.1 = first at hsubstitutes ⊢
      generalize substitute? true others x.1 = second at hsubstitutes ⊢
      cases hsubstitutes with
      | none => rfl
      | some hsame =>
        dsimp only
        unfold InputVariable.interpolation
        rw [hsame.2]
    · have hfound := hsome x List.mem_cons_self hinput
      generalize substitute? true inputs x.1 = first at hsubstitutes hfound ⊢
      generalize substitute? true others x.1 = second at hsubstitutes ⊢
      cases hsubstitutes with
      | none => cases hfound
      | some hsame =>
        dsimp only
        rw [hholding]
        unfold InputVariable.interpolation
        rw [hsame.2]

end Properties

/-! ### Values of variables -/

/-- The attribute of a primitive value depends on its class alone. -/
theorem valueKey?_of_isPrimitive {value other : Json} (h : isPrimitive value = true)
    (hother : isPrimitive other = true) (hclass : inferType value = inferType other) :
    valueKey? value = valueKey? other := by
  cases value <;> cases other <;> simp_all [isPrimitive, inferType, valueKey?]

/-- **What is written in place of a value** does not depend on what is taken from outside. -/
theorem valueLine?_eq_of_inputs {a b : Members} (h : Members.SameBut "value" a b)
    (ha : valueInputs a "" ≠ []) (hb : valueInputs b "" ≠ [])
    (hclass : inferType (a.get "value") = inferType (b.get "value")) (dataType resource : String) :
    valueLine? true dataType (a.get "value") (valueInputs a resource) =
      valueLine? true dataType (b.get "value") (valueInputs b resource) := by
  obtain ⟨hprimitive, -, v, hv, hvname, hvsecret⟩ := valueInputs_of_ne_nil ha resource
  obtain ⟨hprimitive', -, w, hw, hwname, hwsecret⟩ := valueInputs_of_ne_nil hb resource
  have hsecret : isSecretValue a = isSecretValue b := by
    unfold isSecretValue displayMember
    rw [h _ (by decide)]
  have hreference : v.reference = w.reference := by
    unfold InputVariable.reference
    rw [hvname, hwname]
  unfold valueLine?
  rw [hv, hw, valueKey?_of_isPrimitive hprimitive hprimitive' hclass]
  simp only [List.head?_cons, hreference, hvsecret, hwsecret, hsecret, if_true]

/-! ### Documents -/

theorem draftVariable_matches {context : Context} (huses : context.usesVariables = true)
    {a b : Members} (h : Members.SameBut "value" a b) (ha : valueInputs a "" ≠ [])
    (hb : valueInputs b "" ≠ []) (hclass : inferType (a.get "value") = inferType (b.get "value"))
    (answer : Request → Hcl.Expression) :
    Matches Block.SameText ((draftVariable context a).result answer)
      ((draftVariable context b).result answer) := by
  have hflow : owningFlowItems a = owningFlowItems b := by
    unfold owningFlowItems
    rw [h.inner (by decide)]
  refine .lift_bind (by rw [h.requireText (by decide) (by decide)]) fun name _ => ?_
  refine .lift_bind (by rw [h.requireText (by decide) (by decide)]) fun scope _ => ?_
  refine .lift_bind (by rw [h.requireText (by decide) (by decide)]) fun dataType _ => ?_
  refine .lift_bind (by rw [h.resourceId (by decide)]) fun id _ => ?_
  refine .lift_bind rfl fun unique _ => ?_
  refine .ok ⟨rfl, rfl, ?_⟩
  have hline := valueLine?_eq_of_inputs h ha hb hclass dataType unique
  dsimp only
  rw [huses, hline, h.flag? (by decide), h.textPair (by decide), h.numberPair (by decide),
    h.numberPair (by decide), hflow]

theorem draftConnectorInstance_matches {context : Context} (huses : context.usesVariables = true)
    {a b p q : Members} (h : Members.SameBut "properties" a b)
    (ha : a.get? "properties" = some (.obj p)) (hb : b.get? "properties" = some (.obj q))
    (hproperties : List.Forall₂ SameButInput p q) (answer : Request → Hcl.Expression) :
    Matches Block.SameText ((draftConnectorInstance {} context a).result answer)
      ((draftConnectorInstance {} context b).result answer) := by
  have hp : a.inner "properties" = p := by
    rw [Members.inner, Members.get, ha]
    rfl
  have hq : b.inner "properties" = q := by
    rw [Members.inner, Members.get, hb]
    rfl
  refine .lift_bind (by rw [h.requireText (by decide) (by decide)]) fun name _ => ?_
  refine .lift_bind (by rw [h.inner (by decide)]) fun connectorId _ => ?_
  refine .lift_bind (by rw [h.resourceId (by decide)]) fun id _ => ?_
  refine .lift_bind rfl fun unique _ => ?_
  refine .ok ⟨rfl, rfl, ?_⟩
  have hinner : List.Forall₂ SameButInput (a.inner "properties") (b.inner "properties") := by
    rw [hp, hq]
    exact hproperties
  have hlinked := linkedProperties_eq_of_inputs hinner unique
  have hempty : (a.inner "properties").isEmpty = (b.inner "properties").isEmpty := by
    rw [hp, hq]
    cases hproperties <;> rfl
  dsimp only
  rw [huses, hlinked, hempty]

/-- Documents that differ in such values have the same blocks. -/
theorem Kind.SameButInputs.resembles {settings : ExportSettings}
    (huses : settings.usesVariables = true) {kind : Kind} {a b : Members}
    (h : kind.SameButInputs a b) : kind.Resembles settings Block.SameText a b := by
  cases h with
  | same => exact (Kind.Alike.refl kind a).resembles Block.SameText.refl
  | value h ha hb hclass =>
    refine ⟨h.resourceId (by decide), ?_, ?_, ?_, fun _ => rfl, fun intake => ?_⟩
    · show Except.ok (sanitizeComposite [a.text "name", a.text "context"]) = _
      rw [h.text (by decide), h.text (by decide)]
      rfl
    · unfold ownerOf?
      dsimp only
      rw [h.inner (by decide)]
    · intro source hkind
      unfold parseReferences
      rw [hkind]
      rfl
    · exact draftVariable_matches huses h ha hb hclass _
  | properties h ha hb hproperties =>
    have hidentity : resourceId .connectorInstance a = resourceId .connectorInstance b :=
      h.resourceId (by decide)
    refine ⟨hidentity, ?_, rfl, ?_, fun _ => rfl, fun intake => ?_⟩
    · show labelOf .connectorInstance a = labelOf .connectorInstance b
      unfold labelOf
      rw [h.text (by decide), hidentity]
    · intro source hkind
      unfold parseReferences
      rw [hkind]
      rfl
    · exact draftConnectorInstance_matches huses h ha hb hproperties _

/-- **Values that are taken from outside stay out of the resources.** Where variables are asked for,
take batches that differ in values only which are taken from outside of both, those of variables
within their class. Their exports both come to an end or both do not; and then the resources, the
whole configuration and the imports are the same. -/
theorem Batch.texts_eq_of_inputs {settings : ExportSettings} (huses : settings.usesVariables = true)
    {batch other : Batch} (h : batch.SameButInputs other) :
    (runExport .standard settings batch).toOption.map ExportResult.texts =
      (runExport .standard settings other).toOption.map ExportResult.texts := by
  have hresembles : batch.Resembles settings Block.SameText other :=
    fun kind => (h kind).imp fun _ _ hab => hab.resembles huses
  exact hresembles.toOption_map_eq (fun _ _ hsame => hsame.2.1)
    fun _ _ hresults => hresults.texts_eq fun _ _ hsame => hsame.2.2

/-- A connector instance with a token and a variable, and values for them. -/
def tokenAndVariable (token value : String) : Batch where
  documents :=
    [(.variable, [("id", .str "v"), ("name", .str "pin"), ("context", .str "company"),
      ("dataType", .str "string"), ("value", .str value)]),
     (.connectorInstance, [("id", .str "i"), ("name", .str "Api"),
      ("connector", .obj [("id", .str "http")]),
      ("properties", .obj [("token", .obj [("type", .str "string"), ("value", .str token)])])])]

/-- Settings that ask for variables. -/
def ExportSettings.variables : ExportSettings :=
  { ExportSettings.plain with usesVariables := true }

theorem Batch.texts_eq_of_inputs_tokenAndVariable :
    ExportSettings.variables.usesVariables = true ∧
    (tokenAndVariable "a" "1").SameButInputs (tokenAndVariable "b" "2") ∧
    (runExport .standard .variables (tokenAndVariable "a" "1")).toOption.isSome = true ∧
    (runExport .standard .variables (tokenAndVariable "a" "1")).toOption.map ExportResult.texts =
      (runExport .standard .variables (tokenAndVariable "b" "2")).toOption.map
        ExportResult.texts := by
  have hsame : (tokenAndVariable "a" "1").SameButInputs (tokenAndVariable "b" "2") := by
    intro kind
    match kind with
    | .variable =>
      refine .cons (.value ?_ (by decide +kernel) (by decide +kernel) rfl) .nil
      intro other hother
      simp [Members.get?_cons, hother]
    | .connectorInstance =>
      refine .cons (.properties ?_ rfl rfl (.cons (.container "token" ?_ ?_ ?_) .nil)) .nil
      · intro other hother
        simp [Members.get?_cons, hother]
      · intro other hother
        simp [Members.get?_cons, hother]
      · decide +kernel
      · decide +kernel
    | .flow | .application | .flowPolicy => exact .nil
  have hends : (runExport .standard .variables (tokenAndVariable "a" "1")).toOption.isSome =
      true := by
    decide +kernel
  exact ⟨rfl, hsame, hends, Batch.texts_eq_of_inputs rfl hsame⟩

end HclExport
