import HclExport.Conversion.Registry
import HclExport.Graph.Reference
import HclExport.Proofs.Conversion.Block
import HclExport.Proofs.Document.Path
import HclExport.Proofs.Hcl.Same

/-!
# The order of members in documents

Documents are read by the names of their members, so a document and its sorted form read the same.
The properties of a connector instance and the values of variables are written as arguments of
`jsonencode`, where members stand in the order of their names. Lists for OAuth are written as lists
of texts, and there an array or an object is put into words as it stands; so they are taken to hold
scalars only.

## Main definitions

* `Json.HoldsScalars` — an array has neither arrays nor objects inside.

## Main results

* `parseReferences_sorted` — the references of a document.
* `connectorInputs_sorted`, `valueInputs_sorted` — the values that are taken from outside.
* `draftVariable_sorted`, `draftConnectorInstance_sorted`, `draftApplication_sorted`,
  `draftFlowPolicy_sorted` — **the blocks of a document and of its sorted form.**
-/

namespace HclExport

open Hcl (Item Value)

section Reading

variable (document : Members) (key name : String)

@[simp] theorem textPair_sorted :
    textPair document.sorted key name = textPair document key name := by
  simp [textPair]

@[simp] theorem flagPair_sorted :
    flagPair document.sorted key name = flagPair document key name := by
  simp [flagPair]

@[simp] theorem numberPair_sorted :
    numberPair document.sorted key name = numberPair document key name := by
  simp [numberPair]

@[simp] theorem integerPair_sorted :
    integerPair document.sorted key name = integerPair document key name := by
  simp [integerPair]

@[simp] theorem requireText_sorted (kind : Kind) (label : String) :
    requireText kind document.sorted key label = requireText kind document key label := by
  simp [requireText, requiredFault]

@[simp] theorem resourceId_sorted (kind : Kind) :
    resourceId kind document.sorted = resourceId kind document := by
  simp [resourceId]

@[simp] theorem labelOf_sorted (kind : Kind) :
    labelOf kind document.sorted = labelOf kind document := by
  simp [labelOf]

@[simp] theorem listedObjects_sorted (value : Json) :
    listedObjects value.sorted = (listedObjects value).map (List.map Members.sorted) := by
  cases value with
  | arr items =>
    rw [Json.sorted_arr, listedObjects, listedObjects, Json.filterMap_members?_sorted]
    rfl
  | obj members => rfl
  | str s => rfl
  | _ =>
    simp only [listedObjects, Json.sorted_null, Json.sorted_bool, Json.sorted_num]
    split
    · rfl
    · rfl

@[simp] theorem timePair_sorted : timePair document.sorted = timePair document := by
  unfold timePair
  rw [Members.get_sorted, integerPair_sorted]
  cases document.get "time" <;> simp

@[simp] theorem authenticationItems_sorted :
    authenticationItems document.sorted key = authenticationItems document key := by
  simp [authenticationItems]

@[simp] theorem triggerItem_sorted : triggerItem document.sorted = triggerItem document := by
  simp [triggerItem]

end Reading

/-! ### References -/

theorem Segment.enter_sorted (segment : Segment) (value : Json) :
    segment.enter value.sorted = (segment.enter value).map Json.sorted := by
  cases value with
  | obj members =>
    cases segment with
    | member key =>
      simp only [Json.sorted_obj, enter, Members.get_sorted]
      cases Members.get members key <;> simp
    | items key =>
      simp only [Json.sorted_obj, enter, Members.get_sorted]
      cases Members.get members key <;> simp
  | _ => cases segment <;> simp [enter]

theorem Segment.reach_sorted (segments : List Segment) (value : Json) :
    reach segments value.sorted = (reach segments value).map Json.sorted := by
  induction segments generalizing value with
  | nil => rfl
  | cons segment rest ih =>
    rw [reach, reach, enter_sorted, List.flatMap_map, List.map_flatMap]
    exact List.flatMap_congr fun found _ => ih found

@[simp] theorem extractTexts_sorted (value : Json) (path : String) :
    extractTexts value.sorted path = extractTexts value path := by
  rw [extractTexts_eq, extractTexts_eq, Segment.reach_sorted, List.filterMap_map]
  refine List.filterMap_congr fun found _ => ?_
  cases found <;> simp [givenText?]

/-- The references of a document do not depend on the order of its members. -/
theorem parseReferences_sorted (source : Resource) (document : Members) :
    parseReferences source (.obj document.sorted) = parseReferences source (.obj document) := by
  unfold parseReferences
  induction source.ref.kind.schema with
  | nil => rfl
  | cons path rest ih =>
    have hpath : parsePath source (.obj document.sorted) path =
        parsePath source (.obj document) path := by
      unfold parsePath
      rw [← Json.sorted_obj, extractTexts_sorted]
    rw [parsePaths, parsePaths, hpath, ih]

/-! ### Values that are taken from outside -/

/-- A text of a document inside a message. -/
theorem displayMember_sorted {document : Members} {key : String} (h : document.text key ≠ "") :
    displayMember document.sorted key = displayMember document key := by
  have hsorted : document.sorted.text key ≠ "" := by rwa [Members.text_sorted]
  rw [displayMember_of_text h, displayMember_of_text hsorted, Members.text_sorted]

theorem documentId_sorted {document : Members} (h : document.text "id" ≠ "") :
    documentId document.sorted = documentId document := by
  unfold documentId
  rw [Members.get?_sorted, Members.get?_eq_of_text h]
  rfl

@[simp] theorem isMasked_sorted (value : Json) : isMasked value.sorted = isMasked value := by
  cases value <;> simp [isMasked]

@[simp] theorem isPrimitive_sorted (value : Json) :
    isPrimitive value.sorted = isPrimitive value := by
  cases value <;> simp [isPrimitive]

@[simp] theorem isNamed_sorted (value : Json) : isNamed value.sorted = isNamed value := by
  cases value <;> simp [isNamed]

@[simp] theorem inferType_sorted (value : Json) : inferType value.sorted = inferType value := by
  cases value <;> simp [inferType]

/-- A primitive value has no members to be put in order. -/
theorem sorted_of_isPrimitive {value : Json} (h : isPrimitive value = true) :
    value.sorted = value := by
  cases value with
  | arr items => cases h
  | obj members => cases h
  | _ => rfl

@[simp] theorem hasTypedValue_sorted (property : Json) :
    hasTypedValue property.sorted = hasTypedValue property := by
  cases property with
  | obj members =>
    simp only [Json.sorted_obj, hasTypedValue, Members.get?_sorted, Members.get_sorted,
      isNamed_sorted]
    cases Members.get? members "value" <;> simp
  | _ => simp [hasTypedValue]

theorem propertyValue?_sorted (property : Json) :
    propertyValue? property.sorted = (propertyValue? property).map Json.sorted := by
  unfold propertyValue?
  rw [hasTypedValue_sorted, isMasked_sorted]
  split
  · cases property <;> simp
  · split
    · rfl
    · rfl

/-- The input of a property. -/
theorem connectorInput?_sorted (rules : PropertyRules) {document : Members}
    (hname : document.text "name" ≠ "") (hid : document.text "id" ≠ "") (resource : String)
    (property : String × Json) :
    connectorInput? rules document.sorted resource (property.1, property.2.sorted) =
      connectorInput? rules document resource property := by
  unfold connectorInput?
  rw [propertyValue?_sorted, displayMember_sorted hname, documentId_sorted hid]
  cases propertyValue? property.2 with
  | none => rfl
  | some value =>
    simp only [Option.map_some, Option.bind_eq_bind, Option.bind_some, isMasked_sorted,
      isPrimitive_sorted, inferType_sorted]
    split
    · rfl
    · split
      · rfl
      next hprimitive => rw [sorted_of_isPrimitive (by simpa using hprimitive)]

/-- The inputs of the properties of a connector instance. -/
theorem connectorInputs_sorted (rules : PropertyRules) {document : Members}
    (hname : document.text "name" ≠ "") (hid : document.text "id" ≠ "") (resource : String) :
    connectorInputs rules document.sorted resource = connectorInputs rules document resource := by
  unfold connectorInputs
  rw [Members.inner_sorted, Members.sortOn_sorted, List.filterMap_map]
  exact List.filterMap_congr fun property _ =>
    connectorInput?_sorted rules hname hid resource property

/-- The input of the value of a variable. -/
theorem valueInputs_sorted {document : Members} (hname : document.text "name" ≠ "")
    (hid : document.text "id" ≠ "") (htype : document.text "dataType" ≠ "") (resource : String) :
    valueInputs document.sorted resource = valueInputs document resource := by
  unfold valueInputs isSecretValue
  rw [Members.get_sorted, displayMember_sorted hname, displayMember_sorted htype,
    documentId_sorted hid]
  simp only [isPrimitive_sorted, isMasked_sorted, inferType_sorted]
  split
  next h => rw [sorted_of_isPrimitive (Bool.and_eq_true_iff.1 h).1]
  next => rfl

/-! ### Variables -/

@[simp] theorem valueKey?_sorted (value : Json) : valueKey? value.sorted = valueKey? value := by
  cases value <;> simp [valueKey?]

@[simp] theorem valueText_sorted (value : Json) : valueText value.sorted = valueText value := by
  have hencoded := (Value.same_ofJson_sorted value).jsonText_eq 4
  cases value with
  | arr items => exact congrArg (fun text => "jsonencode(" ++ text ++ ")") hencoded
  | obj members => exact congrArg (fun text => "jsonencode(" ++ text ++ ")") hencoded
  | _ => rfl

theorem valueLine?_sorted (usesVariables : Bool) (dataType : String) (value : Json)
    (inputs : List InputVariable) :
    valueLine? usesVariables dataType value.sorted inputs =
      valueLine? usesVariables dataType value inputs := by
  simp [valueLine?]

theorem Draft.lift_bind_congr {α β : Type} {result : Except Failure α} {f g : α → Draft β}
    (h : ∀ a, result = .ok a → f a = g a) :
    (liftM result >>= f : Draft β) = liftM result >>= g := by
  cases result with
  | error failure => rfl
  | ok a => exact h a rfl

/-- The block of a variable. -/
theorem draftVariable_sorted (context : Context) (document : Members) :
    draftVariable context document.sorted = draftVariable context document := by
  unfold draftVariable
  simp only [requireText_sorted, resourceId_sorted]
  refine Draft.lift_bind_congr fun name hname => Draft.lift_bind_congr fun scope _ => ?_
  refine Draft.lift_bind_congr fun dataType htype => Draft.lift_bind_congr fun id hid => ?_
  refine Draft.lift_bind_congr fun unique _ => ?_
  have hinputs := valueInputs_sorted (text_ne_of_requireText hname)
    (text_id_ne_of_resourceId rfl hid) (text_ne_of_requireText htype) unique
  have hflow : owningFlowItems document.sorted = owningFlowItems document := by
    simp [owningFlowItems]
  simp only [hinputs, hflow, Members.get_sorted, valueLine?_sorted, Members.flag?_sorted,
    textPair_sorted, numberPair_sorted]

/-! ### Connector instances -/

theorem same_linkedProperty_sorted (substitute : Option InputVariable) (property : Json) :
    (linkedProperty substitute property.sorted).Same (linkedProperty substitute property) := by
  unfold linkedProperty
  rw [hasTypedValue_sorted]
  split
  next h =>
    cases property with
    | obj members =>
      have htype : (if isNamed (Members.get members "type").sorted then
            [("type", (Members.get members "type").sorted)] else []) =
          if isNamed (Members.get members "type") then
            [("type", Members.get members "type")] else [] := by
        cases Members.get members "type" <;> simp [isNamed]
      simp only [Json.sorted_obj, Json.members?, Option.getD_some, Members.get_sorted, htype]
      refine .object_append ?_ "value" _
      cases substitute with
      | some input => exact .refl _
      | none => exact Value.same_ofJson_sorted _
    | _ => cases h
  next =>
    cases substitute with
    | some input => exact .refl _
    | none => exact Value.same_ofJson_sorted property

/-- The properties of a connector instance with variables in them. -/
theorem same_linkedProperties_sorted (usesVariables : Bool) (inputs : List InputVariable)
    (properties : Members) :
    (linkedProperties usesVariables inputs properties.sorted).Same
      (linkedProperties usesVariables inputs properties) :=
  Value.same_object_sorted
    (f := fun key property => linkedProperty (substitute? usesVariables inputs key) property)
    fun _ _ => same_linkedProperty_sorted _ _

theorem renderAll_linkedProperties_sorted (header : String) (start : List Item)
    (usesVariables : Bool) (inputs : List InputVariable) (properties : Members) :
    Item.renderAll [.braced header (start ++
        [.blank, .json "properties" (linkedProperties usesVariables inputs properties.sorted)])] =
      Item.renderAll [.braced header (start ++
        [.blank, .json "properties" (linkedProperties usesVariables inputs properties)])] := by
  refine (Item.Same.block header _ _ (.append (.refl start) (.cons .blank ?_))).renderAll_eq
  exact .json _ (same_linkedProperties_sorted usesVariables inputs properties)

/-- The block of a connector instance. -/
theorem draftConnectorInstance_sorted (rules : PropertyRules) (context : Context)
    (document : Members) :
    draftConnectorInstance rules context document.sorted =
      draftConnectorInstance rules context document := by
  unfold draftConnectorInstance
  simp only [requireText_sorted, resourceId_sorted, Members.inner_sorted]
  refine Draft.lift_bind_congr fun name hname => Draft.lift_bind_congr fun connectorId _ => ?_
  refine Draft.lift_bind_congr fun id hid => Draft.lift_bind_congr fun unique _ => ?_
  have hinputs := connectorInputs_sorted rules (text_ne_of_requireText hname)
    (text_id_ne_of_resourceId rfl hid) unique
  simp only [hinputs, Members.isEmpty_sorted]
  split
  · rfl
  · rw [renderAll_linkedProperties_sorted]

/-! ### Applications -/

/-- An array, if the value is one, has neither arrays nor objects inside. -/
def Json.HoldsScalars (value : Json) : Prop :=
  ∀ item ∈ value.items?.getD [], isListable item = true

instance (value : Json) : Decidable value.HoldsScalars :=
  inferInstanceAs (Decidable (∀ item ∈ value.items?.getD [], isListable item = true))

theorem sorted_of_isListable {value : Json} (h : isListable value = true) :
    value.sorted = value := by
  cases value with
  | arr items => cases h
  | obj members => cases h
  | _ => rfl

@[simp] theorem isListable_sorted (value : Json) : isListable value.sorted = isListable value := by
  cases value <;> simp [isListable]

/-- Whether an array holds scalars does not depend on the order of members. -/
theorem Json.holdsScalars_sorted_iff (value : Json) :
    value.sorted.HoldsScalars ↔ value.HoldsScalars := by
  unfold HoldsScalars
  rw [items?_sorted]
  cases value.items? with
  | none => simp
  | some items => simp

theorem map_sorted_of_holdsScalars {items : List Json} (h : (Json.arr items).HoldsScalars) :
    items.map Json.sorted = items :=
  (List.map_congr_left fun item hitem => sorted_of_isListable (h item hitem)).trans (List.map_id _)

theorem listPair_sorted {oauth : Members} {key : String} (h : (oauth.get key).HoldsScalars)
    (name : String) : listPair oauth.sorted key name = listPair oauth key name := by
  unfold listPair
  rw [Members.get_sorted]
  cases hvalue : Members.get oauth key with
  | arr items =>
    rw [hvalue] at h
    rw [Json.sorted_arr, map_sorted_of_holdsScalars h]
  | _ => rfl

theorem listPairs_sorted {oauth : Members}
    (h : ∀ list ∈ oauthLists, (oauth.get list.1).HoldsScalars) :
    (oauthLists.flatMap fun (key, name) => listPair oauth.sorted key name) =
      oauthLists.flatMap fun (key, name) => listPair oauth key name :=
  List.flatMap_congr fun list hlist => listPair_sorted (h list hlist) list.2

theorem oauthPairs_sorted {oauth : Members}
    (h : ∀ list ∈ oauthLists, (oauth.get list.1).HoldsScalars) :
    oauthPairs oauth.sorted = oauthPairs oauth := by
  unfold oauthPairs
  rw [listPairs_sorted h, flagPair_sorted, textPair_sorted, textPair_sorted]

theorem objectItems_sorted {document : Members} {key : String} {body : Members → List Item}
    (h : body (document.inner key).sorted = body (document.inner key)) (name : String) :
    objectItems document.sorted key name body = objectItems document key name body := by
  unfold objectItems
  unfold Members.inner at h
  rw [Members.get_sorted]
  cases hvalue : Members.get document key with
  | obj members =>
    rw [hvalue] at h
    rw [Json.sorted_obj]
    exact congrArg (fun items => [Item.blank, .object name items]) h
  | _ => rfl

/-- The block of an application whose lists hold scalars. -/
theorem draftApplication_sorted (context : Context) {document : Members}
    (h : ∀ list ∈ oauthLists, ((document.inner "oauth").get list.1).HoldsScalars) :
    draftApplication context document.sorted = draftApplication context document := by
  unfold draftApplication
  simp only [requireText_sorted, resourceId_sorted]
  rw [objectItems_sorted (by rw [flagPair_sorted]),
    objectItems_sorted (by rw [oauthPairs_sorted h])]

/-! ### Flow policies -/

theorem distributionItem_sorted (source : Resource) (distribution : Members) :
    distributionItem source distribution.sorted = distributionItem source distribution := by
  simp [distributionItem]

theorem distributionItems_sorted (source : Resource) (document : Members) :
    distributionItems source document.sorted = distributionItems source document := by
  unfold distributionItems
  rw [Members.get_sorted, listedObjects_sorted]
  cases listedObjects (document.get "flowDistributions") with
  | error failure => rfl
  | ok distributions =>
    show (if (distributions.map Members.sorted).isEmpty then _ else _) =
      if distributions.isEmpty then _ else _
    rw [List.isEmpty_map, List.mapM_map]
    rw [show distributionItem source ∘ Members.sorted = distributionItem source from
      funext (distributionItem_sorted source)]

@[simp] theorem owningApplication_sorted (context : Context) (document : Members) :
    owningApplication context document.sorted = owningApplication context document := by
  simp [owningApplication]

/-- The block of a flow policy. -/
theorem draftFlowPolicy_sorted (context : Context) (document : Members) :
    draftFlowPolicy context document.sorted = draftFlowPolicy context document := by
  have htrigger : policyTrigger document.sorted = policyTrigger document := by
    simp [policyTrigger]
  unfold draftFlowPolicy
  simp only [requireText_sorted, resourceId_sorted, owningApplication_sorted, htrigger,
    distributionItems_sorted, textPair_sorted]

end HclExport
