import HclExport.Proofs.Conversion.Substitution
import HclExport.Proofs.Conversion.Tidy

/-!
# Blocks are tidy

The block of a document is made of resources with tidy bodies whatever the document holds, with
three exceptions that are left to whoever uses these results: how references are written, the
remark on the data type of a variable without a value, and the names of properties that are taken
from outside.

## Main definitions

* `Graph.HasWords` — the resources of a graph are named by words.
* `Block.IsTidy` — a block that is made of resources with tidy bodies.
* `InputVariable.Quotable`, `Block.Quotable` — names of inputs that do not end a literal.

## Main results

* `tidies_diagramItems` — the diagram of a flow.
* `Block.IsTidy.neutral` — a tidy block is neutral.
* `tidies_draftFlow`, `tidies_draftFlowPolicy`, `tidies_draftApplication` — blocks that are tidy
  if their references are.
* `tidies_draftVariable`, `tidies_draftConnectorInstance` — blocks that are tidy under a
  condition on the document.
-/

namespace HclExport

open Hcl (Item Value Neutral IsLine TidyPairs)

/-! ### Diagrams -/

theorem tidy_positionItem {name : String} (hname : IsWord name) (position : Members) :
    (positionItem name position).Tidy :=
  tidy_object (Hcl.neutral_of_isWord hname) (tidyItems_assign (tidyPairs_append
    (tidyPairs_numberPair _ _ (by decide)) (tidyPairs_numberPair _ _ (by decide))))

theorem tidyItems_elementItems (element : Members) : TidyItems (elementItems element) := by
  unfold elementItems
  refine TidyItems.append ?_ (tidyItems_singleton (.assignAll ?_))
  · split
    · exact tidyItems_singleton (tidy_positionItem (by decide) _)
    · exact tidyItems_nil
  · have hflags : ∀ flag ∈ elementFlags, IsWord flag := by decide
    exact tidyPairs_append (tidyPairs_append (tidyPairs_textPair _ _ (by decide))
      (tidyPairs_flatMap fun flag hflag => tidyPairs_flagPair _ _ (hflags flag hflag)))
      (tidyPairs_singleton (by decide) (Hcl.neutral_quote _))

theorem tidy_edgeItem (index : Nat) (edge : Members) : (edgeItem index edge).Tidy := by
  have hkeys : ∀ key ∈ ["id", "source", "target"], IsWord key := by decide
  refine tidy_object (Hcl.neutral_quote _) (TidyItems.append ?_ (tidyItems_elementItems edge))
  split
  · exact tidyItems_nil
  · exact tidyItems_singleton (tidy_object (Hcl.neutral_of_isWord (by decide)) (tidyItems_singleton
      (.assignAll (tidyPairs_flatMap fun key hkey => tidyPairs_textPair _ _ (hkeys key hkey)))))

theorem tidy_edgesItem (edges : List Members) : (edgesItem edges).Tidy := by
  unfold edgesItem
  split
  · exact tidy_assign (by decide) (by simpa using Hcl.encloses_braces "" Hcl.neutral_empty)
  · refine tidy_object (Hcl.neutral_of_isWord (by decide)) fun item hitem => ?_
    obtain ⟨index, hindex, rfl⟩ := List.mem_mapIdx.1 hitem
    exact tidy_edgeItem _ _

theorem yields_viewItems (diagram : Members) : Yields (viewItems diagram) TidyItems := by
  have hflags : ∀ flag ∈ diagramFlags, IsWord flag.2 := by decide
  unfold viewItems
  refine (yields_integerPair _ _ (by decide)).bind fun zoom hzoom => .ok ?_
  split
  · exact tidyItems_nil
  · refine TidyItems.behindBlank (tidyItems_singleton (.assignAll ?_))
    exact tidyPairs_append (tidyPairs_append (tidyPairs_append hzoom
      (tidyPairs_numberPair _ _ (by decide))) (tidyPairs_numberPair _ _ (by decide)))
      (tidyPairs_flatMap fun flag hflag => tidyPairs_flagPair _ _ (hflags flag hflag))

theorem tidyItems_encodedItems (diagram : Members) {key : String} (hkey : IsWord key) :
    TidyItems (encodedItems diagram key) := by
  unfold encodedItems
  split
  · exact tidyItems_singleton (.json (Hcl.neutral_of_isWord hkey)
      (Value.neutral_jsonText_object (Value.tidy_ofMembers _)))
  · exact tidyItems_nil

section References

variable {answer : Request → Hcl.Expression} (source : Resource)

open Draft (Tidies)

theorem tidies_referencePair (field : String) {name : String} (hname : IsWord name) (id : String) :
    Tidies answer (referencePair source field name id) TidyPairs := by
  unfold referencePair
  split
  · exact .pure tidyPairs_nil
  · exact (Tidies.ask _).bind fun reference h =>
      .pure (List.forall_mem_singleton.2 ⟨Hcl.neutral_of_isWord hname, h.isLine_render⟩)

theorem tidies_propertyReferences (properties : Members) (references : List (String × String)) :
    Tidies answer (propertyReferences source properties references)
      fun found => ∀ reference ∈ found, reference.2.Tidy := by
  induction references with
  | nil => exact .pure (by simp)
  | cons reference rest ih =>
    unfold propertyReferences
    dsimp only
    split
    · exact ih
    · exact (Tidies.ask _).bind fun reference h => ih.bind fun more hmore =>
        .pure (List.forall_mem_cons.2 ⟨h, hmore⟩)

theorem tidies_nodePropertyItems (data : Members) :
    Tidies answer (nodePropertyItems source data) TidyItems := by
  unfold nodePropertyItems
  split
  next properties _ =>
    refine (tidies_propertyReferences source properties _).bind fun references hreferences => ?_
    refine .pure (tidyItems_singleton (.json (Hcl.neutral_of_isWord (by decide))
      (Value.neutral_jsonText_object (List.forall_mem_map.2 fun property _ => ?_))))
    dsimp only
    split
    next reference hreference =>
      obtain ⟨before, after, rfl, -⟩ := List.lookup_eq_some_iff.1 hreference
      exact .expr (hreferences (property.1, reference) (by simp))
    next => exact Value.tidy_ofJson _
  next => exact .pure tidyItems_nil

theorem tidies_nodeDataItem (data : Members) :
    Tidies answer (nodeDataItem source data) Item.Tidy := by
  have htexts : ∀ {pairs : List (String × String)}, (∀ pair ∈ pairs, IsWord pair.2) →
      TidyPairs (pairs.flatMap fun pair => textPair data pair.1 pair.2) :=
    fun h => tidyPairs_flatMap fun pair hpair => tidyPairs_textPair _ _ (h pair hpair)
  refine (tidies_referencePair source _ (by decide) _).bind fun connection hconnection =>
    (tidies_nodePropertyItems source data).bind fun properties hproperties => .pure ?_
  refine tidy_object (Hcl.neutral_of_isWord (by decide)) (.cons (.assignAll ?_) hproperties)
  exact tidyPairs_append (tidyPairs_append (htexts (by decide)) hconnection) (htexts (by decide))

theorem tidies_nodeItem (index : Nat) (node : Members) :
    Tidies answer (nodeItem source index node) Item.Tidy := by
  have hitem : ∀ {items : List Item}, TidyItems items →
      (Item.object (Hcl.quote (elementKey "node" index node)) (items ++ elementItems node)).Tidy :=
    fun h => tidy_object (Hcl.neutral_quote _) (h.append (tidyItems_elementItems node))
  unfold nodeItem
  simp only [pure_bind]
  cases node.inner "data" with
  | nil => exact .pure (hitem tidyItems_nil)
  | cons member rest =>
    exact (tidies_nodeDataItem source (member :: rest)).bind fun item h =>
      .pure (hitem (tidyItems_singleton h))

theorem tidies_nodeItems (index : Nat) (nodes : List Members) :
    Tidies answer (nodeItems source index nodes) TidyItems := by
  induction nodes generalizing index with
  | nil => exact .pure tidyItems_nil
  | cons node rest ih =>
    unfold nodeItems
    exact (tidies_nodeItem source index node).bind fun item hitem =>
      (ih (index + 1)).bind fun more hmore => .pure (.cons hitem hmore)

theorem tidyItems_edgeGroup (elements : Members) :
    TidyItems (match elements.get "edges" with
      | .arr items => [edgesItem (sortElements items)]
      | _ => []) := by
  split
  · exact tidyItems_singleton (tidy_edgesItem _)
  · exact tidyItems_nil

theorem tidies_elementGroups (elements : Members) :
    Tidies answer (elementGroups source elements) TidyItems := by
  have hedges := tidyItems_edgeGroup elements
  unfold elementGroups
  simp only [pure_bind]
  cases elements.get "nodes" with
  | arr items =>
    have hname : Neutral "nodes" := Hcl.neutral_of_isWord (by decide)
    exact (tidies_nodeItems source 0 _).bind fun nodes hnodes =>
      .pure ((tidyItems_singleton (tidy_object hname hnodes)).append hedges)
  | _ => exact .pure hedges

theorem tidyItems_panItems (diagram : Members) :
    TidyItems (match diagram.get "pan" with
      | .obj members => [Item.blank, positionItem "pan" members]
      | _ => []) := by
  split
  · exact TidyItems.behindBlank (tidyItems_singleton (tidy_positionItem (by decide) _))
  · exact tidyItems_nil

theorem tidyItems_rendererItems (diagram : Members) :
    TidyItems (match encodedItems diagram "renderer" with
      | [] => []
      | items => Item.blank :: items) := by
  have hencoded : TidyItems (encodedItems diagram "renderer") :=
    tidyItems_encodedItems diagram (by decide)
  split
  · exact tidyItems_nil
  · exact TidyItems.behindBlank hencoded

theorem tidies_diagramBody (diagram : Members) :
    Tidies answer (diagramBody source diagram) TidyItems := by
  have hpan := tidyItems_panItems diagram
  have hrenderer := tidyItems_rendererItems diagram
  have hdata : TidyItems (encodedItems diagram "data") :=
    tidyItems_encodedItems diagram (by decide)
  have hname : Neutral "elements" := Hcl.neutral_of_isWord (by decide)
  unfold diagramBody
  simp only [pure_bind]
  cases diagram.get "elements" with
  | obj elements =>
    exact (tidies_elementGroups source elements).bind fun groups hgroups =>
      (Tidies.lift (yields_viewItems diagram)).bind fun view hview =>
        .pure ((((hdata.append (tidyItems_singleton (tidy_object hname hgroups))).append
          hpan).append hview).append hrenderer)
  | _ =>
    exact (Tidies.lift (yields_viewItems diagram)).bind fun view hview =>
      .pure ((((hdata.append tidyItems_nil).append hpan).append hview).append hrenderer)

theorem tidies_diagramItems (document : Members) :
    Tidies answer (diagramItems source document) TidyItems := by
  unfold diagramItems
  split
  · exact (tidies_diagramBody source _).bind fun body hbody => .pure (TidyItems.behindBlank
      (tidyItems_singleton (tidy_object (Hcl.neutral_of_isWord (by decide)) hbody)))
  · exact .pure tidyItems_nil

end References

/-! ### Whole blocks -/

/-- The resources of a graph are named by words. -/
def Graph.HasWords (g : Graph) : Prop :=
  ∀ r ∈ g.resources, IsWord r.name

theorem Graph.HasWords.lookup {g : Graph} (h : g.HasWords) {ref : Ref} {name : String}
    (hname : orFail (g.lookup ref) = .ok name) : IsWord name := by
  obtain ⟨r, hr, rfl⟩ := Graph.lookup_eq_ok_iff.1 (orFail_eq_ok_iff.1 hname)
  exact h r (Graph.mem_of_find? hr)

theorem neutral_environment (context : Context) : Neutral context.environment := by
  unfold Context.environment
  split
  · exact Hcl.neutral_quoteValue _
  · exact Hcl.neutral_of_isWord (by decide)

theorem neutral_resourceHeader {type name : String} (htype : IsWord type) (hname : IsWord name) :
    Neutral (Hcl.resourceHeader type name) := by
  rw [Hcl.resourceHeader_eq]
  exact (((Hcl.neutral_of_inert (by decide)).append (Hcl.neutral_quotedWord htype)).append
    (Hcl.neutral_of_inert (by decide))).append (Hcl.neutral_quotedWord hname)

/-- A resource with a tidy body. -/
theorem tidy_resource {type name : String} (htype : IsWord type) (hname : IsWord name)
    {body : List Item} (hbody : TidyItems body) :
    (Item.braced (Hcl.resourceHeader type name) body).Tidy :=
  tidy_braced (neutral_resourceHeader htype hname) hbody

/-- The types of resources that a kind writes are words. -/
theorem Kind.isWord_of_mem_types {kind : Kind} {type : String} (h : type ∈ kind.converter.types) :
    IsWord type := by
  have hall : ∀ type ∈ kind.converter.types, IsWord type := by
    cases kind <;> decide
  exact hall type h

/-- A block that is made of resources with tidy bodies. -/
def Block.IsTidy (block : Block) : Prop :=
  ∃ parts, block.IsMadeOf parts ∧ ∀ part ∈ parts, TidyItems part.2

/-- A single resource with a tidy body. -/
theorem Block.isTidy_of_single {block : Block} {type : String} {body : List Item}
    (htypes : block.ref.kind.converter.types = [type])
    (hhcl : block.hcl = Item.renderAll [.braced (Hcl.resourceHeader type block.name) body])
    (hbody : TidyItems body) : block.IsTidy :=
  ⟨[(type, body)], ⟨htypes.symm, hhcl⟩, List.forall_mem_singleton.2 hbody⟩

/-- A tidy block is neutral. -/
theorem Block.IsTidy.neutral {block : Block} (h : block.IsTidy) (hname : IsWord block.name) :
    Neutral block.hcl := by
  obtain ⟨parts, hmade, htidy⟩ := h
  rw [hmade.hcl]
  refine Item.neutral_renderAll fun item hitem => ?_
  rcases Item.mem_blocks hitem with rfl | ⟨block, hblock, rfl⟩
  · exact .blank
  · obtain ⟨part, hpart, rfl⟩ := List.mem_map.1 hblock
    have htype := List.mem_map_of_mem (f := Prod.fst) hpart
    rw [hmade.types] at htype
    exact tidy_resource (Kind.isWord_of_mem_types htype) hname (htidy part hpart)

section Drafts

variable {answer : Request → Hcl.Expression} {context : Context} (document : Members)

open Draft (Tidies)

theorem tidyPairs_environment (context : Context) :
    TidyPairs [("environment_id", context.environment)] :=
  tidyPairs_singleton (by decide) (neutral_environment context)

theorem tidyItems_outputSchemaItems : TidyItems (outputSchemaItems document) := by
  unfold outputSchemaItems
  dsimp only
  split
  · exact tidyItems_nil
  · refine TidyItems.behindBlank (tidyItems_singleton
      (tidy_object (Hcl.neutral_of_isWord (by decide)) ?_))
    split
    · exact tidyItems_singleton (.json (Hcl.neutral_of_isWord (by decide))
        (Value.neutral_jsonText_ofJson _))
    · exact tidyItems_nil

theorem tidyPairs_flowPairs (name : String) : TidyPairs (flowPairs name document) := by
  unfold flowPairs
  refine tidyPairs_append (tidyPairs_append ?_ (tidyPairs_textPair _ _ (by decide))) ?_
  · exact tidyPairs_singleton (by decide) (Hcl.neutral_quote _)
  · split
    · exact tidyPairs_textPair _ _ (by decide)
    · exact tidyPairs_textPair _ _ (by decide)

theorem neutral_flowReference (context : Context) (id : String) {unique : String}
    (hunique : IsWord unique) : Neutral (flowReference context id unique) := by
  unfold flowReference
  split
  · exact Hcl.neutral_quote id
  · exact Hcl.neutral_of_isWord (isWord_attributeAddress (by decide) hunique (by decide))

theorem tidy_enableItem (context : Context) (id : String) {unique : String}
    (hunique : IsWord unique) (enabled : Option Bool) :
    (enableItem context id unique enabled).Tidy := by
  unfold enableItem
  refine tidy_resource (by decide) hunique (tidyItems_singleton (.assignAll ?_))
  refine tidyPairs_cons (by decide) (neutral_environment context) (tidyPairs_cons (by decide)
    (neutral_flowReference context id hunique) (tidyPairs_singleton (by decide) ?_))
  split
  · exact Hcl.neutral_boolText _
  · exact Hcl.neutral_of_isWord (isWord_attributeAddress (by decide) hunique (by decide))

theorem yields_flowVersion (context : Context) {unique : String} (hunique : IsWord unique) :
    Yields (flowVersion context document unique) Neutral := by
  unfold flowVersion
  split
  · exact yields_integerText _
  · exact .ok (Hcl.neutral_of_isWord (isWord_attributeAddress (by decide) hunique (by decide)))

theorem tidy_deployItem (context : Context) (id : String) {unique version : String}
    (hunique : IsWord unique) (hversion : Neutral version) :
    (deployItem context id unique version).Tidy := by
  unfold deployItem
  refine tidy_resource (by decide) hunique (.cons (.assignAll ?_) (tidyItems_singleton ?_))
  · exact tidyPairs_cons (by decide) (neutral_environment context)
      (tidyPairs_singleton (by decide) (neutral_flowReference context id hunique))
  · exact tidy_object (Hcl.neutral_of_isWord (by decide))
      (tidyItems_singleton (.assign (Hcl.neutral_quote _) hversion.isLine))

theorem tidies_draftFlow (hwords : context.graph.graph.HasWords) :
    Tidies answer (draftFlow context document) Block.IsTidy := by
  refine .lift_bind fun name _ => .lift_bind fun id _ => .lift_bind fun enabled _ =>
    .lift_bind fun unique hname => ?_
  have hunique := hwords.lookup hname
  refine (Tidies.lift (yields_settingsItems document)).bind fun settings hsettings =>
    (tidies_diagramItems _ document).bind fun diagram hdiagram =>
    (Tidies.lift (yields_inputSchemaItems document)).bind fun schema hschema =>
    (Tidies.lift (yields_flowTrigger document)).bind fun trigger htrigger =>
    (Tidies.lift (yields_flowVersion document context hunique)).bind fun version hversion =>
    .pure ⟨[(Kind.flow.type, _), (flowEnableType, _), (flowDeployType, _)], ⟨rfl, rfl⟩, ?_⟩
  refine List.forall_mem_cons.2 ⟨?_, List.forall_mem_cons.2
    ⟨(tidy_enableItem context id hunique enabled).body, List.forall_mem_singleton.2
      (tidy_deployItem context id hunique hversion).body⟩⟩
  refine (((((TidyItems.append ?_ hsettings).append hdiagram).append hschema).append
    (tidyItems_outputSchemaItems document)).append htrigger)
  exact .cons (tidy_assign (by decide) (neutral_environment context)) (TidyItems.behindBlank
    (tidyItems_singleton (.assignAll (tidyPairs_flowPairs document name))))

theorem tidies_distributionItems (source : Resource) :
    Tidies answer (distributionItems source document) TidyItems := by
  have hitem : ∀ distribution, Tidies answer (distributionItem source distribution) Item.Tidy := by
    intro distribution
    refine (tidies_referencePair source _ (by decide) _).bind fun flow hflow =>
      (Tidies.lift (yields_integerPair _ _ (by decide))).bind fun version hversion =>
      (Tidies.lift (yields_integerPair _ _ (by decide))).bind fun weight hweight => .pure ?_
    exact .block Hcl.neutral_empty Hcl.encloses_element (tidyItems_singleton
      (.assignAll (tidyPairs_append (tidyPairs_append hflow hversion) hweight)))
  unfold distributionItems
  refine .lift_bind fun distributions _ => ?_
  split
  · exact .pure tidyItems_nil
  · exact (Tidies.mapM hitem _).bind fun items hitems => .pure (TidyItems.behindBlank
      (tidyItems_singleton (.block (Hcl.neutral_of_inert (by decide)) Hcl.encloses_brackets
        hitems)))

theorem tidies_draftFlowPolicy :
    Tidies answer (draftFlowPolicy context document) Block.IsTidy := by
  refine .lift_bind fun name _ => .lift_bind fun id _ => .lift_bind fun unique _ => ?_
  refine .lift_bind fun owner _ =>
    (tidies_referencePair _ _ (by decide) _).bind fun application happlication =>
    (Tidies.lift (yields_policyTrigger document)).bind fun trigger htrigger =>
    (tidies_distributionItems document _).bind fun distributions hdistributions =>
    .pure (Block.isTidy_of_single rfl rfl
      ((TidyItems.cons (.assignAll ?_) htrigger).append hdistributions))
  exact tidyPairs_append (tidyPairs_append (tidyPairs_append (tidyPairs_environment context)
    happlication) (tidyPairs_singleton (by decide) (Hcl.neutral_quote _)))
    (tidyPairs_textPair _ _ (by decide))

/-! ### Applications -/

theorem tidyItems_objectItems (key : String) {name : String} (hname : IsWord name)
    {body : Members → List Item} (hbody : ∀ members, TidyItems (body members)) :
    TidyItems (objectItems document key name body) := by
  unfold objectItems
  split
  · exact TidyItems.behindBlank (tidyItems_singleton
      (tidy_object (Hcl.neutral_of_isWord hname) (hbody _)))
  · exact tidyItems_nil

theorem tidyPairs_listPair (settings : Members) (key : String) {name : String}
    (hname : IsWord name) : TidyPairs (listPair settings key name) := by
  unfold listPair
  split
  · split
    · exact tidyPairs_nil
    · exact tidyPairs_singleton hname (neutral_textsLiteral _)
  · exact tidyPairs_nil

theorem tidyPairs_oauthPairs (oauth : Members) : TidyPairs (oauthPairs oauth) := by
  have hlists : ∀ pair ∈ oauthLists, IsWord pair.2 := by decide
  unfold oauthPairs
  refine tidyPairs_append (tidyPairs_append (tidyPairs_append ?_
    (tidyPairs_flagPair _ _ (by decide))) (tidyPairs_textPair _ _ (by decide)))
    (tidyPairs_textPair _ _ (by decide))
  exact tidyPairs_flatMap fun pair hpair => tidyPairs_listPair _ _ (hlists pair hpair)

/-- Environment and name, with which most blocks begin. -/
theorem tidyItems_head (context : Context) (name : String) :
    TidyItems [.assign "environment_id" context.environment, .blank,
      .assign "name" (Hcl.quote name)] :=
  .cons (tidy_assign (by decide) (neutral_environment context)) (.behindBlank
    (tidyItems_singleton (tidy_assign (by decide) (Hcl.neutral_quote _))))

theorem tidies_draftApplication :
    Tidies answer (draftApplication context document) Block.IsTidy := by
  refine .lift_bind fun name _ => .lift_bind fun id _ => .lift_bind fun unique _ =>
    .pure (Block.isTidy_of_single rfl rfl ?_)
  refine ((tidyItems_head context name).append
    (tidyItems_objectItems document _ (by decide) fun key => ?_)).append
    (tidyItems_objectItems document _ (by decide) fun oauth => ?_)
  · exact tidyItems_assign (tidyPairs_flagPair _ _ (by decide))
  · exact tidyItems_singleton (.assignAll (tidyPairs_oauthPairs oauth))

/-! ### Connector instances -/

/-- The name of an input does not end the literal in which it is written. -/
def InputVariable.Quotable (input : InputVariable) : Prop :=
  ∀ c ∈ input.name.toList, c ≠ '"' ∧ c ≠ '\n'

instance (input : InputVariable) : Decidable input.Quotable :=
  decidable_of_iff (input.name.toList.all (fun c => decide (c ≠ '"' ∧ c ≠ '\n')) = true)
    (by simp only [List.all_eq_true, decide_eq_true_eq, InputVariable.Quotable])

/-- So are the names of all inputs of a block that take the place of what the document holds:
those without a value, or all of them. -/
def Block.Quotable (usesVariables : Bool) (block : Block) : Prop :=
  ∀ input ∈ block.inputs, (input.current.isNone || usesVariables) = true → input.Quotable

instance (usesVariables : Bool) (block : Block) : Decidable (block.Quotable usesVariables) :=
  inferInstanceAs (Decidable (∀ input ∈ block.inputs,
    (input.current.isNone || usesVariables) = true → input.Quotable))

theorem InputVariable.Quotable.tidy {input : InputVariable} (h : input.Quotable) :
    input.interpolation.Tidy :=
  Hcl.Expression.tidy_of_neutral (Hcl.neutral_template h)

theorem tidy_linkedValue (substitute : Option InputVariable) (value : Json) :
    (∀ input ∈ substitute, input.Quotable) →
      Value.Tidy (match substitute with
        | some input => .expr input.interpolation
        | none => .ofJson value) := by
  intro h
  split
  next input => exact .expr (h input rfl).tidy
  next => exact Value.tidy_ofJson value

theorem tidy_linkedProperty {substitute : Option InputVariable}
    (h : ∀ input ∈ substitute, input.Quotable) (property : Json) :
    (linkedProperty substitute property).Tidy := by
  unfold linkedProperty
  split
  · exact .object (List.forall_mem_append.2
      ⟨Value.tidy_ofMembers _, List.forall_mem_singleton.2 (tidy_linkedValue _ _ h)⟩)
  · exact tidy_linkedValue substitute property h

/-- The block of a connector instance is tidy if the names of the inputs that take the place of
properties can be written in literals. -/
theorem tidies_draftConnectorInstance (rules : PropertyRules) :
    Tidies answer (draftConnectorInstance rules context document) fun block =>
      block.Quotable context.usesVariables → block.IsTidy := by
  refine .lift_bind fun name _ => .lift_bind fun connectorId _ => .lift_bind fun id _ =>
    .lift_bind fun unique _ => .pure fun hinputs => Block.isTidy_of_single rfl rfl ?_
  have hconnector : TidyItems
      [.blank, .object "connector" [.assign "id" (Hcl.quote connectorId)]] :=
    TidyItems.behindBlank (tidyItems_singleton (tidy_object (Hcl.neutral_of_isWord (by decide))
      (tidyItems_singleton (tidy_assign (by decide) (Hcl.neutral_quote _)))))
  refine ((tidyItems_head context name).append hconnector).append ?_
  split
  · exact tidyItems_nil
  · refine TidyItems.behindBlank (tidyItems_singleton (.json (Hcl.neutral_of_isWord (by decide))
      (Value.neutral_jsonText_object (List.forall_mem_map.2 fun property _ => ?_))))
    refine tidy_linkedProperty (fun input hinput => ?_) _
    -- an input that takes the place of a property is one of those of the block
    obtain ⟨hfound, huse⟩ := Option.filter_eq_some_iff.1 hinput
    exact hinputs input (List.mem_of_find?_eq_some hfound) huse

/-! ### Variables -/

theorem neutral_valueText (value : Json) : Neutral (valueText value) := by
  unfold valueText
  split
  · exact Hcl.neutral_quote _
  · exact Hcl.neutral_boolText _
  · exact Hcl.neutral_numberText _
  · have hopen : "jsonencode(" = "jsonencode" ++ "(" := by decide
    have hencoded := (Hcl.neutral_of_isWord (s := "jsonencode") (by decide)).append
      (Hcl.encloses_parentheses _ (Value.neutral_jsonText_ofJson value 4))
    rw [hopen]
    simpa only [String.append_assoc] using hencoded

/-- The input that takes the place of a value is named after the variable. -/
theorem isWord_reference_valueInputs {unique : String} (hunique : IsWord unique)
    {input : InputVariable} (h : input ∈ valueInputs document unique) :
    IsWord input.reference.render := by
  have hname : input.name = valueInputName unique := by
    unfold valueInputs at h
    dsimp only at h
    split at h
    · rw [List.mem_singleton.1 h]
    · cases h
  have hword : IsWord ("var." ++ valueInputName unique) :=
    IsWord.append (by decide)
      ((IsWord.append (by decide) (isWord_stripHead hunique)).append (by decide))
  rw [input.render_reference, hname]
  exact hword

theorem neutral_reference_valueInputs {unique : String} (hunique : IsWord unique)
    {input : InputVariable} (h : input ∈ valueInputs document unique) :
    Neutral input.reference.render :=
  Hcl.neutral_of_isWord (isWord_reference_valueInputs document hunique h)

theorem isWord_valueKey {value : Json} {key : String} (h : valueKey? value = some key) :
    IsWord key := by
  unfold valueKey? at h
  split at h
  · obtain rfl := Option.some.inj h
    decide
  · obtain rfl := Option.some.inj h
    decide
  · split at h
    · cases h
    · obtain rfl := Option.some.inj h
      decide
  · split at h
    · cases h
    · obtain rfl := Option.some.inj h
      decide
  · split at h
    · cases h
    · obtain rfl := Option.some.inj h
      decide
  · cases h

theorem neutral_valueLine {usesVariables : Bool} {dataType : String} {value : Json}
    {inputs : List InputVariable} (hinputs : ∀ input ∈ inputs, Neutral input.reference.render)
    {line : String} (h : valueLine? usesVariables dataType value inputs = some line) :
    Neutral line := by
  have hequals : Neutral " = " := Hcl.neutral_of_inert (by decide)
  have hfirst : ∀ input, inputs.head? = some input → Neutral input.reference.render :=
    fun input hinput => hinputs input (List.mem_of_head? hinput)
  unfold valueLine? at h
  split at h
  · split at h
    next input hinput =>
      split at h
      · rw [← Option.some.inj h]
        exact (Hcl.neutral_of_inert (by decide)).append (hfirst input hinput)
      · cases h
    next => cases h
  · obtain ⟨key, hkey, rfl⟩ := Option.map_eq_some_iff.1 h
    have hassigned : ∀ {text : String}, Neutral text → Neutral (key ++ " = " ++ text) :=
      fun htext => ((Hcl.neutral_of_isWord (isWord_valueKey hkey)).append hequals).append htext
    split
    next input hinput =>
      split
      · exact hassigned (hfirst input hinput)
      · exact hassigned (neutral_valueText value)
    next => exact hassigned (neutral_valueText value)

/-- The remark that a value is to be added names the data type, unless the value is a secret. -/
theorem tidyItems_valueItems {dataType : String} {value : Option String}
    (hvalue : ∀ line, value = some line → Neutral line)
    (hfeed : value = none → lower dataType ≠ "secret" → '\n' ∉ dataType.toList) :
    TidyItems (valueItems dataType value) := by
  have hremark : ∀ {text : String}, text.toList.head? = some '#' → '\n' ∉ text.toList →
      (Item.line text).Tidy := fun hsign hnone => .line (Hcl.isLine_comment hsign hnone)
  unfold valueItems
  split
  next line =>
    exact tidyItems_singleton (tidy_object (Hcl.neutral_of_isWord (by decide))
      (tidyItems_singleton (.line (hvalue line rfl).isLine)))
  next =>
    split
    · exact .cons (hremark (by decide) (by decide)) (.cons (hremark (by decide) (by decide))
        (.cons (hremark (by decide) (by decide)) (tidyItems_singleton
          (hremark (by decide) (by decide)))))
    next hsecret =>
      refine .cons (hremark (by simp) ?_)
        (tidyItems_singleton (hremark (by decide) (by decide)))
      have htype := hfeed rfl hsecret
      simpa using htype

theorem tidyItems_owningFlowItems : TidyItems (owningFlowItems document) := by
  have hpair : TidyPairs (textPair (document.inner "flow") "id" "id") :=
    tidyPairs_textPair _ _ (by decide)
  unfold owningFlowItems
  split
  next key value heq =>
    rw [heq] at hpair
    obtain ⟨hkey, hvalue⟩ := List.forall_mem_singleton.1 hpair
    exact TidyItems.behindBlank (tidyItems_singleton (tidy_object
      (Hcl.neutral_of_isWord (by decide)) (tidyItems_singleton (.assign hkey hvalue))))
  next => exact tidyItems_nil

/-- The block of a variable is tidy if the remark on its data type fits on a line. -/
theorem tidies_draftVariable (hwords : context.graph.graph.HasWords)
    (hfeed : valueKey? (document.get "value") = none → '\n' ∉ (document.text "dataType").toList) :
    Tidies answer (draftVariable context document) Block.IsTidy := by
  refine .lift_bind fun name _ => .lift_bind fun scope _ => .lift_bind fun dataType htype =>
    .lift_bind fun id _ => .lift_bind fun unique hname =>
    .pure (Block.isTidy_of_single rfl rfl ?_)
  have hunique := hwords.lookup hname
  obtain ⟨-, rfl⟩ := requireText_eq_ok_iff.1 (orFail_eq_ok_iff.1 htype)
  have hinputs : ∀ input ∈ valueInputs document unique, Neutral input.reference.render :=
    fun input hinput => neutral_reference_valueInputs document hunique hinput
  refine ((((TidyItems.append ?_ ?_).append (tidyItems_singleton (.assignAll ?_))).append
    (tidyItems_owningFlowItems document)).append (TidyItems.behindBlank tidyItems_nil)).append
    (tidyItems_valueItems (fun line hline => neutral_valueLine hinputs hline) ?_)
  · refine .cons (tidy_assign (by decide) (neutral_environment context)) (.behindBlank
      (tidyItems_singleton (.assignAll ?_)))
    exact tidyPairs_cons (by decide) (Hcl.neutral_quote _) (tidyPairs_cons (by decide)
      (Hcl.neutral_quote _) (tidyPairs_cons (by decide) (Hcl.neutral_quote _)
        (tidyPairs_singleton (by decide) (Hcl.neutral_boolText _))))
  · split
    · exact tidyItems_singleton (.line (Hcl.isLine_comment (by decide) (by decide)))
    · exact tidyItems_nil
  · exact tidyPairs_append (tidyPairs_append (tidyPairs_textPair _ _ (by decide))
      (tidyPairs_numberPair _ _ (by decide))) (tidyPairs_numberPair _ _ (by decide))
  · intro hnone hsecret
    refine hfeed ?_
    -- only a secret value is left out although it is there
    unfold valueLine? at hnone
    rw [if_neg hsecret] at hnone
    exact Option.map_eq_none_iff.1 hnone

end Drafts

end HclExport
