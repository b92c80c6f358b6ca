import HclExport.Proofs.Conversion.EmbeddedSchemas
import HclExport.Proofs.Conversion.Parts
import HclExport.Proofs.Conversion.Tidy

/-!
# Blocks are put together of what documents tell

Whatever a document holds, the parts of its block that are not always the same are texts that the
document tells, and every reference that leads nowhere is one unfinished place.

## Main definitions

* `Context.todo?` — the unfinished place that a reference leaves.
* `Context.Accounts` — references are put together of their ids, or of none.
* `Draft.Leaves` — what a draft comes to, together with the unfinished places that it leaves.

## Main results

* `Draft.Leaves.bind`, `Draft.Leaves.mapM` — drafts in a row.
* `writesPairs_textPair`, `composed_textsLiteral` — attributes of documents.
* `yields_writes_settingsItems`, `yields_writes_inputSchemaItems` — parts of flows.
-/

namespace HclExport

open Hcl (Item Value)

/-! ### References -/

/-- The unfinished place that a reference leaves if it leads nowhere. -/
def Context.todo? (context : Context) (request : Request) : Option Todo :=
  (context.missing? request).map Todo.reference

/-- However a reference is written, it is put together of its id and of what is always the same, and
it is an unfinished place if it leads nowhere. -/
def Context.Accounts (T : String → Prop) (context : Context) : Prop :=
  ∀ request : Request, T request.targetId →
    Remarked T (context.answer request).text (context.answer request).remark
      (context.todo? request).toList

/-! ### Drafts -/

namespace Draft

variable {α β : Type} {context : Context}

/-- What a draft comes to, if it does, has a property together with the unfinished places that it
leaves. -/
def Leaves (context : Context) (d : Draft α) (p : α → List Todo → Prop) : Prop :=
  ∀ a, d.result context.answer = .ok a → p a ((d.requests context.answer).filterMap context.todo?)

namespace Leaves

theorem pure {p : α → List Todo → Prop} {a : α} (h : p a []) : Leaves context (pure a) p := by
  intro b hb
  obtain rfl := Except.ok.inj hb
  exact h

theorem lift {result : Except Failure α} {p : α → List Todo → Prop}
    (h : Yields result fun a => p a []) : Leaves context (liftM result) p :=
  h

theorem ask {T : String → Prop} (h : context.Accounts T) {request : Request}
    (htold : T request.targetId) :
    Leaves context (Draft.ask request) fun e => Remarked T e.text e.remark := by
  intro e he
  obtain rfl := Except.ok.inj he
  have hrow : [request].filterMap context.todo? = (context.todo? request).toList := by
    cases htodo : context.todo? request <;> simp [htodo]
  exact hrow ▸ h request htold

theorem bind {d : Draft α} {f : α → Draft β} {q : α → List Todo → Prop} {p : β → List Todo → Prop}
    (hd : Leaves context d q)
    (hf : ∀ a todos, q a todos → Leaves context (f a) fun b more => p b (todos ++ more)) :
    Leaves context (d >>= f) p := by
  intro b hb
  rw [result_bind] at hb
  cases hresult : d.result context.answer with
  | error failure =>
    rw [hresult] at hb
    cases hb
  | ok a =>
    rw [hresult] at hb
    -- what the first draft leaves comes first, and then what the second does
    rw [requests_bind_of_ok hresult, List.filterMap_append]
    exact hf a _ (hd a hresult) b hb

/-- What is made of the result of a draft leaves the same places. -/
theorem bind_pure {d : Draft α} {f : α → β} {q : α → List Todo → Prop} {p : β → List Todo → Prop}
    (hd : Leaves context d q) (hf : ∀ a todos, q a todos → p (f a) todos) :
    Leaves context (d >>= fun a => Pure.pure (f a)) p := by
  refine hd.bind fun a todos ha => pure ?_
  rw [List.append_nil]
  exact hf a todos ha

/-- After a draft that asks for nothing. -/
theorem lift_bind {result : Except Failure α} {f : α → Draft β} {q : α → Prop}
    {p : β → List Todo → Prop} (hresult : Yields result q)
    (hf : ∀ a, q a → Leaves context (f a) p) : Leaves context (liftM result >>= f) p := by
  have hlift : Leaves context (liftM result) fun a todos => q a ∧ todos = [] :=
    lift fun a ha => ⟨hresult a ha, rfl⟩
  refine hlift.bind fun a todos ha => ?_
  obtain ⟨ha, rfl⟩ := ha
  exact hf a ha

/-- After a draft whose result is known. -/
theorem known_bind {result : Except Failure α} {f : α → Draft β} {p : β → List Todo → Prop}
    (hf : ∀ a, result = .ok a → Leaves context (f a) p) : Leaves context (liftM result >>= f) p :=
  lift_bind (fun _ ha => ha) hf

theorem mapM {f : α → Draft β} {p : β → List Todo → Prop} {xs : List α}
    (h : ∀ x ∈ xs, Leaves context (f x) p) : Leaves context (xs.mapM f) (InRow p) := by
  induction xs with
  | nil => exact pure .nil
  | cons x rest ih =>
    obtain ⟨hx, hrest⟩ := List.forall_mem_cons.1 h
    rw [List.mapM_cons]
    exact hx.bind fun y todos hy => (ih hrest).bind_pure fun ys more hys => .cons hy hys

end Leaves

end Draft

theorem Yields.mapM {ε α β : Type} {f : α → Except ε β} {p : β → Prop} {xs : List α}
    (h : ∀ x ∈ xs, Yields (f x) p) : Yields (xs.mapM f) fun ys => ∀ y ∈ ys, p y := by
  induction xs with
  | nil => exact .ok (by simp)
  | cons x rest ih =>
    obtain ⟨hx, hrest⟩ := List.forall_mem_cons.1 h
    rw [List.mapM_cons]
    exact hx.bind fun y hy => (ih hrest).bind fun ys hys => .ok (List.forall_mem_cons.2 ⟨hy, hys⟩)

/-! ### Attributes of documents -/

section Attributes

variable {T : String → Prop} {document : Members}

theorem writesPairs_singleton {key value : String} {todos : List Todo} (hkey : IsWord key)
    (hvalue : Composed T value todos) : WritesPairs T [(key, value)] todos :=
  .singleton ⟨.word hkey, hvalue⟩

theorem writesPairs_cons {key value : String} {pairs : List (String × String)} {todos : List Todo}
    (hkey : IsWord key) (hvalue : Composed T value []) (h : WritesPairs T pairs todos) :
    WritesPairs T ((key, value) :: pairs) todos :=
  InRow.front (writesPairs_singleton hkey hvalue) h

/-- Attributes that are written one by one. -/
theorem Writes.assigns {pairs : List (String × String)} {todos : List Todo}
    (h : WritesPairs T pairs todos) :
    Writes T (pairs.map fun (key, value) => .assign key value) todos :=
  .of_inRow (h.map fun _ _ hpair => .assign hpair.1 hpair.2)

theorem writesPairs_textPair (hdocument : Told T (.obj document)) (key : String) {name : String}
    (hname : IsWord name) : WritesPairs T (textPair document key name) [] := by
  unfold textPair
  split
  · exact .nil
  · exact writesPairs_singleton hname (.quote_text hdocument key)

theorem writesPairs_flagPair (key : String) {name : String} (hname : IsWord name) :
    WritesPairs T (flagPair document key name) [] := by
  unfold flagPair
  split
  · exact writesPairs_singleton hname (.word (Hcl.isWord_boolText _))
  · exact .nil

theorem writesPairs_numberPair (key : String) {name : String} (hname : IsWord name) :
    WritesPairs T (numberPair document key name) [] := by
  unfold numberPair
  split
  · exact writesPairs_singleton hname (.word (Hcl.isWord_numberText _))
  · exact .nil

theorem yields_composed_integerText (n : Number) :
    Yields (integerText n) fun text => Composed T text [] := by
  unfold integerText
  split
  · exact .ok (.word (isWord_toString_int _))
  · exact .error _
  · split
    · exact .ok (.word (isWord_toString_int _))
    · exact .error _

theorem yields_writesPairs_integerPair (key : String) {name : String} (hname : IsWord name) :
    Yields (integerPair document key name) fun pairs => WritesPairs T pairs [] := by
  unfold integerPair
  split
  · exact (yields_composed_integerText _).bind fun _ h => .ok (writesPairs_singleton hname h)
  · exact .ok .nil

/-- A list of values as a list of texts: each item is put into words. -/
theorem composed_textsLiteral {items : List Json} (h : Told T (.arr items)) :
    Composed T (textsLiteral items) [] := by
  have hscalar : (items.map fun item => Value.str item.display).all Value.isScalar = true := by
    simp [Value.isScalar]
  have hquoted : ∀ values : List Json, (∀ value ∈ values, T value.display) → ∀ text ∈
      Value.nativeItems 2 (values.map fun item => .str item.display), Composed T text [] := by
    intro values hvalues
    induction values with
    | nil => simp [Value.nativeItems]
    | cons value rest ih =>
      obtain ⟨hvalue, hrest⟩ := List.forall_mem_cons.1 hvalues
      simp only [List.map_cons, Value.nativeItems, Value.nativeText]
      exact List.forall_mem_cons.2 ⟨.quote hvalue, ih hrest⟩
  have hinside : Composed T (", ".intercalate
      (Value.nativeItems 2 (items.map fun item => .str item.display))) [] :=
    .intercalate (by decide) (.of_forall (hquoted items fun _ => h.word))
  unfold textsLiteral Value.nativeText
  rw [if_pos hscalar]
  exact ((Composed.plain (by decide)).front hinside).back (.plain (by decide))

/-! ### Triggers -/

theorem yields_writesPairs_timePair :
    Yields (timePair document) fun pairs => WritesPairs T pairs [] := by
  unfold timePair
  split
  · refine .ok (writesPairs_singleton (by decide) ?_)
    split
    · exact .word (by decide)
    · exact .word (by decide)
  · exact yields_writesPairs_integerPair _ (by decide)

theorem yields_writes_authenticationItems (hdocument : Told T (.obj document)) {key : String}
    (hkey : IsWord key) :
    Yields (authenticationItems document key) fun items => Writes T items [] := by
  unfold authenticationItems
  dsimp only
  split
  · exact .ok .nil
  · refine (yields_writesPairs_timePair (T := T)).bind fun time htime => .ok (Writes.behindBlank
      (.object (.word hkey) (.assignAll ?_)))
    exact InRow.front (InRow.front (writesPairs_flagPair _ (by decide)) htime)
      (writesPairs_textPair (hdocument.inner key) _ (by decide))

theorem yields_writes_triggerItem (hdocument : Told T (.obj document)) :
    Yields (triggerItem document) fun item => Writes T [item] [] := by
  have htype : Writes T
      ((textPair document "type" "type").map fun (key, value) => Item.assign key value) [] :=
    .assigns (writesPairs_textPair hdocument _ (by decide))
  have hname : Composed T "trigger" [] := .word (by decide)
  have hconfiguration := hdocument.inner "configuration"
  unfold triggerItem
  dsimp only
  split
  · exact .ok (.object hname htype)
  · refine (yields_writes_authenticationItems hconfiguration (by decide)).bind fun mfa hmfa =>
      (yields_writes_authenticationItems hconfiguration (by decide)).bind fun password hpassword =>
        .ok ?_
    exact .object hname (htype.append (.behindBlank (.object (.word (by decide))
      (hmfa.append hpassword))))

theorem yields_writes_flowTrigger (hdocument : Told T (.obj document)) :
    Yields (flowTrigger document) fun items => Writes T items [] := by
  have hget := hdocument.get "trigger"
  unfold flowTrigger
  split
  next trigger htrigger =>
    rw [htrigger] at hget
    exact (yields_writes_triggerItem hget).bind fun item h => .ok (.behindBlank h)
  next => exact .ok .nil

theorem yields_writes_policyTrigger (hdocument : Told T (.obj document)) :
    Yields (policyTrigger document) fun items => Writes T items [] := by
  unfold policyTrigger
  dsimp only
  split
  · exact .ok .nil
  · exact (yields_writes_triggerItem (hdocument.inner "trigger")).bind fun item h =>
      .ok (.behindBlank h)

/-! ### Settings -/

theorem yields_writesPairs_settingPair {name : String} (hname : IsWord name) {value : Json}
    (hvalue : Told T value) :
    Yields (settingPair name value) fun pairs => WritesPairs T pairs [] := by
  cases value with
  | null => exact .ok (writesPairs_singleton hname (.word (by decide)))
  | bool b => exact .ok (writesPairs_singleton hname (.word (Hcl.isWord_boolText b)))
  | num n =>
    exact (yields_composed_integerText n).bind fun _ h => .ok (writesPairs_singleton hname h)
  | str s => exact .ok (writesPairs_singleton hname (.quote hvalue.str))
  | arr items => exact .ok (writesPairs_singleton hname (composed_textsLiteral hvalue))
  | obj members => exact .ok .nil

/-- A setting that is known, with a value that is told. -/
def IsToldSetting (T : String → Prop) (setting : String × Json) : Prop :=
  (settingNames.lookup setting.1).isSome = true ∧ Told T setting.2

theorem yields_writesPairs_settingPairs {settings : Members}
    (h : ∀ setting ∈ settings, IsToldSetting T setting) :
    Yields (settingPairs settings) fun pairs => WritesPairs T pairs [] := by
  induction settings with
  | nil => exact .ok .nil
  | cons setting rest ih =>
    obtain ⟨key, value⟩ := setting
    obtain ⟨⟨hknown, hvalue⟩, hrest⟩ := List.forall_mem_cons.1 h
    obtain ⟨name, hname⟩ := Option.isSome_iff_exists.1 hknown
    unfold settingPairs
    dsimp only at hname
    rw [hname, Option.getD_some]
    exact (yields_writesPairs_settingPair (isWord_settingName hname) hvalue).bind fun pair hpair =>
      (ih hrest).bind fun more hmore => .ok (InRow.front hpair hmore)

/-- The settings that are written are those of the document, and a level for logging. -/
theorem isToldSetting_of_mem (hdocument : Told T (.obj document)) {setting : String × Json}
    (h : setting ∈ knownSettings document) : IsToldSetting T setting := by
  refine ⟨mem_knownSettings h, ?_⟩
  have hknown : ∀ setting ∈ document.filter fun setting => (settingNames.lookup setting.1).isSome,
      Told T setting.2 := fun setting hsetting => hdocument.value (List.mem_filter.1 hsetting).1
  unfold knownSettings at h
  dsimp only at h
  split at h
  · cases h
  split at h
  · exact hknown setting h
  · rcases List.mem_append.1 h with h | h
    · exact hknown setting h
    · rw [List.mem_singleton.1 h]
      exact .num _

theorem writes_scriptLink (hdocument : Told T (.obj document)) :
    Writes T (scriptLink document) [] := by
  have hquote := Composed.quote_text hdocument
  refine .assignAll (InRow.front
    (InRow.front ?_ (writesPairs_textPair hdocument _ (by decide))) ?_)
  · exact writesPairs_cons (by decide) (hquote _) (writesPairs_cons (by decide)
      (.word (Hcl.isWord_boolText _)) (writesPairs_singleton (by decide) (hquote _)))
  · exact writesPairs_cons (by decide) (hquote _) (writesPairs_cons (by decide) (hquote _)
      (writesPairs_singleton (by decide) (hquote _)))

/-- The objects in a list are told by it. -/
theorem yields_told_listedObjects {value : Json} (hvalue : Told T value) :
    Yields (listedObjects value) fun objects => ∀ object ∈ objects, Told T (.obj object) := by
  unfold listedObjects
  split
  · exact .ok hvalue.filterMap_members?
  · exact .ok (by simp)
  · exact .ok (by simp)
  · split
    · exact .error _
    · exact .ok (by simp)

theorem yields_writes_scriptItems {settings : Members}
    (h : ∀ setting ∈ settings, IsToldSetting T setting) :
    Yields (scriptItems settings) fun items => Writes T items [] := by
  unfold scriptItems
  split
  next => exact .ok .nil
  next value hvalue =>
    obtain ⟨before, after, rfl, -⟩ := List.lookup_eq_some_iff.1 hvalue
    have htold : Told T value := (h _ (List.mem_append_right before List.mem_cons_self)).2
    refine (yields_told_listedObjects htold).bind fun links hlinks => ?_
    split
    · exact .ok (.assign (.word (by decide)) (.plain (by decide)))
    · exact .ok (.block (.plain (by decide)) (by decide) (by decide) (.elements
        (List.forall_mem_map.2 fun link hlink => writes_scriptLink (hlinks link hlink))))

theorem yields_writes_settingsItems (hdocument : Told T (.obj document)) :
    Yields (settingsItems document) fun items => Writes T items [] := by
  have hsettings : ∀ setting ∈ knownSettings (document.inner "settings"), IsToldSetting T setting :=
    fun setting => isToldSetting_of_mem (hdocument.inner "settings")
  unfold settingsItems
  dsimp only
  split
  · exact .ok .nil
  · refine (yields_writesPairs_settingPairs fun setting hsetting => ?_).bind fun pairs hpairs =>
      (yields_writes_scriptItems hsettings).bind fun scripts hscripts => .ok (Writes.behindBlank
        (.object (.word (by decide)) ((Writes.assignAll hpairs).append hscripts)))
    exact hsettings setting ((sortOn_perm _ _).mem_iff.1 (List.mem_filter.1 hsetting).1)

/-! ### Input schemas -/

/-- An entry whose texts are told, or are always the same. -/
structure SchemaEntry.IsTold (T : String → Prop) (entry : SchemaEntry) : Prop where
  property : Composed T (Hcl.quote entry.property) []
  control : Composed T (Hcl.quote entry.control) []
  description : Composed T (Hcl.quote entry.description) []

theorem SchemaEntry.isTold_ofMembers (hdocument : Told T (.obj document)) :
    (SchemaEntry.ofMembers document).IsTold T :=
  ⟨.quote_text hdocument _, .quote_text hdocument _, .quote_text hdocument _⟩

theorem SchemaEntry.isTold_ofProperty (hdocument : Told T (.obj document)) {name : String}
    (hname : T name) (required : Bool) :
    (SchemaEntry.ofProperty name document required).IsTold T := by
  refine ⟨.quote hname, ?_, .quote_text hdocument _⟩
  show Composed T (Hcl.quote (if document.text "preferredControlType" = "" then "textField"
    else document.text "preferredControlType")) []
  split
  · exact .quote_plain (by decide)
  · exact .quote_text hdocument _

/-- All of the entries are told. -/
abbrev ToldEntries (T : String → Prop) (entries : List SchemaEntry) : Prop :=
  ∀ entry ∈ entries, entry.IsTold T

theorem yields_deriveEntries {properties : Members} (hproperties : Told T (.obj properties))
    (required : List Json) : Yields (deriveEntries properties required) (ToldEntries T) := by
  unfold deriveEntries
  refine .bind_any fun names => .ok fun entry hentry => ?_
  obtain ⟨⟨name, property⟩, hproperty, hfound⟩ := List.mem_filterMap.1 hentry
  obtain ⟨members, hmembers, rfl⟩ := Option.map_eq_some_iff.1 hfound
  have hmem := (sortOn_perm Prod.fst properties).mem_iff.1 hproperty
  have hvalue := (hproperties.value hmem).ofMembers?
  rw [hmembers] at hvalue
  exact SchemaEntry.isTold_ofProperty hvalue (hproperties.name hmem) _

/-- The schema in a node is told by the document that embeds it as JSON text. -/
theorem yields_nodeSchema {node : Json} (hnode : Told T node) :
    Yields (nodeSchema node) fun found => ∀ schema ∈ found, Told T (.obj schema) := by
  have hschema := ((hnode.ofMembers?.inner "data").inner "properties").inner "inputSchema"
  unfold nodeSchema
  dsimp only
  split
  next => exact .ok (by simp)
  next hgiven =>
    split
    next value hread =>
      refine .ok fun schema hfound => ?_
      have hvalue := ((hschema.str_text hgiven).embedded hread).ofMembers?
      rw [hfound] at hvalue
      exact hvalue
    next => exact .ok (by simp)
    next => exact .error _

theorem mem_or_mem_of_mem_foldl {properties found : Members} {member : String × Json}
    (h : member ∈ properties.foldl keepFirst found) : member ∈ found ∨ member ∈ properties := by
  induction properties generalizing found with
  | nil => exact Or.inl h
  | cons property rest ih =>
    rcases ih h with hfound | hrest
    · unfold keepFirst at hfound
      split at hfound
      · exact Or.inl hfound
      · rcases List.mem_append.1 hfound with hfound | hproperty
        · exact Or.inl hfound
        · exact Or.inr (List.mem_singleton.1 hproperty ▸ List.mem_cons_self)
    · exact Or.inr (List.mem_cons_of_mem _ hrest)

/-- The properties of several schemas are told if the schemas are. -/
theorem told_mergeSchemas {schemas : List Members} (h : ∀ schema ∈ schemas, Told T (.obj schema)) :
    Told T (.obj (mergeSchemas schemas).1) := by
  have hall : Told T (.obj (schemas.flatMap fun schema => schema.inner "properties")) := by
    refine .of_mem fun member hmember => ?_
    obtain ⟨schema, hschema, hmember⟩ := List.mem_flatMap.1 hmember
    have hinner := (h schema hschema).inner "properties"
    exact ⟨hinner.name hmember, hinner.value hmember⟩
  refine hall.subset fun member hmember => ?_
  exact (mem_or_mem_of_mem_foldl hmember).resolve_left List.not_mem_nil

theorem yields_inputSchema (hdocument : Told T (.obj document)) :
    Yields (inputSchema document) (ToldEntries T) := by
  have hown := (hdocument.get "inputSchema").items?
  have hcompiled := (hdocument.get "inputSchemaCompiled").ofMembers?
  unfold inputSchema
  split
  next item rest hitems =>
    rw [hitems] at hown
    exact .ok (List.forall_mem_map.2 fun members hmembers =>
      SchemaEntry.isTold_ofMembers (hown.filterMap_members? members hmembers))
  next =>
    split
    next => exact .ok (List.forall_mem_nil _)
    next compiled hfound =>
      rw [hfound, Option.getD_some] at hcompiled
      have hparameters : Told T (.obj ((compiled.get "parameters").members?.getD compiled)) := by
        have hget := hcompiled.get "parameters"
        cases hvalue : compiled.get "parameters" with
        | obj members =>
          rw [hvalue] at hget
          exact hget
        | _ => exact hcompiled
      have hnodes := (((hdocument.inner "graphData").inner "elements").get "nodes").items?
      refine (yields_deriveEntries (hparameters.inner "properties") _).bind
        fun entries hentries => ?_
      split
      · refine (Yields.mapM fun node hnode => yields_nodeSchema (hnodes.item hnode)).bind
          fun schemas hschemas => yields_deriveEntries
            (told_mergeSchemas fun schema hschema => ?_) _
        obtain ⟨found, hmem, hfound⟩ := List.mem_filterMap.1 hschema
        exact hschemas found hmem schema hfound
      · exact .ok hentries

theorem isWord_normalizeDataType (type : String) : IsWord (normalizeDataType type) := by
  have hall : ∀ type ∈ inputDataTypes, IsWord type := by decide
  unfold normalizeDataType
  dsimp only
  split
  next hknown => exact hall _ (List.contains_iff_mem.1 hknown)
  next => decide

theorem SchemaEntry.IsTold.writes {entry : SchemaEntry} (h : entry.IsTold T) :
    Writes T entry.items [] := by
  have htext : ∀ {key value : String}, IsWord key → Composed T (Hcl.quote value) [] →
      WritesPairs T (if value = "" then [] else [(key, Hcl.quote value)]) [] := by
    intro key value hkey hvalue
    split
    · exact .nil
    · exact writesPairs_singleton hkey hvalue
  have hflag : ∀ {key : String} (b : Bool), IsWord key →
      WritesPairs T [(key, Hcl.boolText b)] [] := fun b hkey =>
    writesPairs_singleton hkey (.word (Hcl.isWord_boolText b))
  have htype : Composed T (Hcl.quote (normalizeDataType entry.dataType)) [] :=
    .quote_word (isWord_normalizeDataType _)
  refine .assignAll (InRow.front (InRow.front (InRow.front (InRow.front
    (InRow.front (htext (by decide) h.property) (writesPairs_singleton (by decide) htype))
    (htext (by decide) h.control)) ?_) ?_) (writesPairs_singleton (by decide) h.description)) <;>
    dsimp only <;> split
  · exact hflag _ (by decide)
  · exact .nil
  · exact hflag _ (by decide)
  · exact .nil

theorem yields_writes_inputSchemaItems (hdocument : Told T (.obj document)) :
    Yields (inputSchemaItems document) fun items => Writes T items [] := by
  unfold inputSchemaItems
  refine (yields_inputSchema hdocument).bind fun entries hentries => ?_
  split
  · exact .ok .nil
  · exact .ok (.behindBlank (.block (.plain (by decide)) (by decide) (by decide) (.elements
      (List.forall_mem_map.2 fun entry hentry => (hentries entry hentry).writes))))

end Attributes

end HclExport
