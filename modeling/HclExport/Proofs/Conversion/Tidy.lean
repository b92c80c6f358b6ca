import HclExport.Conversion.Registry
import HclExport.Proofs.Conversion.Draft
import HclExport.Proofs.Hcl.Tidy

/-!
# Blocks are written tidily

Whatever a document holds, the parts of its block are tidy: texts are quoted, numbers and names
are words, and brackets are opened and closed by the block itself.

## Main definitions

* `Yields` — what a computation comes to has a property.
* `Draft.Tidies` — what a draft comes to has a property, provided that the references that it
  asks for are tidy.

## Main results

* `Draft.Tidies.bind`, `Draft.Tidies.mapM` — drafts in a row.
-/

namespace HclExport

open Hcl (Item Value Neutral IsLine TidyPairs)

/-! ### Computations that yield something tidy -/

section Yields

variable {ε α β : Type}

/-- What a computation comes to, if it does, has a property. -/
def Yields (result : Except ε α) (p : α → Prop) : Prop :=
  ∀ a, result = .ok a → p a

theorem Yields.ok {p : α → Prop} {a : α} (h : p a) : Yields (.ok a : Except ε α) p := by
  intro b hb
  obtain rfl := Except.ok.inj hb
  exact h

theorem Yields.error {p : α → Prop} (failure : ε) : Yields (.error failure) p := by
  intro a ha
  cases ha

theorem Yields.bind {result : Except ε α} {next : α → Except ε β} {q : α → Prop} {p : β → Prop}
    (h : Yields result q) (hnext : ∀ a, q a → Yields (next a) p) : Yields (result >>= next) p := by
  intro b hb
  cases result with
  | error failure => cases hb
  | ok a => exact hnext a (h a rfl) b hb

/-- Whatever comes first, when nothing about it matters. -/
theorem Yields.bind_any {result : Except ε α} {next : α → Except ε β} {p : β → Prop}
    (hnext : ∀ a, Yields (next a) p) : Yields (result >>= next) p :=
  Yields.bind (q := fun _ => True) (fun _ _ => trivial) fun a _ => hnext a

end Yields

namespace Draft

variable {α β : Type} {answer : Request → Hcl.Expression}

/-- What a draft comes to, if it does, has a property, provided that the references that it asks
for are tidy. -/
def Tidies (answer : Request → Hcl.Expression) (d : Draft α) (p : α → Prop) : Prop :=
  (∀ request ∈ d.requests answer, (answer request).Tidy) → Yields (d.result answer) p

namespace Tidies

theorem pure {p : α → Prop} {a : α} (h : p a) : Tidies answer (pure a) p :=
  fun _ => Yields.ok h

theorem lift {result : Except Failure α} {p : α → Prop} (h : Yields result p) :
    Tidies answer (liftM result) p :=
  fun _ => h

theorem ask (request : Request) : Tidies answer (Draft.ask request) Hcl.Expression.Tidy :=
  fun h => Yields.ok (h request (List.mem_singleton_self request))

theorem bind {d : Draft α} {f : α → Draft β} {q : α → Prop} {p : β → Prop}
    (hd : Tidies answer d q) (hf : ∀ a, q a → Tidies answer (f a) p) :
    Tidies answer (d >>= f) p := by
  intro hasked b hb
  rw [result_bind] at hb
  cases hresult : d.result answer with
  | error failure =>
    rw [hresult] at hb
    cases hb
  | ok a =>
    rw [hresult] at hb
    -- what is asked for is what the first draft asks for, and then the second
    rw [requests_bind_of_ok hresult] at hasked
    have ha := hd (fun request h => hasked request (List.mem_append_left _ h)) a hresult
    exact hf a ha (fun request h => hasked request (List.mem_append_right _ h)) b hb

/-- Whatever comes first without asking for anything, when nothing about it matters. -/
theorem lift_bind {result : Except Failure α} {f : α → Draft β} {p : β → Prop}
    (hf : ∀ a, result = .ok a → Tidies answer (f a) p) :
    Tidies answer (liftM result >>= f) p :=
  bind (q := fun a => result = .ok a) (lift fun _ h => h) hf

theorem mapM {f : α → Draft β} {p : β → Prop} (h : ∀ a, Tidies answer (f a) p) (xs : List α) :
    Tidies answer (xs.mapM f) fun ys => ∀ y ∈ ys, p y := by
  induction xs with
  | nil => exact pure (by simp)
  | cons x xs ih =>
    rw [List.mapM_cons]
    exact (h x).bind fun y hy => ih.bind fun ys hys => pure (List.forall_mem_cons.2 ⟨hy, hys⟩)

end Tidies

end Draft

/-! ### Attributes and items in rows -/

/-- All of the items are tidy. -/
def TidyItems (items : List Item) : Prop :=
  ∀ item ∈ items, item.Tidy

theorem tidyItems_nil : TidyItems [] := by
  intro item hitem
  cases hitem

theorem TidyItems.cons {item : Item} {items : List Item} (h : item.Tidy)
    (hitems : TidyItems items) : TidyItems (item :: items) :=
  List.forall_mem_cons.2 ⟨h, hitems⟩

theorem TidyItems.append {items more : List Item} (h : TidyItems items) (hmore : TidyItems more) :
    TidyItems (items ++ more) :=
  List.forall_mem_append.2 ⟨h, hmore⟩

theorem tidyItems_singleton {item : Item} (h : item.Tidy) : TidyItems [item] :=
  .cons h tidyItems_nil

/-- Items behind an empty line. -/
theorem TidyItems.behindBlank {items : List Item} (h : TidyItems items) :
    TidyItems (.blank :: items) :=
  .cons .blank h

theorem tidy_braced {header : String} (hheader : Neutral header) {body : List Item}
    (hbody : TidyItems body) : (Item.braced header body).Tidy :=
  .block hheader Hcl.encloses_braces hbody

/-- The body of a tidy block is tidy. -/
theorem Hcl.Item.Tidy.body {header : String} {body : List Item}
    (h : (Item.braced header body).Tidy) : TidyItems body := by
  cases h with
  | block _ _ hbody => exact hbody

theorem tidy_object {key : String} (hkey : Neutral key) {body : List Item}
    (hbody : TidyItems body) : (Item.object key body).Tidy :=
  tidy_braced (hkey.append (Hcl.neutral_of_inert (by decide))) hbody

/-- An attribute with a word as its key and a value that is neutral. -/
theorem tidy_assign {key value : String} (hkey : IsWord key) (hvalue : Neutral value) :
    (Item.assign key value).Tidy :=
  .assign (Hcl.neutral_of_isWord hkey) hvalue.isLine

/-- Bodies as the elements of a list. -/
theorem tidyItems_elements {bodies : List (List Item)} (h : ∀ body ∈ bodies, TidyItems body) :
    TidyItems (Item.elements bodies) := by
  induction bodies with
  | nil =>
    unfold Item.elements
    exact tidyItems_nil
  | cons body rest ih =>
    obtain ⟨hbody, hrest⟩ := List.forall_mem_cons.1 h
    cases rest with
    | nil =>
      unfold Item.elements
      exact tidyItems_singleton (.block Hcl.neutral_empty Hcl.encloses_braces hbody)
    | cons second rest =>
      unfold Item.elements
      exact .cons (.block Hcl.neutral_empty Hcl.encloses_element hbody) (ih hrest)

theorem tidyPairs_nil : TidyPairs [] := by
  intro pair hpair
  cases hpair

theorem tidyPairs_singleton {key value : String} (hkey : IsWord key) (hvalue : Neutral value) :
    TidyPairs [(key, value)] :=
  List.forall_mem_singleton.2 ⟨Hcl.neutral_of_isWord hkey, hvalue.isLine⟩

theorem tidyPairs_cons {key value : String} {pairs : List (String × String)} (hkey : IsWord key)
    (hvalue : Neutral value) (h : TidyPairs pairs) : TidyPairs ((key, value) :: pairs) :=
  List.forall_mem_cons.2 ⟨⟨Hcl.neutral_of_isWord hkey, hvalue.isLine⟩, h⟩

theorem tidyPairs_append {pairs more : List (String × String)} (h : TidyPairs pairs)
    (hmore : TidyPairs more) : TidyPairs (pairs ++ more) :=
  List.forall_mem_append.2 ⟨h, hmore⟩

theorem tidyPairs_flatMap {α : Type} {xs : List α} {f : α → List (String × String)}
    (h : ∀ x ∈ xs, TidyPairs (f x)) : TidyPairs (xs.flatMap f) := by
  intro pair hpair
  obtain ⟨x, hx, hpair⟩ := List.mem_flatMap.1 hpair
  exact h x hx pair hpair

/-! ### Attributes of documents -/

theorem tidyPairs_textPair (document : Members) (key : String) {name : String}
    (hname : IsWord name) : TidyPairs (textPair document key name) := by
  unfold textPair
  split
  · exact tidyPairs_nil
  · exact tidyPairs_singleton hname (Hcl.neutral_quote _)

theorem tidyPairs_flagPair (document : Members) (key : String) {name : String}
    (hname : IsWord name) : TidyPairs (flagPair document key name) := by
  unfold flagPair
  split
  · exact tidyPairs_singleton hname (Hcl.neutral_boolText _)
  · exact tidyPairs_nil

theorem tidyPairs_numberPair (document : Members) (key : String) {name : String}
    (hname : IsWord name) : TidyPairs (numberPair document key name) := by
  unfold numberPair
  split
  · exact tidyPairs_singleton hname (Hcl.neutral_numberText _)
  · exact tidyPairs_nil

theorem yields_integerText (n : Number) : Yields (integerText n) Neutral := by
  unfold integerText
  split
  · exact .ok (Hcl.neutral_of_isWord (isWord_toString_int _))
  · exact .error _
  · split
    · exact .ok (Hcl.neutral_of_isWord (isWord_toString_int _))
    · exact .error _

theorem yields_integerPair (document : Members) (key : String) {name : String}
    (hname : IsWord name) : Yields (integerPair document key name) TidyPairs := by
  unfold integerPair
  split
  · exact (yields_integerText _).bind fun _ h => .ok (tidyPairs_singleton hname h)
  · exact .ok tidyPairs_nil

/-- A list of texts on one line is neutral. -/
theorem neutral_textsLiteral (items : List Json) : Neutral (textsLiteral items) := by
  have hscalar : (items.map fun item => Value.str item.display).all Value.isScalar = true := by
    simp [Value.isScalar]
  have hquoted : ∀ values : List Json, ∀ text ∈
      Value.nativeItems 2 (values.map fun item => .str item.display), Neutral text := by
    intro values
    induction values with
    | nil => simp [Value.nativeItems]
    | cons value rest ih =>
      simp only [List.map_cons, Value.nativeItems, Value.nativeText]
      exact List.forall_mem_cons.2 ⟨Hcl.neutral_quote _, ih⟩
  unfold textsLiteral Value.nativeText
  rw [if_pos hscalar]
  exact Hcl.encloses_brackets _ (Hcl.neutral_intercalate Hcl.neutral_comma (hquoted items))

/-! ### Triggers -/

theorem yields_timePair (authentication : Members) :
    Yields (timePair authentication) TidyPairs := by
  unfold timePair
  split
  · refine .ok (tidyPairs_singleton (by decide) ?_)
    split
    · exact Hcl.neutral_of_isWord (by decide)
    · exact Hcl.neutral_of_isWord (by decide)
  · exact yields_integerPair _ _ (by decide)

theorem yields_authenticationItems (configuration : Members) {key : String} (hkey : IsWord key) :
    Yields (authenticationItems configuration key) TidyItems := by
  unfold authenticationItems
  dsimp only
  split
  · exact .ok tidyItems_nil
  · refine (yields_timePair _).bind fun time htime => .ok (TidyItems.behindBlank
      (tidyItems_singleton (tidy_object (Hcl.neutral_of_isWord hkey)
        (tidyItems_singleton (.assignAll ?_)))))
    exact tidyPairs_append (tidyPairs_append (tidyPairs_flagPair _ _ (by decide)) htime)
      (tidyPairs_textPair _ _ (by decide))

theorem tidyItems_assign {pairs : List (String × String)} (h : TidyPairs pairs) :
    TidyItems (pairs.map fun (key, value) => .assign key value) := by
  intro item hitem
  obtain ⟨pair, hpair, rfl⟩ := List.mem_map.1 hitem
  exact .assign (h pair hpair).1 (h pair hpair).2

theorem yields_triggerItem (trigger : Members) : Yields (triggerItem trigger) Item.Tidy := by
  have htype : TidyItems
      ((textPair trigger "type" "type").map fun (key, value) => Item.assign key value) :=
    tidyItems_assign (tidyPairs_textPair _ _ (by decide))
  have hname : Neutral "trigger" := Hcl.neutral_of_isWord (by decide)
  unfold triggerItem
  dsimp only
  split
  · exact .ok (tidy_object hname htype)
  · refine (yields_authenticationItems _ (by decide)).bind fun mfa hmfa =>
      (yields_authenticationItems _ (by decide)).bind fun password hpassword => .ok ?_
    refine tidy_object hname (htype.append (TidyItems.behindBlank (tidyItems_singleton ?_)))
    exact tidy_object (Hcl.neutral_of_isWord (by decide)) (hmfa.append hpassword)

theorem yields_flowTrigger (document : Members) : Yields (flowTrigger document) TidyItems := by
  unfold flowTrigger
  split
  · exact (yields_triggerItem _).bind fun item h =>
      .ok (TidyItems.behindBlank (tidyItems_singleton h))
  · exact .ok tidyItems_nil

theorem yields_policyTrigger (document : Members) : Yields (policyTrigger document) TidyItems := by
  unfold policyTrigger
  dsimp only
  split
  · exact .ok tidyItems_nil
  · exact (yields_triggerItem _).bind fun item h =>
      .ok (TidyItems.behindBlank (tidyItems_singleton h))

/-! ### Settings -/

theorem yields_settingPair {name : String} (hname : IsWord name) (value : Json) :
    Yields (settingPair name value) TidyPairs := by
  cases value with
  | null => exact .ok (tidyPairs_singleton hname (Hcl.neutral_of_isWord (by decide)))
  | bool b => exact .ok (tidyPairs_singleton hname (Hcl.neutral_boolText b))
  | num n => exact (yields_integerText n).bind fun _ h => .ok (tidyPairs_singleton hname h)
  | str s => exact .ok (tidyPairs_singleton hname (Hcl.neutral_quote s))
  | arr items => exact .ok (tidyPairs_singleton hname (neutral_textsLiteral items))
  | obj members => exact .ok tidyPairs_nil

/-- Every name of a setting is a word. -/
theorem isWord_settingName {key name : String} (h : settingNames.lookup key = some name) :
    IsWord name := by
  have hall : ∀ pair ∈ settingNames, IsWord pair.2 := by decide
  obtain ⟨before, after, hsplit, -⟩ := List.lookup_eq_some_iff.1 h
  exact hall (key, name) (by simp [hsplit])

theorem yields_settingPairs {settings : Members}
    (h : ∀ setting ∈ settings, (settingNames.lookup setting.1).isSome = true) :
    Yields (settingPairs settings) TidyPairs := by
  induction settings with
  | nil => exact .ok tidyPairs_nil
  | cons setting rest ih =>
    obtain ⟨key, value⟩ := setting
    obtain ⟨hfirst, hrest⟩ := List.forall_mem_cons.1 h
    obtain ⟨name, hname⟩ := Option.isSome_iff_exists.1 hfirst
    unfold settingPairs
    dsimp only at hname
    rw [hname, Option.getD_some]
    exact (yields_settingPair (isWord_settingName hname) value).bind fun pair hpair =>
      (ih hrest).bind fun more hmore => .ok (tidyPairs_append hpair hmore)

theorem mem_knownSettings {settings : Members} {setting : String × Json}
    (h : setting ∈ knownSettings settings) : (settingNames.lookup setting.1).isSome = true := by
  unfold knownSettings at h
  dsimp only at h
  split at h
  · cases h
  split at h
  · exact (List.mem_filter.1 h).2
  · rcases List.mem_append.1 h with h | h
    · exact (List.mem_filter.1 h).2
    · rw [List.mem_singleton.1 h]
      decide

theorem tidyItems_scriptLink (link : Members) : TidyItems (scriptLink link) := by
  have htext : ∀ {key : String}, IsWord key → TidyPairs [(key, Hcl.quote (link.text key))] :=
    fun hkey => tidyPairs_singleton hkey (Hcl.neutral_quote _)
  refine tidyItems_singleton (.assignAll ?_)
  refine tidyPairs_append (tidyPairs_append ?_ (tidyPairs_textPair _ _ (by decide))) ?_
  · exact tidyPairs_cons (by decide) (Hcl.neutral_quote _) (tidyPairs_cons (by decide)
      (Hcl.neutral_boolText _) (htext (by decide)))
  · exact tidyPairs_cons (by decide) (Hcl.neutral_quote _) (tidyPairs_cons (by decide)
      (Hcl.neutral_quote _) (htext (by decide)))

theorem yields_scriptItems (settings : Members) : Yields (scriptItems settings) TidyItems := by
  unfold scriptItems
  split
  · exact .ok tidyItems_nil
  · refine .bind_any fun links => ?_
    split
    · exact .ok (tidyItems_singleton (tidy_assign (by decide)
        (by simpa using Hcl.encloses_brackets "" Hcl.neutral_empty)))
    · refine .ok (tidyItems_singleton (.block (Hcl.neutral_of_inert (by decide))
        Hcl.encloses_brackets (tidyItems_elements ?_)))
      exact List.forall_mem_map.2 fun link _ => tidyItems_scriptLink link

theorem yields_settingsItems (document : Members) : Yields (settingsItems document) TidyItems := by
  unfold settingsItems
  dsimp only
  split
  · exact .ok tidyItems_nil
  · refine (yields_settingPairs ?_).bind fun pairs hpairs =>
      (yields_scriptItems _).bind fun scripts hscripts => .ok (TidyItems.behindBlank
        (tidyItems_singleton (tidy_object (Hcl.neutral_of_isWord (by decide))
          (.cons (.assignAll hpairs) hscripts))))
    intro setting hsetting
    have hmem := (sortOn_perm _ _).mem_iff.1 (List.mem_filter.1 hsetting).1
    exact mem_knownSettings hmem

/-! ### Input schemas -/

theorem tidyPairs_boolText (value : Option Bool) {key : String} (hkey : IsWord key) :
    TidyPairs (match value with
      | some b => [(key, Hcl.boolText b)]
      | none => []) := by
  split
  · exact tidyPairs_singleton hkey (Hcl.neutral_boolText _)
  · exact tidyPairs_nil

theorem tidyItems_schemaEntry (entry : SchemaEntry) : TidyItems entry.items := by
  have htext : ∀ {key : String} (value : String), IsWord key →
      TidyPairs (if value = "" then [] else [(key, Hcl.quote value)]) := by
    intro key value hkey
    split
    · exact tidyPairs_nil
    · exact tidyPairs_singleton hkey (Hcl.neutral_quote _)
  refine tidyItems_singleton (.assignAll ?_)
  refine tidyPairs_append (tidyPairs_append (tidyPairs_append (tidyPairs_append
    (tidyPairs_append (htext _ (by decide)) ?_) (htext _ (by decide)))
    (tidyPairs_boolText _ (by decide))) (tidyPairs_boolText _ (by decide))) ?_
  · exact tidyPairs_singleton (by decide) (Hcl.neutral_quote _)
  · exact tidyPairs_singleton (by decide) (Hcl.neutral_quote _)

theorem yields_inputSchemaItems (document : Members) :
    Yields (inputSchemaItems document) TidyItems := by
  unfold inputSchemaItems
  refine .bind_any fun entries => ?_
  split
  · exact .ok tidyItems_nil
  · refine .ok (TidyItems.behindBlank (tidyItems_singleton
      (.block (Hcl.neutral_of_inert (by decide)) Hcl.encloses_brackets (tidyItems_elements ?_))))
    exact List.forall_mem_map.2 fun entry _ => tidyItems_schemaEntry entry

end HclExport
