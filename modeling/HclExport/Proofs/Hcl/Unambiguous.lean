import HclExport.Proofs.Hcl.Quoted
import HclExport.Proofs.Hcl.Same

/-!
# Arguments of jsonencode determine their data

Two values have the same text as arguments of `jsonencode` exactly if they are equal up to the order
of members and up to numbers that are written alike. For the text of a value can be told from what
follows it: brackets and quotes are closed, and behind a word stands a comma or the end of a line.

## Main definitions

* `Members.SameByName` — members that differ in the order of names.
* `Json.Equivalent` — values that are equal up to the order of members and spellings of numbers.
* `Ends`, `listing` — what may follow a value, and the lines between brackets.

## Main results

* `forall₂_of_listing_eq` — the lines between brackets determine what they list.
* `Json.splits` — **a text starts in one way with a value.**
* `Json.jsonText_eq_iff` — when the texts of two values are the same.
-/

namespace HclExport

open Hcl (escape isClosed_escape numberText boolText)

/-- A value has a property if its leaves have it, and if arrays and objects have it as soon as what
stands in them has it. -/
@[elab_as_elim]
theorem Json.induction {motive : Json → Prop} (null : motive .null) (bool : ∀ b, motive (.bool b))
    (num : ∀ n, motive (.num n)) (str : ∀ s, motive (.str s))
    (arr : ∀ items, (∀ item ∈ items, motive item) → motive (.arr items))
    (obj : ∀ members, (∀ member ∈ members, motive member.2) → motive (.obj members))
    (value : Json) : motive value := by
  match value with
  | .null => exact null
  | .bool b => exact bool b
  | .num n => exact num n
  | .str s => exact str s
  | .arr items =>
    exact arr items fun item _ => Json.induction null bool num str arr obj item
  | .obj members =>
    exact obj members fun member _ => Json.induction null bool num str arr obj member.2
termination_by value
decreasing_by
  · have hitem := List.sizeOf_lt_of_mem ‹_ ∈ items›
    simp only [Json.arr.sizeOf_spec]
    omega
  · have hmember := List.sizeOf_lt_of_mem ‹_ ∈ members›
    obtain ⟨key, value⟩ := member
    simp only [Prod.mk.sizeOf_spec] at hmember
    simp only [Json.obj.sizeOf_spec]
    omega

/-! ### Equivalent values -/

/-- Members that differ at most in the order of names: under each name stand the same members. -/
def Members.SameByName (members others : Members) : Prop :=
  ∀ name, members.filter (fun member => member.1 = name) =
    others.filter fun member => member.1 = name

theorem Members.sortOn_eq_of_sameByName {members others : Members}
    (h : members.SameByName others) : sortOn Prod.fst members = sortOn Prod.fst others :=
  sortOn_eq_of_filter h

/-- The members of an object, whose names are distinct, differ at most in their order. -/
theorem Members.sameByName_iff_perm {members others : Members}
    (hnames : (members.map Prod.fst).Nodup) : members.SameByName others ↔ members.Perm others := by
  constructor
  · intro h
    have hsorted := sortOn_perm Prod.fst members
    rw [sortOn_eq_of_sameByName h] at hsorted
    exact hsorted.symm.trans (sortOn_perm Prod.fst others)
  · intro h name
    have hsorted : sortOn Prod.fst members = sortOn Prod.fst others :=
      sortOn_eq_of_perm h fun _ ha _ hb => List.inj_on_of_nodup_map hnames ha hb
    rw [← filter_sortOn name members, ← filter_sortOn name others, hsorted]

/-- Values that are equal up to the order of members and up to numbers that are written alike. -/
inductive Json.Equivalent : Json → Json → Prop
  | null : Equivalent .null .null
  | bool (b : Bool) : Equivalent (.bool b) (.bool b)
  | num {m n : Number} (h : numberText m = numberText n) : Equivalent (.num m) (.num n)
  | str (s : String) : Equivalent (.str s) (.str s)
  | arr {items others : List Json} (h : List.Forall₂ Equivalent items others) :
    Equivalent (.arr items) (.arr others)
  /-- Both objects can be reordered so that names and values agree one by one. -/
  | obj {members others p q : Members} (hp : members.SameByName p) (hq : others.SameByName q)
      (hnames : p.map Prod.fst = q.map Prod.fst)
      (hvalues : List.Forall₂ Equivalent (p.map Prod.snd) (q.map Prod.snd)) :
    Equivalent (.obj members) (.obj others)

/-- Members of one name whose values are equivalent. -/
def Json.EquivalentMembers (member other : String × Json) : Prop :=
  member.1 = other.1 ∧ member.2.Equivalent other.2

theorem Json.forall₂_equivalentMembers_iff {p q : Members} :
    List.Forall₂ EquivalentMembers p q ↔ p.map Prod.fst = q.map Prod.fst ∧
      List.Forall₂ Equivalent (p.map Prod.snd) (q.map Prod.snd) := by
  induction p generalizing q with
  | nil =>
    cases q with
    | nil => simp
    | cons other q => simp
  | cons member p ih =>
    cases q with
    | nil => simp
    | cons other q =>
      simp only [List.forall₂_cons, List.map_cons, List.cons.injEq, ih, EquivalentMembers]
      constructor
      · rintro ⟨⟨hname, hvalue⟩, hnames, hvalues⟩
        exact ⟨⟨hname, hnames⟩, hvalue, hvalues⟩
      · rintro ⟨⟨hname, hnames⟩, hvalue, hvalues⟩
        exact ⟨⟨hname, hvalue⟩, hnames, hvalues⟩

/-! ### Equivalent values are written the same -/

namespace Hcl.Value

/-- The entry of a member whose line starts in column `indent`. -/
def memberEntryAt (indent : Int) (member : String × Json) : Entry :=
  memberEntry (member.1, (ofJson member.2).entry indent)

theorem entry_ofJson_obj (indent : Int) (members : Members) :
    (ofJson (.obj members)).entry indent = ⟨enclosed "\x7b" "\x7d" indent
      ((sortOn Prod.fst members).map (memberEntryAt (indent + 2))), ""⟩ := by
  rw [ofJson, entry_object, ofMembers_eq_map, sortOn_map, List.map_map]
  rfl

theorem ofItems_eq_map (items : List Json) : ofItems items = items.map ofJson := by
  induction items with
  | nil => rfl
  | cons item rest ih => rw [ofItems, ih, List.map_cons]

theorem entry_ofJson_arr (indent : Int) (items : List Json) :
    (ofJson (.arr items)).entry indent = ⟨enclosed "[" "]" indent
      (items.map fun item => (ofJson item).entry (indent + 2)), ""⟩ := by
  rw [ofJson, entry, itemEntries_eq_map, ofItems_eq_map, List.map_map]
  rfl

/-- Equivalent values are written the same, in every column. -/
theorem same_of_equivalent (value : Json) :
    ∀ other, value.Equivalent other → (ofJson value).Same (ofJson other) := by
  induction value using Json.induction with
  | null =>
    rintro _ ⟨⟩
    exact Same.refl _
  | bool b =>
    rintro _ ⟨⟩
    exact Same.refl _
  | num n =>
    intro other h indent
    cases h with
    | num h => rw [ofJson, ofJson, entry, entry, h]
  | str s =>
    rintro _ ⟨⟩
    exact Same.refl _
  | arr items ih =>
    intro other h indent
    cases h with
    | @arr _ others h =>
      have hentries : items.map (fun item => (ofJson item).entry (indent + 2)) =
          others.map fun item => (ofJson item).entry (indent + 2) := by
        refine map_eq_of_forall₂ ?_ ((List.forall₂_and_left _ _).2 ⟨ih, h⟩)
        rintro item other ⟨hitem, hequivalent⟩
        exact hitem other hequivalent (indent + 2)
      rw [entry_ofJson_arr, entry_ofJson_arr, hentries]
  | obj members ih =>
    intro other h indent
    cases h with
    | @obj _ others p q hp hq hnames hvalues =>
      have hsorted : List.Forall₂ Json.EquivalentMembers (sortOn Prod.fst p) (sortOn Prod.fst q) :=
        forall₂_sortOn (fun _ _ h => h.1) (Json.forall₂_equivalentMembers_iff.2 ⟨hnames, hvalues⟩)
      rw [← Members.sortOn_eq_of_sameByName hp, ← Members.sortOn_eq_of_sameByName hq] at hsorted
      have hentries : (sortOn Prod.fst members).map (memberEntryAt (indent + 2)) =
          (sortOn Prod.fst others).map (memberEntryAt (indent + 2)) := by
        refine map_eq_of_forall₂ ?_ ((List.forall₂_and_left _ _).2
          ⟨fun member hmember => ih member (mem_sortOn.1 hmember), hsorted⟩)
        rintro member other ⟨hmember, hname, hequivalent⟩
        rw [memberEntryAt, memberEntryAt, hname, hmember _ hequivalent]
      rw [entry_ofJson_obj, entry_ofJson_obj, hentries]

end Hcl.Value

/-! ### Words and lists -/

/-- What may follow a value: nothing, a comma or the end of the line. -/
def Ends (rest : List Char) : Prop :=
  ∀ c ∈ rest.head?, c = ',' ∨ c = '\n'

/-- A word can be told from what follows it. -/
theorem word_append_inj {word other rest more : List Char}
    (hword : ∀ c ∈ word, isWordChar c = true) (hother : ∀ c ∈ other, isWordChar c = true)
    (hrest : Ends rest) (hmore : Ends more) (h : word ++ rest = other ++ more) :
    word = other ∧ rest = more := by
  have hends {rest : List Char} (hrest : Ends rest) : rest.takeWhile isWordChar = [] := by
    cases rest with
    | nil => rfl
    | cons c rest =>
      rcases hrest c rfl with rfl | rfl
      all_goals rfl
  have hwords := congrArg (List.takeWhile isWordChar) h
  rw [List.takeWhile_append_of_pos hword, List.takeWhile_append_of_pos hother, hends hrest,
    hends hmore, List.append_nil, List.append_nil] at hwords
  obtain rfl := hwords
  exact ⟨rfl, List.append_cancel_left h⟩

/-- Texts on lines of their own, with a comma behind each but the last, and what closes them. -/
def listing (pad closing : List Char) : List (List Char) → List Char
  | [] => closing
  | [text] => pad ++ text ++ '\n' :: closing
  | text :: rest => pad ++ text ++ ',' :: '\n' :: listing pad closing rest

section Listing

variable {α : Type} {f : α → List Char} {R : α → α → Prop} {pad closing : List Char}

/-- **The lines between brackets determine what they list,** if each text is told from what follows
it. -/
theorem forall₂_of_listing_eq {xs ys : List α}
    (hf : ∀ x ∈ xs, ∀ y rest more, Ends rest → Ends more → f x ++ rest = f y ++ more →
      R x y ∧ rest = more)
    (hxs : xs ≠ []) (hys : ys ≠ []) {rest more : List Char}
    (h : listing pad closing (xs.map f) ++ rest = listing pad closing (ys.map f) ++ more) :
    List.Forall₂ R xs ys ∧ rest = more := by
  have hcomma (tail : List Char) : Ends (',' :: tail) := by
    rintro c ⟨⟩
    exact Or.inl rfl
  have hfeed (tail : List Char) : Ends ('\n' :: tail) := by
    rintro c ⟨⟩
    exact Or.inr rfl
  induction xs generalizing ys with
  | nil => exact absurd rfl hxs
  | cons x xs ih =>
    obtain ⟨hx, hxs'⟩ := List.forall_mem_cons.1 hf
    obtain _ | ⟨y, ys⟩ := ys
    · exact absurd rfl hys
    obtain _ | ⟨x', xs⟩ := xs
    · obtain _ | ⟨y', ys⟩ := ys
      · simp only [List.map_cons, List.map_nil, listing, List.append_assoc, List.cons_append] at h
        obtain ⟨hxy, htail⟩ := hx y _ _ (hfeed _) (hfeed _) (List.append_cancel_left h)
        exact ⟨.cons hxy .nil, List.append_cancel_left (List.cons.inj htail).2⟩
      · simp only [List.map_cons, List.map_nil, listing, List.append_assoc, List.cons_append] at h
        obtain ⟨-, htail⟩ := hx y _ _ (hfeed _) (hcomma _) (List.append_cancel_left h)
        exact absurd (List.cons.inj htail).1 (by decide)
    · obtain _ | ⟨y', ys⟩ := ys
      · simp only [List.map_cons, List.map_nil, listing, List.append_assoc, List.cons_append] at h
        obtain ⟨-, htail⟩ := hx y _ _ (hcomma _) (hfeed _) (List.append_cancel_left h)
        exact absurd (List.cons.inj htail).1 (by decide)
      · simp only [List.map_cons, listing, List.append_assoc, List.cons_append] at h
        obtain ⟨hxy, htail⟩ := hx y _ _ (hcomma _) (hcomma _) (List.append_cancel_left h)
        obtain ⟨hall, hrest⟩ := ih hxs' (List.cons_ne_nil x' xs) (List.cons_ne_nil y' ys)
          (List.cons.inj (List.cons.inj htail).2).2
        exact ⟨.cons hxy hall, hrest⟩

/-- What stands behind an opening bracket: the closing one at once, or lines. -/
def inside (indent : Int) (closer : Char) (texts : List (List Char)) : List Char :=
  if texts = [] then [closer]
  else '\n' :: listing ((spaces indent.toNat).toList ++ [' ', ' '])
    ((spaces indent.toNat).toList ++ [closer]) texts

theorem forall₂_of_inside_eq {xs ys : List α}
    (hf : ∀ x ∈ xs, ∀ y rest more, Ends rest → Ends more → f x ++ rest = f y ++ more →
      R x y ∧ rest = more)
    {indent : Int} {closer : Char} (hcloser : closer ≠ '\n') {rest more : List Char}
    (h : inside indent closer (xs.map f) ++ rest = inside indent closer (ys.map f) ++ more) :
    List.Forall₂ R xs ys ∧ rest = more := by
  unfold inside at h
  simp only [List.map_eq_nil_iff] at h
  split at h
  next hxs =>
    subst hxs
    split at h
    next hys =>
      subst hys
      exact ⟨.nil, (List.cons.inj h).2⟩
    next => exact absurd (List.cons.inj h).1 hcloser
  next hxs =>
    split at h
    next => exact absurd (List.cons.inj h).1.symm hcloser
    next hys => exact forall₂_of_listing_eq hf hxs hys (List.cons.inj h).2

end Listing

/-! ### Texts of values -/

namespace Hcl.Value

theorem toList_linesText_entryLines (pad closing : String) {entries : List Entry}
    (hne : entries ≠ []) (h : ∀ e ∈ entries, e.remark = "") :
    (linesText (entryLines pad entries) ++ closing).toList =
      listing pad.toList closing.toList (entries.map fun e => e.text.toList) := by
  have hfeed : "\n".toList = ['\n'] := by decide
  have hcomma : ",".toList = [','] := by decide
  induction entries with
  | nil => exact absurd rfl hne
  | cons e entries ih =>
    obtain ⟨he, hentries⟩ := List.forall_mem_cons.1 h
    cases entries with
    | nil => simp [entryLines, listing, he, hfeed]
    | cons second entries =>
      have hrest := ih (List.cons_ne_nil second entries) hentries
      rw [String.toList_append] at hrest
      simp only [entryLines, linesText_cons, he, String.append_empty, String.toList_append, hfeed,
        hcomma, List.append_assoc, hrest, List.map_cons, listing]
      rfl

theorem toList_enclosed {opening closing : String} {o c : Char} (hopening : opening.toList = [o])
    (hclosing : closing.toList = [c]) (indent : Int) {entries : List Entry}
    (h : ∀ e ∈ entries, e.remark = "") :
    (enclosed opening closing indent entries).toList =
      o :: inside indent c (entries.map fun e => e.text.toList) := by
  have hfeed : "\n".toList = ['\n'] := by decide
  have hpad : "  ".toList = [' ', ' '] := by decide
  unfold enclosed inside
  simp only [List.isEmpty_iff, List.map_eq_nil_iff]
  split
  next => rw [String.toList_append, hopening, hclosing, List.singleton_append]
  next hne =>
    rw [intercalate_append_singleton, linesText_cons, String.append_assoc, String.toList_append,
      String.toList_append, toList_linesText_entryLines _ _ hne h, hopening, hfeed]
    simp only [String.toList_append, hpad, hclosing]
    rfl

end Hcl.Value

namespace Json

open Hcl.Value (ofJson entry)

/-- The characters of a value whose line starts in column `indent`. -/
def chars (indent : Int) (value : Json) : List Char :=
  ((ofJson value).entry indent).text.toList

theorem remark_entry (value : Json) (indent : Int) : ((ofJson value).entry indent).remark = "" := by
  cases value with
  | _ => simp [ofJson, entry]

/-- The characters of a member. -/
def memberChars (indent : Int) (member : String × Json) : List Char :=
  '"' :: escape member.1.toList ++ '"' :: ' ' :: '=' :: ' ' :: member.2.chars indent

theorem chars_str (indent : Int) (s : String) :
    chars indent (.str s) = '"' :: escape s.toList ++ ['"'] := by
  rw [chars, ofJson, entry, Hcl.toList_quote]

theorem chars_arr (indent : Int) (items : List Json) :
    chars indent (.arr items) = '[' :: inside indent ']' (items.map (chars (indent + 2))) := by
  have hremark : ∀ e ∈ items.map fun item => (ofJson item).entry (indent + 2), e.remark = "" :=
    List.forall_mem_map.2 fun item _ => remark_entry item (indent + 2)
  rw [chars, Hcl.Value.entry_ofJson_arr, Hcl.Value.toList_enclosed (o := '[') (c := ']') (by decide)
    (by decide) _ hremark, List.map_map]
  rfl

theorem chars_obj (indent : Int) (members : Members) :
    chars indent (.obj members) = '\x7b' :: inside indent '\x7d'
      ((sortOn Prod.fst members).map (memberChars (indent + 2))) := by
  have hremark : ∀ e ∈ (sortOn Prod.fst members).map (Hcl.Value.memberEntryAt (indent + 2)),
      e.remark = "" :=
    List.forall_mem_map.2 fun member _ => remark_entry member.2 (indent + 2)
  have hequals : " = ".toList = [' ', '=', ' '] := by decide
  have hchars (member : String × Json) :
      (Hcl.Value.memberEntryAt (indent + 2) member).text.toList =
        memberChars (indent + 2) member := by
    show (Hcl.quote member.1 ++ " = " ++ ((ofJson member.2).entry (indent + 2)).text).toList = _
    simp [memberChars, chars, hequals]
  rw [chars, Hcl.Value.entry_ofJson_obj, Hcl.Value.toList_enclosed (o := '\x7b') (c := '\x7d')
    (by decide) (by decide) _ hremark, List.map_map]
  exact congrArg (fun texts => '\x7b' :: inside indent '\x7d' texts)
    (List.map_congr_left fun member _ => hchars member)

/-! ### The first character -/

/-- The sign that opens a text, an array or an object. -/
def opener? : Json → Option Char
  | .str _ => some '"'
  | .arr _ => some '['
  | .obj _ => some '\x7b'
  | _ => none

/-- Values without an opening sign are words. -/
theorem isWordChar_of_mem_chars {value : Json} (h : value.opener? = none) (indent : Int) :
    ∀ c ∈ value.chars indent, isWordChar c = true := by
  cases value with
  | null =>
    have hword : IsWord "null" := by decide
    exact hword
  | bool b => exact Hcl.isWord_boolText b
  | num n => exact Hcl.isWord_numberText n
  | str s => cases h
  | arr items => cases h
  | obj members => cases h

theorem exists_chars_eq_cons {value : Json} {sign : Char} (h : value.opener? = some sign)
    (indent : Int) : ∃ tail, value.chars indent = sign :: tail := by
  cases value with
  | null => cases h
  | bool b => cases h
  | num n => cases h
  | str s =>
    cases h
    exact ⟨_, chars_str indent s⟩
  | arr items =>
    cases h
    exact ⟨_, chars_arr indent items⟩
  | obj members =>
    cases h
    exact ⟨_, chars_obj indent members⟩

/-- The first character tells how a value is opened. -/
theorem filter_head?_chars (value : Json) (indent : Int) {rest : List Char} (hrest : Ends rest) :
    (value.chars indent ++ rest).head?.filter (['"', '[', '\x7b'].contains ·) = value.opener? := by
  cases hopener : value.opener? with
  | none =>
    have hword := isWordChar_of_mem_chars hopener indent
    have hnone : ∀ sign ∈ ['"', '[', '\x7b'],
        isWordChar sign = false ∧ sign ≠ ',' ∧ sign ≠ '\n' :=
      List.all_iff_forall_prop.1 (by decide)
    refine Option.filter_eq_none_iff.2 ?_
    intro c hc hopens
    obtain ⟨hnoWord, hcomma, hfeed⟩ := hnone c (List.contains_iff_mem.1 hopens)
    cases hchars : value.chars indent with
    | nil =>
      rw [hchars] at hc
      rcases hrest c hc with rfl | rfl
      · exact hcomma rfl
      · exact hfeed rfl
    | cons d tail =>
      rw [hchars] at hc hword
      obtain rfl : d = c := Option.some.inj hc
      rw [hword d List.mem_cons_self] at hnoWord
      cases hnoWord
  | some sign =>
    obtain ⟨tail, htail⟩ := exists_chars_eq_cons hopener indent
    have hopens : ['"', '[', '\x7b'].contains sign = true := by
      cases value <;> cases hopener <;> rfl
    rw [htail, List.cons_append, List.head?_cons, Option.filter_some, if_pos hopens]

theorem opener?_eq {value other : Json} {indent : Int} {rest more : List Char} (hrest : Ends rest)
    (hmore : Ends more) (h : value.chars indent ++ rest = other.chars indent ++ more) :
    value.opener? = other.opener? := by
  rw [← filter_head?_chars value indent hrest, h, filter_head?_chars other indent hmore]

/-! ### Values that are told apart -/

theorem numberText_ne {word : String} (h : ∃ c ∈ word.toList, c ∉ numberChars) (n : Number) :
    numberText n ≠ word := by
  rintro rfl
  obtain ⟨c, hc, hnumber⟩ := h
  exact hnumber (Hcl.mem_numberChars_numberText n c hc)

theorem boolText_injective : Function.Injective boolText := by
  decide

/-- Values without an opening sign that are written alike are equivalent. -/
theorem equivalent_of_chars_eq {value other : Json} (hvalue : value.opener? = none)
    (hother : other.opener? = none) {indent : Int}
    (h : value.chars indent = other.chars indent) : value.Equivalent other := by
  have hbool (b : Bool) : ∃ c ∈ (boolText b).toList, c ∉ numberChars :=
    List.any_iff_exists_prop.1 (by cases b <;> decide)
  have hconstant (b : Bool) : boolText b ≠ "null" := by
    cases b <;> decide
  have hnull : ∃ c ∈ "null".toList, c ∉ numberChars := List.any_iff_exists_prop.1 (by decide)
  have htext : ((ofJson value).entry indent).text = ((ofJson other).entry indent).text :=
    String.toList_inj.1 h
  cases value with
  | str s => cases hvalue
  | arr items => cases hvalue
  | obj members => cases hvalue
  | null =>
    cases other with
    | null => exact .null
    | bool b => exact absurd htext.symm (hconstant b)
    | num n => exact absurd htext.symm (numberText_ne hnull n)
    | _ => cases hother
  | bool b =>
    cases other with
    | null => exact absurd htext (hconstant b)
    | bool b' =>
      obtain rfl := boolText_injective htext
      exact .bool b
    | num n => exact absurd htext.symm (numberText_ne (hbool b) n)
    | _ => cases hother
  | num n =>
    cases other with
    | null => exact absurd htext (numberText_ne hnull n)
    | bool b => exact absurd htext (numberText_ne (hbool b) n)
    | num n' => exact .num htext
    | _ => cases hother

/-- Literals are told from what follows them. -/
theorem literal_append_inj {s t : String} {rest more : List Char}
    (h : '"' :: (escape s.toList ++ '"' :: rest) = '"' :: (escape t.toList ++ '"' :: more)) :
    s = t ∧ rest = more := by
  obtain ⟨hbody, hrest⟩ := Hcl.closed_append_inj (isClosed_escape _) (isClosed_escape _)
    (List.cons.inj h).2
  have htext := congrArg Hcl.decode hbody
  rw [Hcl.decode_escape, Hcl.decode_escape] at htext
  exact ⟨String.toList_inj.1 htext, hrest⟩

/-- A text that starts with a word starts with no other value. -/
theorem splits_of_word {value : Json} (hvalue : value.opener? = none) (other : Json) (indent : Int)
    (rest more : List Char) (hrest : Ends rest) (hmore : Ends more)
    (h : value.chars indent ++ rest = other.chars indent ++ more) :
    value.Equivalent other ∧ rest = more := by
  have hother : other.opener? = none := (opener?_eq hrest hmore h).symm.trans hvalue
  obtain ⟨hchars, htail⟩ := word_append_inj (isWordChar_of_mem_chars hvalue indent)
    (isWordChar_of_mem_chars hother indent) hrest hmore h
  exact ⟨equivalent_of_chars_eq hvalue hother hchars, htail⟩

/-- **A text starts in one way with a value,** if it goes on with what may follow a value. -/
theorem splits (value : Json) : ∀ (other : Json) (indent : Int) (rest more : List Char),
    Ends rest → Ends more → value.chars indent ++ rest = other.chars indent ++ more →
      value.Equivalent other ∧ rest = more := by
  induction value using Json.induction with
  | null => exact splits_of_word rfl
  | bool b => exact splits_of_word rfl
  | num n => exact splits_of_word rfl
  | str s =>
    intro other indent rest more hrest hmore h
    have hopener := opener?_eq hrest hmore h
    cases other with
    | str t =>
      rw [chars_str, chars_str, List.append_assoc, List.append_assoc] at h
      obtain ⟨rfl, htail⟩ := literal_append_inj h
      exact ⟨.str s, htail⟩
    | _ => cases hopener
  | arr items ih =>
    intro other indent rest more hrest hmore h
    have hopener := opener?_eq hrest hmore h
    cases other with
    | arr others =>
      rw [chars_arr, chars_arr, List.cons_append, List.cons_append] at h
      obtain ⟨hitems, htail⟩ := forall₂_of_inside_eq
        (fun item hitem other => ih item hitem other (indent + 2)) (by decide) (List.cons.inj h).2
      exact ⟨.arr hitems, htail⟩
    | _ => cases hopener
  | obj members ih =>
    intro other indent rest more hrest hmore h
    have hopener := opener?_eq hrest hmore h
    cases other with
    | obj others =>
      have hmember : ∀ member ∈ sortOn Prod.fst members, ∀ (other : String × Json)
          (rest more : List Char), Ends rest → Ends more →
          memberChars (indent + 2) member ++ rest = memberChars (indent + 2) other ++ more →
            EquivalentMembers member other ∧ rest = more := by
        intro member hmember other rest more hrest hmore h
        simp only [memberChars, List.cons_append, List.append_assoc] at h
        obtain ⟨hname, htail⟩ := literal_append_inj h
        simp only [List.cons.injEq, true_and] at htail
        obtain ⟨hvalue, htail⟩ := ih member (mem_sortOn.1 hmember) other.2 _ _ _ hrest hmore htail
        exact ⟨⟨hname, hvalue⟩, htail⟩
      rw [chars_obj, chars_obj, List.cons_append, List.cons_append] at h
      obtain ⟨hmembers, htail⟩ := forall₂_of_inside_eq hmember (by decide) (List.cons.inj h).2
      obtain ⟨hnames, hvalues⟩ := forall₂_equivalentMembers_iff.1 hmembers
      have hsorted (members : Members) : members.SameByName (sortOn Prod.fst members) :=
        fun name => (filter_sortOn name members).symm
      exact ⟨.obj (hsorted members) (hsorted others) hnames hvalues, htail⟩
    | _ => cases hopener

/-- **Two values have the same text as arguments of `jsonencode`, wherever they start, exactly if they
are equivalent.** -/
theorem jsonText_eq_iff (value other : Json) (indent : Int) :
    (ofJson value).jsonText indent = (ofJson other).jsonText indent ↔ value.Equivalent other := by
  constructor
  · intro h
    have hnone : Ends [] := by
      intro c hc
      cases hc
    have hchars : value.chars indent ++ [] = other.chars indent ++ [] := by
      unfold Hcl.Value.jsonText at h
      rw [remark_entry, remark_entry, String.append_empty, String.append_empty] at h
      rw [chars, chars, h]
    exact (splits value other indent [] [] hnone hnone hchars).1
  · intro h
    exact (Hcl.Value.same_of_equivalent value other h).jsonText_eq indent

end Json

end HclExport
