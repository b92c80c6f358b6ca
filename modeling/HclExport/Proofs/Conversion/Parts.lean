import HclExport.Proofs.Conversion.ValueLine
import HclExport.Proofs.Document.Told
import HclExport.Proofs.Resource.Todos
import Mathlib.Data.List.Forall2

/-!
# What a text is put together of

A text that is written is put together of what is always the same and of texts from elsewhere, which
are quoted, stand in a template or are named in the remark on an unfinished place. What it is put
together of tells how often it is marked: once for each unfinished place, and as often as the texts
from elsewhere are.

## Main definitions

* `Todo` — an unfinished place, with its remark.
* `Part`, `Part.Sound` — a part of a text, whose marks are accounted for.
* `Composed` — a text is put together of parts with given unfinished places.
* `InRow` — things in a row, each with its own unfinished places.
* `Remarked`, `Writes` — the same of a text with a remark behind it, and of items.

## Main results

* `Part.Sound.hasTodos`, `countTodos_parts` — the marks of parts.
* `Hcl.Value.composes_object`, `Hcl.Value.composes_ofJson` — what values are put together of.
* `Writes.append`, `Writes.block`, `Writes.assignAll` — what items are put together of.
-/

namespace HclExport

/-! ### Unfinished places -/

/-- An unfinished place: a reference that leads nowhere, or a variable without a value. -/
inductive Todo
  | reference (record : MissingRecord)
  | value (dataType : String)

namespace Todo

/-- The remark with which it is marked. -/
def text : Todo → String
  | .reference record =>
    todoMark ++ " Reference to " ++ record.target.ref.kind.type ++ " " ++ record.target.ref.id ++
      " unresolved (" ++ record.reason.description ++ ")"
  | .value dataType =>
    if lower dataType = "secret" then todoMark ++ " Add secret value manually"
    else todoMark ++ " Add " ++ dataType ++ " value"

/-- The texts from elsewhere in the remark. -/
def given : Todo → List String
  | .reference record => [record.target.ref.id]
  | .value dataType => if lower dataType = "secret" then [] else [dataType]

/-- A text between two others, of which the first has one mark and the second ends every mark. -/
theorem hasTodos_between {before behind : String} (hbefore : HasTodos before 1)
    (hbehind : HasTodos behind 0) (hends : EndsMark behind) (s : String) :
    HasTodos (before ++ (s ++ behind)) (1 + countTodos s) :=
  hbefore.append (hbehind.behind hends s)

/-- The mark and what follows it without another sign. -/
theorem hasTodos_mark {rest : String} (h : '#' ∉ rest.toList) :
    HasTodos (todoMark ++ rest) 1 := by
  intro more
  have hmark : todoMark.toList ++ (rest.toList ++ more) =
      '#' :: (markTail ++ (rest.toList ++ more)) := by
    rw [toList_todoMark, List.cons_append]
  rw [String.toList_append, List.append_assoc, hmark, countMarks_cons,
    if_pos ⟨rfl, List.prefix_append _ _⟩, countMarks_append_of_notMem (by decide),
    countMarks_append_of_notMem h]

/-- A remark is marked once, and as often as the texts in it are. -/
theorem hasTodos (todo : Todo) : HasTodos todo.text (1 + (todo.given.map countTodos).sum) := by
  cases todo with
  | reference record =>
    have htype : '#' ∉ record.target.ref.kind.type.toList := by
      cases record.target.ref.kind <;> decide
    have hcause : '#' ∉ record.reason.description.toList := by
      cases record.reason <;> decide
    have hbefore : HasTodos
        (todoMark ++ (" Reference to " ++ (record.target.ref.kind.type ++ " "))) 1 :=
      hasTodos_mark (by simp [htype])
    have hbehind : HasTodos (" unresolved (" ++ (record.reason.description ++ ")")) 0 :=
      .of_notMem (by simp [hcause])
    have hends : EndsMark (" unresolved (" ++ (record.reason.description ++ ")")) :=
      EndsMark.append (by decide) _
    have h := hasTodos_between hbefore hbehind hends record.target.ref.id
    simpa only [text, given, String.append_assoc, List.map_cons, List.map_nil, List.sum_cons,
      List.sum_nil, Nat.add_zero] using h
  | value dataType =>
    by_cases hsecret : lower dataType = "secret"
    · have h : HasTodos (todoMark ++ " Add secret value manually") 1 := hasTodos_mark (by decide)
      simpa only [text, given, if_pos hsecret, List.map_nil, List.sum_nil, Nat.add_zero] using h
    · have hbefore : HasTodos (todoMark ++ " Add ") 1 := hasTodos_mark (by decide)
      have hbehind : HasTodos " value" 0 := .of_notMem (by decide)
      have h := hasTodos_between hbefore hbehind (by decide) dataType
      simpa only [text, given, if_neg hsecret, String.append_assoc, List.map_cons, List.map_nil,
        List.sum_cons, List.sum_nil, Nat.add_zero] using h

end Todo

/-! ### Parts -/

/-- A part of a text that is written. -/
inductive Part
  /-- What holds no text from elsewhere. -/
  | own (text : String)
  /-- A text from elsewhere as a quoted literal. -/
  | literal (text : String)
  /-- A text from elsewhere at the end of a template, as it is. -/
  | name (text : String)
  /-- The remark on an unfinished place. -/
  | todo (todo : Todo)

namespace Part

/-- A part as it stands in the text. -/
def text : Part → String
  | .own text => text
  | .literal text => Hcl.quote text
  | .name text => text ++ "\x7d\""
  | .todo place => place.text

/-- The texts from elsewhere in a part. -/
def given : Part → List String
  | .own _ => []
  | .literal text => [text]
  | .name text => [text]
  | .todo place => place.given

/-- The unfinished place that a part marks. -/
def todo? : Part → Option Todo
  | .todo place => some place
  | _ => none

/-- What is always the same holds no mark, and what is from elsewhere has a property. -/
def Sound (T : String → Prop) : Part → Prop
  | .own text => HasTodos text 0
  | part => ∀ s ∈ part.given, T s

/-- How often a part is marked: for itself, and for the texts from elsewhere in it. -/
def marks (part : Part) : Nat :=
  part.todo?.toList.length + (part.given.map countTodos).sum

theorem Sound.hasTodos {T : String → Prop} {part : Part} (h : part.Sound T) :
    HasTodos part.text part.marks := by
  cases part with
  | own text => exact h
  | literal text =>
    show HasTodos (Hcl.quote text) (0 + (countTodos text + 0))
    rw [Nat.zero_add, Nat.add_zero]
    exact hasTodos_quote text
  | name text =>
    show HasTodos (text ++ "\x7d\"") (0 + (countTodos text + 0))
    rw [Nat.zero_add]
    exact HasTodos.behind (.of_notMem (by decide)) (by decide) text
  | todo place => exact place.hasTodos

/-- What is from elsewhere in a sound part has the property. -/
theorem Sound.of_mem_given {T : String → Prop} {part : Part} (h : part.Sound T) {s : String}
    (hs : s ∈ part.given) : T s := by
  cases part with
  | own text => cases hs
  | literal text => exact h s hs
  | name text => exact h s hs
  | todo place => exact h s hs

end Part

/-- A text that is put together of sound parts is marked once for each unfinished place, and as
often as the texts from elsewhere are. -/
theorem countTodos_parts {T : String → Prop} {parts : List Part}
    (h : ∀ part ∈ parts, part.Sound T) :
    countTodos (String.join (parts.map Part.text)) =
      (parts.filterMap Part.todo?).length + ((parts.flatMap Part.given).map countTodos).sum := by
  rw [(HasTodos.join fun part hpart => (h part hpart).hasTodos).countTodos_eq]
  clear h
  induction parts with
  | nil => rfl
  | cons part rest ih =>
    have hplaces : ((part :: rest).filterMap Part.todo?).length =
        part.todo?.toList.length + (rest.filterMap Part.todo?).length := by
      cases htodo : part.todo? with
      | none => simp [htodo]
      | some todo => simp [htodo, Nat.add_comm]
    rw [List.map_cons, List.sum_cons, ih, hplaces, List.flatMap_cons, List.map_append,
      List.sum_append, Part.marks]
    omega

/-! ### Texts that are put together -/

section Composed

variable {T : String → Prop}

/-- A text is put together of sound parts with given unfinished places, in whatever order. -/
def Composed (T : String → Prop) (s : String) (todos : List Todo) : Prop :=
  ∃ parts : List Part, s = String.join (parts.map Part.text) ∧ (∀ part ∈ parts, part.Sound T) ∧
    (parts.filterMap Part.todo?).Perm todos

namespace Composed

variable {s t : String} {todos more : List Todo}

theorem perm (h : Composed T s todos) (hperm : todos.Perm more) : Composed T s more := by
  obtain ⟨parts, htext, hsound, htodos⟩ := h
  exact ⟨parts, htext, hsound, htodos.trans hperm⟩

theorem append (hs : Composed T s todos) (ht : Composed T t more) :
    Composed T (s ++ t) (todos ++ more) := by
  obtain ⟨parts, rfl, hsound, htodos⟩ := hs
  obtain ⟨others, rfl, hsound', htodos'⟩ := ht
  refine ⟨parts ++ others, ?_, List.forall_mem_append.2 ⟨hsound, hsound'⟩, ?_⟩
  · rw [← String.toList_inj]
    simp only [String.toList_append, String.toList_join, List.map_append, List.flatMap_append]
  · rw [List.filterMap_append]
    exact htodos.append htodos'

/-- Behind a text without unfinished places. -/
theorem front (hs : Composed T s []) (ht : Composed T t todos) : Composed T (s ++ t) todos :=
  hs.append ht

/-- In front of a text without unfinished places. -/
theorem back (hs : Composed T s todos) (ht : Composed T t []) : Composed T (s ++ t) todos := by
  have h := hs.append ht
  rwa [List.append_nil] at h

/-- A single part. -/
theorem part (part : Part) (h : part.Sound T) (htext : part.text = s)
    (htodos : part.todo?.toList = todos) : Composed T s todos := by
  subst htext htodos
  refine ⟨[part], ?_, List.forall_mem_singleton.2 h, ?_⟩
  · rw [← String.toList_inj]
    simp
  · cases htodo : part.todo? with
    | none => simp [htodo]
    | some todo => simp [htodo]

theorem own (h : HasTodos s 0) : Composed T s [] :=
  part (.own s) h rfl rfl

/-- What holds no sign of a mark. -/
theorem plain (h : '#' ∉ s.toList) : Composed T s [] :=
  own (.of_notMem h)

theorem empty : Composed T "" [] :=
  own .empty

theorem word (h : IsWord s) : Composed T s [] := by
  refine plain fun hsign => ?_
  have hchar := h '#' hsign
  revert hchar
  decide

theorem quote (h : T s) : Composed T (Hcl.quote s) [] :=
  part (.literal s) (List.forall_mem_singleton.2 h) rfl rfl

/-- What ends a template. -/
theorem name (h : T s) : Composed T (s ++ "\x7d\"") [] :=
  part (.name s) (List.forall_mem_singleton.2 h) rfl rfl

/-- A literal that holds no text from elsewhere. -/
theorem quote_plain (h : '#' ∉ s.toList) : Composed T (Hcl.quote s) [] := by
  refine own ?_
  have hcount : countTodos s = 0 := (HasTodos.of_notMem h).countTodos_eq
  rw [← hcount]
  exact hasTodos_quote s

theorem quote_word (h : IsWord s) : Composed T (Hcl.quote s) [] := by
  refine quote_plain fun hsign => ?_
  have hchar := h '#' hsign
  revert hchar
  decide

/-- The literal of a text in a document. -/
theorem quote_text {members : Members} (h : Told T (.obj members)) (key : String) :
    Composed T (Hcl.quote (members.text key)) [] := by
  rcases h.text key with hempty | htold
  · rw [hempty]
    exact quote_plain (by decide)
  · exact quote htold

theorem todo {todo : Todo} (h : ∀ s ∈ todo.given, T s) : Composed T todo.text [todo] :=
  part (.todo todo) h rfl rfl

theorem spaces (n : Nat) : Composed T (HclExport.spaces n) [] := by
  refine plain fun hsign => ?_
  simp only [HclExport.spaces, String.toList_ofList] at hsign
  exact absurd (List.eq_of_mem_replicate hsign) (by decide)

end Composed

/-! ### Rows -/

section Row

variable {α β : Type} {R : α → List Todo → Prop} {xs ys : List α} {todos more : List Todo}

/-- Things in a row, each with its own unfinished places. -/
def InRow (R : α → List Todo → Prop) (xs : List α) (todos : List Todo) : Prop :=
  ∃ each, List.Forall₂ R xs each ∧ each.flatten.Perm todos

namespace InRow

theorem nil : InRow R [] [] :=
  ⟨[], .nil, .refl _⟩

theorem perm_right (h : InRow R xs todos) (hperm : todos.Perm more) : InRow R xs more := by
  obtain ⟨each, hall, hflat⟩ := h
  exact ⟨each, hall, hflat.trans hperm⟩

/-- Things in another order have the same unfinished places. -/
theorem perm_left (h : InRow R xs todos) (hperm : ys.Perm xs) : InRow R ys todos := by
  obtain ⟨each, hall, hflat⟩ := h
  obtain ⟨others, hothers, hsame⟩ := List.perm_comp_forall₂ hperm hall
  exact ⟨others, hothers, hsame.flatten.trans hflat⟩

theorem append (hx : InRow R xs todos) (hy : InRow R ys more) :
    InRow R (xs ++ ys) (todos ++ more) := by
  obtain ⟨each, hall, hflat⟩ := hx
  obtain ⟨others, hothers, hflat'⟩ := hy
  refine ⟨each ++ others, List.rel_append hall hothers, ?_⟩
  rw [List.flatten_append]
  exact hflat.append hflat'

/-- Behind things without unfinished places. -/
theorem front (hx : InRow R xs []) (hy : InRow R ys todos) : InRow R (xs ++ ys) todos :=
  hx.append hy

/-- In front of things without unfinished places. -/
theorem back (hx : InRow R xs todos) (hy : InRow R ys []) : InRow R (xs ++ ys) todos := by
  have hall := hx.append hy
  rwa [List.append_nil] at hall

theorem singleton {x : α} (h : R x todos) : InRow R [x] todos :=
  ⟨[todos], .cons h .nil, by simp⟩

theorem cons {x : α} (hx : R x todos) (h : InRow R xs more) : InRow R (x :: xs) (todos ++ more) :=
  (singleton hx).append h

/-- Things without unfinished places. -/
theorem of_forall (h : ∀ x ∈ xs, R x []) : InRow R xs [] := by
  induction xs with
  | nil => exact nil
  | cons x rest ih =>
    obtain ⟨hx, hrest⟩ := List.forall_mem_cons.1 h
    exact cons hx (ih hrest)

theorem flatMap {zs : List β} {f : β → List α} (h : ∀ z ∈ zs, InRow R (f z) []) :
    InRow R (zs.flatMap f) [] := by
  induction zs with
  | nil => exact nil
  | cons z rest ih =>
    obtain ⟨hz, hrest⟩ := List.forall_mem_cons.1 h
    rw [List.flatMap_cons]
    exact hz.append (ih hrest)

/-- What holds of a row holds of what is made of its members. -/
theorem map {S : β → List Todo → Prop} {f : α → β} (h : InRow R xs todos)
    (hf : ∀ x places, R x places → S (f x) places) : InRow S (xs.map f) todos := by
  obtain ⟨each, hall, hflat⟩ := h
  exact ⟨each, List.forall₂_map_left_iff.2 (hall.imp fun _ _ hx => hf _ _ hx), hflat⟩

/-- Things that are made of others, each with the unfinished places of what it is made of. -/
theorem filterMap {zs : List β} {f : β → Option α} {places : β → List Todo}
    (hsome : ∀ z ∈ zs, ∀ x, f z = some x → R x (places z))
    (hnone : ∀ z ∈ zs, f z = none → places z = []) :
    InRow R (zs.filterMap f) (zs.flatMap places) := by
  induction zs with
  | nil => exact nil
  | cons z rest ih =>
    obtain ⟨hz, hrest⟩ := List.forall_mem_cons.1 hsome
    obtain ⟨hz', hrest'⟩ := List.forall_mem_cons.1 hnone
    have hmore := ih hrest hrest'
    rw [List.flatMap_cons]
    cases hfound : f z with
    | none =>
      rw [List.filterMap_cons_none hfound, hz' hfound, List.nil_append]
      exact hmore
    | some x =>
      rw [List.filterMap_cons_some hfound]
      exact cons (hz x hfound) hmore

end InRow

end Row

/-- Texts with a separator between them. -/
theorem Composed.intercalate {separator : String} (hseparator : '#' ∉ separator.toList)
    {texts : List String} {todos : List Todo} (h : InRow (Composed T) texts todos) :
    Composed T (separator.intercalate texts) todos := by
  obtain ⟨each, hall, hflat⟩ := h
  refine Composed.perm ?_ hflat
  clear hflat
  induction hall with
  | nil =>
    rw [String.intercalate_nil]
    exact .empty
  | @cons text places rest others htext hrest ih =>
    cases hrest with
    | nil =>
      rw [String.intercalate_singleton, List.flatten_cons, List.flatten_nil, List.append_nil]
      exact htext
    | cons hsecond hmore =>
      rw [String.intercalate_cons_cons, List.flatten_cons]
      exact (htext.back (.plain hseparator)).append ih

/-- Texts that end with a line feed, an empty line apart. -/
theorem Composed.paragraphs {texts : List String} {todos : List Todo}
    (h : InRow (fun text => Composed T (text ++ "\n")) texts todos) (hne : texts ≠ []) :
    Composed T ("\n\n".intercalate texts ++ "\n") todos := by
  have hfeed : Composed T "\n" [] := .plain (by decide)
  have hfeeds : "\n\n" = "\n" ++ "\n" := by decide
  obtain ⟨each, hall, hflat⟩ := h
  refine Composed.perm ?_ hflat
  clear hflat
  induction hall with
  | nil => exact absurd rfl hne
  | @cons text places rest others htext hrest ih =>
    cases hrest with
    | nil =>
      rw [String.intercalate_singleton, List.flatten_cons, List.flatten_nil, List.append_nil]
      exact htext
    | @cons second _ more _ hsecond hmore =>
      have hsplit : "\n\n".intercalate (text :: second :: more) ++ "\n" =
          (text ++ "\n") ++ ("\n" ++ ("\n\n".intercalate (second :: more) ++ "\n")) := by
        rw [String.intercalate_cons_cons, hfeeds]
        simp only [String.append_assoc]
      rw [hsplit, List.flatten_cons]
      exact htext.append (hfeed.front (ih (List.cons_ne_nil _ _)))

end Composed

/-! ### Texts with a remark behind them -/

section Values

variable {T : String → Prop}

/-- A text and the remark behind it are put together, whatever separator comes between the two. -/
def Remarked (T : String → Prop) (text remark : String) (todos : List Todo) : Prop :=
  ∀ separator, '#' ∉ separator.toList → Composed T (text ++ separator ++ remark) todos

namespace Remarked

variable {text remark : String} {todos : List Todo}

theorem of_text (h : Composed T text todos) : Remarked T text "" todos :=
  fun _ hseparator => (h.back (.plain hseparator)).back .empty

theorem joined (h : Remarked T text remark todos) : Composed T (text ++ remark) todos := by
  have hjoined := h "" (by decide)
  rwa [String.append_empty] at hjoined

theorem front {before : String} (hbefore : Composed T before [])
    (h : Remarked T text remark todos) : Remarked T (before ++ text) remark todos := by
  intro separator hseparator
  have hall := hbefore.front (h separator hseparator)
  simpa only [String.append_assoc] using hall

/-- The expression in a line. -/
theorem render {e : Hcl.Expression} (h : Remarked T e.text e.remark todos) :
    Composed T e.render todos :=
  h "" (by decide)

end Remarked

namespace Hcl

open Value (entryLines enclosed memberEntry)

/-- Entries on lines of their own. -/
theorem composed_entryLines {pad : String} (hpad : '#' ∉ pad.toList) {entries : List Value.Entry}
    {todos : List Todo}
    (h : InRow (fun (e : Value.Entry) => Remarked T e.text e.remark) entries todos) :
    Composed T (linesText (entryLines pad entries)) todos := by
  have hfeed : Composed T "\n" [] := .plain (by decide)
  obtain ⟨each, hall, hflat⟩ := h
  refine Composed.perm ?_ hflat
  clear hflat
  induction hall with
  | nil => exact .empty
  | @cons e places rest others he hrest ih =>
    cases hrest with
    | nil =>
      have hline := (he.front (.plain hpad)).joined
      simpa [entryLines] using hline.back hfeed
    | cons hsecond hmore =>
      have hline := he.front (.plain hpad) "," (by decide)
      simp only [entryLines, linesText_cons, List.flatten_cons]
      exact (hline.back hfeed).append ih

/-- Entries between brackets. -/
theorem composed_enclosed {opening closing : String} (hopening : '#' ∉ opening.toList)
    (hclosing : '#' ∉ closing.toList) (indent : Int) {entries : List Value.Entry}
    {todos : List Todo} (h : InRow (fun (e : Value.Entry) => Remarked T e.text e.remark) entries todos) :
    Composed T (enclosed opening closing indent entries) todos := by
  have hfeed : Composed T "\n" [] := .plain (by decide)
  unfold enclosed
  split
  next hempty =>
    obtain rfl := List.isEmpty_iff.1 hempty
    obtain ⟨each, hall, hflat⟩ := h
    cases hall
    exact ((Composed.plain hopening).front (.plain hclosing)).perm hflat
  next =>
    have hspaces : Composed T (spaces indent.toNat) [] := .spaces _
    have hpad : '#' ∉ (spaces indent.toNat ++ "  ").toList := by
      simp [spaces]
    dsimp only
    rw [intercalate_append_singleton, linesText_cons]
    exact (((Composed.plain hopening).front hfeed).front (composed_entryLines hpad h)).back
      (hspaces.front (.plain hclosing))

namespace Value

/-- A value is put together in this way, wherever its line starts. -/
def Composes (T : String → Prop) (value : Value) (todos : List Todo) : Prop :=
  ∀ indent, Remarked T (entry indent value).text (entry indent value).remark todos

theorem composes_of_text {value : Value} {text : String}
    (hentry : ∀ indent, entry indent value = ⟨text, ""⟩) (h : Composed T text []) :
    value.Composes T [] := by
  intro indent
  rw [hentry]
  exact .of_text h

theorem composes_str {s : String} (h : Composed T (quote s) []) : (Value.str s).Composes T [] :=
  composes_of_text (fun _ => rfl) h

theorem composes_expr {e : Expression} {todos : List Todo} (h : Remarked T e.text e.remark todos) :
    (Value.expr e).Composes T todos :=
  fun _ => h

theorem composes_tuple {items : List Value} {todos : List Todo}
    (h : InRow (Composes T) items todos) : (Value.tuple items).Composes T todos := by
  intro indent
  unfold entry
  refine .of_text (composed_enclosed (by decide) (by decide) indent ?_)
  rw [itemEntries_eq_map]
  exact h.map fun item places hitem => hitem (indent + 2)

/-- The members of an object stand in the order of their names. -/
theorem composes_object {members : List (String × Value)} {todos : List Todo}
    (h : InRow (fun member places => Composed T (quote member.1) [] ∧ member.2.Composes T places)
      members todos) : (Value.object members).Composes T todos := by
  intro indent
  rw [entry_object]
  refine .of_text (composed_enclosed (by decide) (by decide) indent ?_)
  refine InRow.map (h.perm_left (sortOn_perm _ _)) fun member places hmember => ?_
  exact .front (hmember.1.front (.plain (by decide))) (hmember.2 (indent + 2))

mutual

/-- A value of a document has no unfinished places. -/
theorem composes_ofJson {value : Json} (h : Told T value) : (ofJson value).Composes T [] := by
  cases value with
  | null =>
    unfold ofJson
    exact composes_of_text (fun indent => by unfold entry; rfl) (.plain (by decide))
  | bool b =>
    unfold ofJson
    exact composes_of_text (fun _ => rfl) (.word (isWord_boolText b))
  | num n =>
    unfold ofJson
    exact composes_of_text (fun _ => rfl) (.word (isWord_numberText n))
  | str s =>
    unfold ofJson
    exact composes_str (.quote h.str)
  | arr items =>
    unfold ofJson
    exact composes_tuple (.of_forall (composes_ofItems fun item => h.item))
  | obj members =>
    unfold ofJson
    exact composes_object (.of_forall (composes_ofMembers fun member hmember =>
      ⟨h.name hmember, h.value hmember⟩))

theorem composes_ofItems {items : List Json} (h : ∀ item ∈ items, Told T item) :
    ∀ item ∈ ofItems items, item.Composes T [] := by
  cases items with
  | nil => simp [ofItems]
  | cons item rest =>
    obtain ⟨hitem, hrest⟩ := List.forall_mem_cons.1 h
    unfold ofItems
    exact List.forall_mem_cons.2 ⟨composes_ofJson hitem, composes_ofItems hrest⟩

theorem composes_ofMembers {members : Members}
    (h : ∀ member ∈ members, T member.1 ∧ Told T member.2) :
    ∀ member ∈ ofMembers members,
      Composed T (quote member.1) [] ∧ member.2.Composes T [] := by
  cases members with
  | nil => simp [ofMembers]
  | cons member rest =>
    obtain ⟨hmember, hrest⟩ := List.forall_mem_cons.1 h
    unfold ofMembers
    exact List.forall_mem_cons.2
      ⟨⟨.quote hmember.1, composes_ofJson hmember.2⟩, composes_ofMembers hrest⟩

end

end Value

end Hcl

end Values

/-! ### Items -/

section Items

open Hcl (Item Writer)

variable {T : String → Prop} {items : List Item} {todos more : List Todo}

/-- What items add to a text is put together in this way, wherever they are written. -/
def Writes (T : String → Prop) (items : List Item) (todos : List Todo) : Prop :=
  ∀ w : Writer, ∃ added, (Item.writeAll w items).text = w.text ++ added ∧ Composed T added todos

/-- Attributes in a row. -/
abbrev WritesPairs (T : String → Prop) : List (String × String) → List Todo → Prop :=
  InRow fun pair places => Composed T pair.1 [] ∧ Composed T pair.2 places

namespace Writes

theorem perm (h : Writes T items todos) (hperm : todos.Perm more) : Writes T items more := by
  intro w
  obtain ⟨added, htext, hadded⟩ := h w
  exact ⟨added, htext, hadded.perm hperm⟩

theorem nil : Writes T [] [] := by
  intro w
  exact ⟨"", by simp [Item.writeAll], .empty⟩

theorem append {others : List Item} (h : Writes T items todos) (hothers : Writes T others more) :
    Writes T (items ++ others) (todos ++ more) := by
  intro w
  obtain ⟨first, hfirst, hcomposed⟩ := h w
  obtain ⟨second, hsecond, hcomposed'⟩ := hothers (Item.writeAll w items)
  refine ⟨first ++ second, ?_, hcomposed.append hcomposed'⟩
  rw [Item.writeAll_append, hsecond, hfirst, String.append_assoc]

/-- Behind items without unfinished places. -/
theorem front {others : List Item} (h : Writes T items []) (hothers : Writes T others todos) :
    Writes T (items ++ others) todos :=
  h.append hothers

/-- In front of items without unfinished places. -/
theorem back {others : List Item} (h : Writes T items todos) (hothers : Writes T others []) :
    Writes T (items ++ others) todos := by
  have hall := h.append hothers
  rwa [List.append_nil] at hall

theorem cons {item : Item} (hitem : Writes T [item] todos) (h : Writes T items more) :
    Writes T (item :: items) (todos ++ more) :=
  hitem.append h

/-- What a line adds. -/
theorem exists_text_line {text : String} (h : Composed T text todos) (w : Writer) :
    ∃ added, (w.line text).text = w.text ++ added ∧ Composed T added todos := by
  refine ⟨_, w.text_line text, Composed.back ?_ (.plain (by decide))⟩
  unfold Writer.indented
  split
  next hempty =>
    rw [hempty] at h
    exact h
  next => exact (Composed.spaces _).front h

theorem line {text : String} (h : Composed T text todos) : Writes T [.line text] todos :=
  exists_text_line h

theorem blank : Writes T [.blank] [] := by
  intro w
  show ∃ added, w.blank.text = w.text ++ added ∧ Composed T added []
  have hnone : ∃ added, w.text = w.text ++ added ∧ Composed T added [] :=
    ⟨"", by rw [String.append_empty], .empty⟩
  unfold Writer.blank
  split
  · exact hnone
  · split
    · exact hnone
    · exact exists_text_line .empty w

/-- Items behind an empty line. -/
theorem behindBlank (h : Writes T items todos) : Writes T (.blank :: items) todos :=
  blank.cons h

theorem assign {key value : String} (hkey : Composed T key []) (hvalue : Composed T value todos) :
    Writes T [.assign key value] todos :=
  exists_text_line ((hkey.front (.plain (by decide))).front hvalue)

theorem assignAll {pairs : List (String × String)} (h : WritesPairs T pairs todos) :
    Writes T [.assignAll pairs] todos := by
  intro w
  show ∃ added, (w.assignAll pairs).text = w.text ++ added ∧ Composed T added todos
  unfold Writer.assignAll
  generalize Writer.keyWidth pairs = width
  obtain ⟨each, hall, hflat⟩ := h
  suffices hsuff : ∃ added,
      (pairs.foldl (fun w pair => w.line (padRight width pair.1 ++ " = " ++ pair.2)) w).text =
        w.text ++ added ∧ Composed T added each.flatten by
    obtain ⟨added, htext, hadded⟩ := hsuff
    exact ⟨added, htext, hadded.perm hflat⟩
  clear hflat
  induction hall generalizing w with
  | nil => exact ⟨"", by simp, .empty⟩
  | @cons pair places rest others hpair _ ih =>
    have hpadded : Composed T (padRight width pair.1) [] := hpair.1.front (.spaces _)
    have hequals : Composed T " = " [] := .plain (by decide)
    obtain ⟨first, hfirst, hcomposed⟩ :=
      exists_text_line ((hpadded.front hequals).front hpair.2) w
    obtain ⟨second, hsecond, hcomposed'⟩ := ih (w.line (padRight width pair.1 ++ " = " ++ pair.2))
    refine ⟨first ++ second, ?_, hcomposed.append hcomposed'⟩
    rw [List.foldl_cons, hsecond, hfirst, String.append_assoc]

theorem json {key : String} {value : Hcl.Value} (hkey : Composed T key [])
    (hvalue : value.Composes T todos) : Writes T [.json key value] todos := by
  intro w
  have hopen : Composed T " = jsonencode(" [] := .plain (by decide)
  have hclose : Composed T ")" [] := .plain (by decide)
  exact exists_text_line (((hkey.front hopen).front (hvalue _).joined).back hclose) w

theorem block {header opener closer : String} (hheader : Composed T header [])
    (hopener : '#' ∉ opener.toList) (hcloser : '#' ∉ closer.toList) (h : Writes T items todos) :
    Writes T [.block header opener closer items] todos := by
  intro w
  have hline : Composed T (if header = "" then opener else header ++ " " ++ opener) [] := by
    split
    · exact .plain hopener
    · exact (hheader.front (.plain (by decide))).front (.plain hopener)
  obtain ⟨first, hfirst, hcomposed⟩ := exists_text_line hline w
  have hentered : (w.enter header opener closer).text = w.text ++ first := hfirst
  obtain ⟨inside, hinside, hbody⟩ := h (w.enter header opener closer)
  have hclosers : (Item.writeAll (w.enter header opener closer) items).closers =
      closer :: w.closers := Item.closers_writeAll _ items
  have hlast : Composed T (Writer.indented (2 * w.closers.length) closer ++ "\n") [] := by
    refine Composed.back ?_ (.plain (by decide))
    unfold Writer.indented
    split
    · exact .empty
    · exact (Composed.spaces _).front (.plain hcloser)
  refine ⟨first ++ inside ++ (Writer.indented (2 * w.closers.length) closer ++ "\n"), ?_,
    (hcomposed.front hbody).back hlast⟩
  show (Item.writeAll (w.enter header opener closer) items).leave.text = _
  rw [Writer.text_leave hclosers, hinside, hentered]
  simp only [String.append_assoc]

theorem braced {header : String} (hheader : Composed T header []) (h : Writes T items todos) :
    Writes T [Item.braced header items] todos :=
  block hheader (by decide) (by decide) h

theorem object {key : String} (hkey : Composed T key []) (h : Writes T items todos) :
    Writes T [Item.object key items] todos :=
  braced (hkey.front (.plain (by decide))) h

/-- Bodies as the elements of a list. -/
theorem elements {bodies : List (List Item)} (h : ∀ body ∈ bodies, Writes T body []) :
    Writes T (Item.elements bodies) [] := by
  have hcloser : '#' ∉ "\x7d,".toList := by decide
  induction bodies with
  | nil => exact nil
  | cons body rest ih =>
    obtain ⟨hbody, hrest⟩ := List.forall_mem_cons.1 h
    cases rest with
    | nil => exact braced .empty hbody
    | cons second rest => exact (block .empty (by decide) hcloser hbody).cons (ih hrest)

/-- Items in a row. -/
theorem of_inRow (h : InRow (fun item places => Writes T [item] places) items todos) :
    Writes T items todos := by
  obtain ⟨each, hall, hflat⟩ := h
  refine perm ?_ hflat
  clear hflat
  induction hall with
  | nil => exact nil
  | cons hitem _ ih => exact hitem.cons ih

end Writes

end Items

end HclExport
