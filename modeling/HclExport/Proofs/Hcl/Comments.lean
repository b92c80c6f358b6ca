import HclExport.Proofs.Hcl.Quoted
import HclExport.Proofs.Hcl.Tidy

/-!
# Comments end their lines

A comment of an expression runs to the end of its line. In the argument of `jsonencode` it stands at
the end of a line, behind the comma if there is one, and apart from the comments the text is that of
the value without them.

## Main definitions

* `Value.parts`, `Value.expressions` — what stands in a value at any depth, and the expressions
  among it.
* `Value.withoutComments` — the value with all comments erased.
* `Line`, `Lined` — lines with and without a comment, and texts that are put together of them.

## Main results

* `Lined.front`, `Lined.append` — texts in a row.
* `Value.lined_entry` — the entry of a value.
* `Value.comments_end_lines` — **where comments stand in an argument of `jsonencode`.**
-/

namespace HclExport
namespace Hcl

/-! ### Texts on one line -/

theorem feed_not_mem_append {s t : String} (hs : '\n' ∉ s.toList) (ht : '\n' ∉ t.toList) :
    '\n' ∉ (s ++ t).toList := by
  rw [String.toList_append, List.mem_append, not_or]
  exact ⟨hs, ht⟩

theorem feed_not_mem_spaces (n : Nat) : '\n' ∉ (spaces n).toList := by
  rw [spaces, String.toList_ofList, List.mem_replicate]
  rintro ⟨-, h⟩
  exact absurd h (by decide)

theorem feed_not_mem_of_isWord {s : String} (h : IsWord s) : '\n' ∉ s.toList :=
  fun hfeed => absurd (h _ hfeed) (by decide)

theorem feed_not_mem_quote (s : String) : '\n' ∉ (quote s).toList := by
  rw [toList_quote, List.mem_append, List.mem_cons, List.mem_singleton]
  rintro ((h | h) | h)
  · exact absurd h (by decide)
  · exact absurd (isControl_of_mem_escape h (by decide)).1 (by decide)
  · exact absurd h (by decide)

/-! ### What a value consists of -/

/-- An expression whose parts hold no line feed. -/
def Expression.IsOneLine (e : Expression) : Prop :=
  '\n' ∉ e.text.toList ∧ '\n' ∉ e.comment.toList

instance (e : Expression) : Decidable e.IsOneLine :=
  inferInstanceAs (Decidable ('\n' ∉ e.text.toList ∧ '\n' ∉ e.comment.toList))

/-- Whether there is a comment. -/
def Expression.isCommented (e : Expression) : Bool :=
  e.comment != ""

namespace Value

/-- The expression that a value is, if it is one. -/
def expression? : Value → Option Expression
  | .expr e => some e
  | .described text comment => some (.ofParts text comment)
  | _ => none

mutual

/-- The value and all that stands in it, at any depth. -/
def parts : Value → List Value
  | .tuple items => .tuple items :: itemParts items
  | .object members => .object members :: memberParts members
  | value => [value]

/-- What stands in the items of a tuple. -/
def itemParts : List Value → List Value
  | [] => []
  | item :: rest => parts item ++ itemParts rest

/-- What stands in the members of an object. -/
def memberParts : List (String × Value) → List Value
  | [] => []
  | (_, value) :: rest => parts value ++ memberParts rest

end

/-- The expressions among the leaves, at any depth. -/
def expressions (value : Value) : List Expression :=
  value.parts.filterMap expression?

mutual

/-- The value with the comments of all expressions erased. -/
def withoutComments : Value → Value
  | .expr e => .expr ⟨e.text, ""⟩
  | .described text _ => .described text (.str "")
  | .tuple items => .tuple (itemsWithoutComments items)
  | .object members => .object (membersWithoutComments members)
  | value => value

/-- Items with all comments erased. -/
def itemsWithoutComments : List Value → List Value
  | [] => []
  | item :: rest => withoutComments item :: itemsWithoutComments rest

/-- Members with all comments erased. -/
def membersWithoutComments : List (String × Value) → List (String × Value)
  | [] => []
  | (key, value) :: rest => (key, withoutComments value) :: membersWithoutComments rest

end

theorem itemParts_eq_flatMap (items : List Value) : itemParts items = items.flatMap parts := by
  induction items with
  | nil => rfl
  | cons item rest ih => rw [itemParts, ih, List.flatMap_cons]

theorem memberParts_eq_flatMap (members : List (String × Value)) :
    memberParts members = members.flatMap fun member => member.2.parts := by
  induction members with
  | nil => rfl
  | cons member rest ih => rw [memberParts, ih, List.flatMap_cons]

theorem expressions_tuple (items : List Value) :
    expressions (.tuple items) = items.flatMap expressions := by
  rw [expressions, parts, itemParts_eq_flatMap, List.filterMap_cons_none rfl,
    List.filterMap_flatMap]
  rfl

theorem expressions_object (members : List (String × Value)) :
    expressions (.object members) = members.flatMap fun member => member.2.expressions := by
  rw [expressions, parts, memberParts_eq_flatMap, List.filterMap_cons_none rfl,
    List.filterMap_flatMap]
  rfl

theorem itemsWithoutComments_eq_map (items : List Value) :
    itemsWithoutComments items = items.map withoutComments := by
  induction items with
  | nil => rfl
  | cons item rest ih => rw [itemsWithoutComments, ih, List.map_cons]

theorem membersWithoutComments_eq_map (members : List (String × Value)) :
    membersWithoutComments members = members.map fun m => (m.1, m.2.withoutComments) := by
  induction members with
  | nil => rfl
  | cons member rest ih => rw [membersWithoutComments, ih, List.map_cons]

/-- A value has a property if its leaves have it, and if tuples and objects have it as soon as what
stands in them has it. -/
@[elab_as_elim]
theorem induction {motive : Value → Prop} (null : motive .null) (bool : ∀ b, motive (.bool b))
    (num : ∀ n, motive (.num n)) (str : ∀ s, motive (.str s)) (expr : ∀ e, motive (.expr e))
    (described : ∀ text comment, motive (.described text comment))
    (tuple : ∀ items, (∀ item ∈ items, motive item) → motive (.tuple items))
    (object : ∀ members, (∀ member ∈ members, motive member.2) → motive (.object members))
    (value : Value) : motive value := by
  match value with
  | .null => exact null
  | .bool b => exact bool b
  | .num n => exact num n
  | .str s => exact str s
  | .expr e => exact expr e
  | .described text comment => exact described text comment
  | .tuple items =>
    exact tuple items fun item _ =>
      Value.induction null bool num str expr described tuple object item
  | .object members =>
    exact object members fun member _ =>
      Value.induction null bool num str expr described tuple object member.2
termination_by value
decreasing_by
  · have hitem := List.sizeOf_lt_of_mem ‹_ ∈ items›
    simp only [Value.tuple.sizeOf_spec]
    omega
  · have hmember := List.sizeOf_lt_of_mem ‹_ ∈ members›
    obtain ⟨key, value⟩ := member
    simp only [Prod.mk.sizeOf_spec] at hmember
    simp only [Value.object.sizeOf_spec]
    omega

end Value

/-! ### Lines -/

/-- A line: code alone, or code that ends with an expression, the comma that may follow it, and
behind them its comment. -/
inductive Line
  | plain (code : String)
  | commented (front : String) (e : Expression) (separated : Bool)

/-- A comma, if something follows. -/
def comma (separated : Bool) : String :=
  if separated then "," else ""

theorem feed_not_mem_comma (separated : Bool) : '\n' ∉ (comma separated).toList := by
  cases separated <;> decide

namespace Line

/-- The line as it is written. -/
def text : Line → String
  | .plain code => code
  | .commented front e separated => front ++ e.text ++ comma separated ++ " " ++ e.comment

/-- The line without its comment and the space before it. -/
def code : Line → String
  | .plain code => code
  | .commented front e separated => front ++ e.text ++ comma separated

/-- The expression whose comment ends the line. -/
def expression? : Line → Option Expression
  | .plain _ => none
  | .commented _ e _ => some e

/-- The line with more code at its start. -/
def withFront (more : String) : Line → Line
  | .plain code => .plain (more ++ code)
  | .commented front e separated => .commented (more ++ front) e separated

@[simp] theorem text_withFront (more : String) (line : Line) :
    (line.withFront more).text = more ++ line.text := by
  cases line <;> simp [withFront, text, String.append_assoc]

@[simp] theorem code_withFront (more : String) (line : Line) :
    (line.withFront more).code = more ++ line.code := by
  cases line <;> simp [withFront, code, String.append_assoc]

@[simp] theorem expression?_withFront (more : String) (line : Line) :
    (line.withFront more).expression? = line.expression? := by
  cases line <;> rfl

end Line

/-- Texts that are put together of the same lines, the one with their comments and the other
without, where the comments are those of the given expressions. -/
def Lined (text code : String) (commented : List Expression) : Prop :=
  ∃ lines : List Line, lines ≠ [] ∧
    text = "\n".intercalate (lines.map Line.text) ∧
    code = "\n".intercalate (lines.map Line.code) ∧
    (∀ line ∈ lines, '\n' ∉ line.text.toList) ∧
    (lines.filterMap Line.expression?).Perm commented

namespace Lined

variable {text code more moreCode : String} {commented further : List Expression}

theorem perm (h : Lined text code commented) (hperm : commented.Perm further) :
    Lined text code further := by
  obtain ⟨lines, hne, htext, hcode, hfeed, hlines⟩ := h
  exact ⟨lines, hne, htext, hcode, hfeed, hlines.trans hperm⟩

/-- A line without a comment. -/
theorem plain (h : '\n' ∉ text.toList) : Lined text text [] :=
  ⟨[.plain text], by simp, by simp [Line.text], by simp [Line.code], by simpa [Line.text] using h,
    .refl []⟩

/-- An expression at the end of a line, with its comment behind the comma. -/
theorem leaf {e : Expression} (h : e.IsOneLine) (separated : Bool) :
    Lined (e.text ++ comma separated ++ e.remark) (e.text ++ comma separated)
      ([e].filter Expression.isCommented) := by
  have hcode := feed_not_mem_append h.1 (feed_not_mem_comma separated)
  by_cases hcomment : e.comment = ""
  · have hnone : [e].filter Expression.isCommented = [] := by
      simp [Expression.isCommented, hcomment]
    rw [hnone, Expression.remark, if_pos hcomment, String.append_empty]
    exact plain hcode
  · have hone : [e].filter Expression.isCommented = [e] := by
      simp [Expression.isCommented, hcomment]
    rw [hone, Expression.remark, if_neg hcomment]
    refine ⟨[.commented "" e separated], by simp, ?_, ?_, ?_, .refl [e]⟩
    · simp [Line.text, String.append_assoc]
    · simp [Line.code]
    · refine List.forall_mem_singleton.2 ?_
      rw [Line.text, String.empty_append]
      exact feed_not_mem_append (feed_not_mem_append hcode (by decide)) h.2

/-- Code before the first line. -/
theorem front (h : Lined text code commented) (hmore : '\n' ∉ more.toList) :
    Lined (more ++ text) (more ++ code) commented := by
  obtain ⟨_ | ⟨first, rest⟩, hne, rfl, rfl, hfeed, hlines⟩ := h
  · exact absurd rfl hne
  refine ⟨first.withFront more :: rest, by simp, by simp, by simp, ?_, ?_⟩
  · obtain ⟨hfirst, hrest⟩ := List.forall_mem_cons.1 hfeed
    refine List.forall_mem_cons.2 ⟨?_, hrest⟩
    rw [Line.text_withFront]
    exact feed_not_mem_append hmore hfirst
  · simpa [List.filterMap_cons] using hlines

/-- Texts on lines of their own. -/
theorem append (h : Lined text code commented) (hmore : Lined more moreCode further) :
    Lined (text ++ "\n" ++ more) (code ++ "\n" ++ moreCode) (commented ++ further) := by
  obtain ⟨lines, hne, rfl, rfl, hfeed, hlines⟩ := h
  obtain ⟨lines', hne', rfl, rfl, hfeed', hlines'⟩ := hmore
  refine ⟨lines ++ lines', by simp [hne], ?_, ?_, ?_, ?_⟩
  · rw [List.map_append,
      String.intercalate_append_of_ne_nil (by simpa using hne) (by simpa using hne')]
  · rw [List.map_append,
      String.intercalate_append_of_ne_nil (by simpa using hne) (by simpa using hne')]
  · exact List.forall_mem_append.2 ⟨hfeed, hfeed'⟩
  · rw [List.filterMap_append]
    exact hlines.append hlines'

end Lined

/-! ### Entries -/

namespace Value

/-- An entry with comments and the same entry without them, whether a comma follows or not. -/
def EntryLined (e bare : Entry) (commented : List Expression) : Prop :=
  ∀ separated, Lined (e.text ++ comma separated ++ e.remark)
    (bare.text ++ comma separated ++ bare.remark) commented

theorem EntryLined.perm {e bare : Entry} {commented others : List Expression}
    (h : EntryLined e bare commented) (hperm : commented.Perm others) :
    EntryLined e bare others :=
  fun separated => (h separated).perm hperm

/-- An entry on one line that is no expression. -/
theorem entryLined_plain {text : String} (h : '\n' ∉ text.toList) :
    EntryLined ⟨text, ""⟩ ⟨text, ""⟩ [] := by
  intro separated
  rw [String.append_empty]
  exact .plain (feed_not_mem_append h (feed_not_mem_comma separated))

theorem entryLines_ne_nil {pad : String} {entries : List Entry} (h : entries ≠ []) :
    entryLines pad entries ≠ [] := by
  cases entries with
  | nil => exact absurd rfl h
  | cons e rest => cases rest <;> exact List.cons_ne_nil _ _

section Enclosed

variable {α : Type} {e bare : α → Entry} {commented : α → List Expression} {xs : List α}

/-- Entries on lines of their own: the comma of each stands before its comment. -/
theorem lined_entryLines {pad : String} (hpad : '\n' ∉ pad.toList)
    (h : ∀ x ∈ xs, EntryLined (e x) (bare x) (commented x)) (hne : xs ≠ []) :
    Lined ("\n".intercalate (entryLines pad (xs.map e)))
      ("\n".intercalate (entryLines pad (xs.map bare))) (xs.flatMap commented) := by
  induction xs with
  | nil => exact absurd rfl hne
  | cons x rest ih =>
    obtain ⟨hx, hrest⟩ := List.forall_mem_cons.1 h
    cases rest with
    | nil => simpa [entryLines, comma, String.append_assoc] using (hx false).front hpad
    | cons second rest =>
      have hlines (f : α → Entry) :
          "\n".intercalate (entryLines pad ((x :: second :: rest).map f)) =
          pad ++ ((f x).text ++ comma true ++ (f x).remark) ++ "\n" ++
            "\n".intercalate (entryLines pad ((second :: rest).map f)) := by
        have hmore : entryLines pad ((second :: rest).map f) ≠ [] := entryLines_ne_nil (by simp)
        simp only [List.map_cons, entryLines] at hmore ⊢
        rw [String.intercalate_cons_of_ne_nil hmore]
        simp only [comma, if_true, String.append_assoc]
      rw [hlines, hlines, List.flatMap_cons]
      exact ((hx true).front hpad).append (ih hrest (by simp))

/-- Entries between brackets that stand on lines of their own. -/
theorem lined_enclosed {opening closing : String} (hopening : '\n' ∉ opening.toList)
    (hclosing : '\n' ∉ closing.toList) (indent : Int)
    (h : ∀ x ∈ xs, EntryLined (e x) (bare x) (commented x)) :
    EntryLined ⟨enclosed opening closing indent (xs.map e), ""⟩
      ⟨enclosed opening closing indent (xs.map bare), ""⟩ (xs.flatMap commented) := by
  by_cases hne : xs = []
  · subst hne
    exact entryLined_plain (feed_not_mem_append hopening hclosing)
  · intro separated
    have hpad := feed_not_mem_spaces indent.toNat
    have htext (f : α → Entry) : enclosed opening closing indent (xs.map f) ++ comma separated =
        opening ++ "\n" ++
          ("\n".intercalate (entryLines (spaces indent.toNat ++ "  ") (xs.map f)) ++ "\n" ++
            (spaces indent.toNat ++ closing ++ comma separated)) := by
      have hlines : entryLines (spaces indent.toNat ++ "  ") (xs.map f) ≠ [] :=
        entryLines_ne_nil (by simpa using hne)
      have hsome : (xs.map f).isEmpty ≠ true := by simpa using hne
      rw [enclosed, if_neg hsome]
      show "\n".intercalate (opening :: (_ ++ [_])) ++ comma separated = _
      rw [String.intercalate_cons_of_ne_nil (by simp),
        String.intercalate_append_of_ne_nil hlines (by simp), String.intercalate_singleton]
      simp only [String.append_assoc]
    have hinside := lined_entryLines (feed_not_mem_append hpad (t := "  ") (by decide)) h hne
    have hlast := Lined.plain (feed_not_mem_append (feed_not_mem_append hpad hclosing)
      (feed_not_mem_comma separated))
    have hall := (Lined.plain hopening).append (hinside.append hlast)
    rw [htext, htext, String.append_empty, String.append_empty]
    simpa using hall

end Enclosed

/-- A member: its key keeps to the line. -/
theorem EntryLined.member {e bare : Entry} {commented : List Expression}
    (h : EntryLined e bare commented) (key : String) :
    EntryLined (memberEntry (key, e)) (memberEntry (key, bare)) commented := by
  intro separated
  have hkey : '\n' ∉ (quote key ++ " = ").toList :=
    feed_not_mem_append (feed_not_mem_quote key) (by decide)
  have hmember := (h separated).front hkey
  simpa only [memberEntry, String.append_assoc] using hmember

/-- An expression stands before the comma, and its comment behind it. -/
theorem entryLined_expression {e bare : Expression} (h : e.IsOneLine)
    (hbare : bare = ⟨e.text, ""⟩) :
    EntryLined ⟨e.text, e.remark⟩ ⟨bare.text, bare.remark⟩ ([e].filter Expression.isCommented) := by
  intro separated
  subst hbare
  have hremark : Expression.remark ⟨e.text, ""⟩ = "" := rfl
  rw [hremark, String.append_empty]
  exact .leaf h separated

/-- **The entry of a value, wherever its line starts.** -/
theorem lined_entry (value : Value) (h : ∀ e ∈ value.expressions, e.IsOneLine) (indent : Int) :
    EntryLined (entry indent value) (entry indent value.withoutComments)
      (value.expressions.filter Expression.isCommented) := by
  induction value using Value.induction generalizing indent with
  | null => exact entryLined_plain (by decide)
  | bool b => exact entryLined_plain (feed_not_mem_of_isWord (isWord_boolText b))
  | num n => exact entryLined_plain (feed_not_mem_of_isWord (isWord_numberText n))
  | str s => exact entryLined_plain (feed_not_mem_quote s)
  | expr e => exact entryLined_expression (h e List.mem_cons_self) rfl
  | described text comment =>
    exact entryLined_expression (h _ List.mem_cons_self) rfl
  | tuple items ih =>
    rw [expressions_tuple] at h ⊢
    rw [withoutComments, entry, entry, itemEntries_eq_map, itemsWithoutComments_eq_map,
      itemEntries_eq_map, List.map_map, List.filter_flatMap]
    refine lined_enclosed (by decide) (by decide) indent fun item hitem => ?_
    exact ih item hitem (fun e he => h e (List.mem_flatMap.2 ⟨item, hitem, he⟩)) (indent + 2)
  | object members ih =>
    rw [expressions_object] at h ⊢
    -- the members are sorted by their keys, which are the same without the comments
    have hperm := (sortOn_perm Prod.fst members).flatMap_right fun member =>
      member.2.expressions.filter Expression.isCommented
    rw [withoutComments, entry_object, entry_object, membersWithoutComments_eq_map, sortOn_map,
      List.map_map, List.filter_flatMap]
    refine (lined_enclosed (by decide) (by decide) indent fun member hmember => ?_).perm hperm
    rw [mem_sortOn] at hmember
    have hvalue := ih member hmember
      (fun e he => h e (List.mem_flatMap.2 ⟨member, hmember, he⟩)) (indent + 2)
    exact hvalue.member member.1

/-! ### Arguments of jsonencode -/

/-- **Where comments stand in an argument of `jsonencode`.** If no expression holds a line feed, the
text is put together of lines so that each comment ends a line, behind the comma if there is one.
Without the comments and the spaces before them, the lines are those of the value without
comments. -/
theorem comments_end_lines (value : Value) (h : ∀ e ∈ value.expressions, e.IsOneLine)
    (indent : Int) : ∃ lines : List Line,
      jsonText indent value = "\n".intercalate (lines.map Line.text) ∧
      jsonText indent value.withoutComments = "\n".intercalate (lines.map Line.code) ∧
      (∀ line ∈ lines, '\n' ∉ line.text.toList) ∧
      (lines.filterMap Line.expression?).Perm
        (value.expressions.filter Expression.isCommented) := by
  obtain ⟨lines, -, htext, hcode, hfeed, hlines⟩ := lined_entry value h indent false
  refine ⟨lines, ?_, ?_, hfeed, hlines⟩
  · rw [← htext]
    simp [jsonText, comma]
  · rw [← hcode]
    simp [jsonText, comma]

/-- An object whose members and items have comments in the first, a middle and the last place. -/
def remarkedObject : Value :=
  .object [("b", .tuple [.expr ⟨"x", "# first"⟩, .null, .expr ⟨"y", ""⟩, .expr ⟨"z", "# last"⟩]),
    ("c", .expr ⟨"w", "# behind"⟩), ("a", .expr ⟨"v", "# before"⟩)]

theorem comments_end_lines_remarkedObject :
    (∀ e ∈ remarkedObject.expressions, e.IsOneLine) ∧ ∃ lines : List Line,
      jsonText 2 remarkedObject = "\n".intercalate (lines.map Line.text) ∧
      jsonText 2 remarkedObject.withoutComments = "\n".intercalate (lines.map Line.code) ∧
      (∀ line ∈ lines, '\n' ∉ line.text.toList) ∧
      (lines.filterMap Line.expression?).Perm
        (remarkedObject.expressions.filter Expression.isCommented) :=
  have h : ∀ e ∈ remarkedObject.expressions, e.IsOneLine := by decide
  ⟨h, comments_end_lines remarkedObject h 2⟩

end Value

end Hcl
end HclExport
