import HclExport.Hcl.Block
import HclExport.Hcl.Writer
import HclExport.Proofs.Hcl.Lexical

/-!
# What is written is neutral

Values and items that are composed of neutral parts are written as neutral text: their brackets
and those of the blocks around them are closed, and a comment always ends its line.

## Main definitions

* `Expression.Tidy`, `Value.Tidy`, `Item.Tidy` — expressions, values and items composed of neutral
  parts.
* `TidyPairs` — attributes composed of neutral parts.
* `Writer.Adds` — a neutral text was written behind what was there.

## Main results

* `neutral_quoteValue`, `neutral_jsonText` — values as literals.
* `Item.Tidy.adds` — what a tidy item adds to a writer.
* `neutral_renderAll` — the text of tidy items.
* `isLine_sortBlocks` — blocks in order.
-/

namespace HclExport
namespace Hcl

/-! ### Values on one line -/

theorem neutral_numberText (n : Number) : Neutral (numberText n) :=
  neutral_of_isWord (isWord_numberText n)

theorem neutral_boolText (b : Bool) : Neutral (boolText b) :=
  neutral_of_isWord (isWord_boolText b)

theorem neutral_comma : Neutral ", " :=
  neutral_of_inert (by decide)

mutual

/-- A value as a literal on one line is neutral. -/
theorem neutral_quoteValue (value : Json) : Neutral (quoteValue value) := by
  unfold quoteValue
  cases value with
  | null =>
    unfold Json.textBy
    exact neutral_of_inert (by decide)
  | bool b =>
    unfold Json.textBy
    split
    · exact neutral_of_inert (by decide)
    · exact neutral_of_inert (by decide)
  | num n =>
    unfold Json.textBy
    exact neutral_of_isWord n.isWord_jsonText
  | str s =>
    unfold Json.textBy
    exact neutral_quote s
  | arr items =>
    unfold Json.textBy
    exact encloses_brackets _ (neutral_intercalate neutral_comma (neutral_itemTexts items))
  | obj members =>
    unfold Json.textBy
    exact encloses_braces _ (neutral_intercalate neutral_comma (neutral_memberTexts members))

theorem neutral_itemTexts (items : List Json) :
    ∀ text ∈ Json.itemTextsBy quote items, Neutral text := by
  cases items with
  | nil => simp [Json.itemTextsBy]
  | cons item rest =>
    unfold Json.itemTextsBy
    exact List.forall_mem_cons.2 ⟨neutral_quoteValue item, neutral_itemTexts rest⟩

theorem neutral_memberTexts (members : List (String × Json)) :
    ∀ text ∈ Json.memberTextsBy quote members, Neutral text := by
  cases members with
  | nil => simp [Json.memberTextsBy]
  | cons member rest =>
    obtain ⟨key, value⟩ := member
    unfold Json.memberTextsBy
    refine List.forall_mem_cons.2 ⟨?_, neutral_memberTexts rest⟩
    exact ((neutral_quote key).append (neutral_of_inert (by decide))).append
      (neutral_quoteValue value)

end

/-! ### Lines in brackets -/

/-- Lines, each with a line feed behind it. -/
def linesText (lines : List String) : String :=
  lines.foldr (fun line rest => line ++ "\n" ++ rest) ""

@[simp] theorem linesText_nil : linesText [] = "" := rfl

@[simp] theorem linesText_cons (line : String) (rest : List String) :
    linesText (line :: rest) = line ++ "\n" ++ linesText rest := rfl

theorem linesText_append (lines more : List String) :
    linesText (lines ++ more) = linesText lines ++ linesText more := by
  induction lines with
  | nil => simp
  | cons line rest ih =>
    simp only [List.cons_append, linesText_cons, ih, String.append_assoc]

theorem toList_linesText (lines : List String) :
    (linesText lines).toList = lines.flatMap fun line => line.toList ++ ['\n'] := by
  have hfeed : "\n".toList = ['\n'] := by decide
  induction lines with
  | nil => rfl
  | cons line rest ih =>
    rw [linesText_cons, String.toList_append, String.toList_append, ih, hfeed, List.flatMap_cons]

theorem neutral_linesText {lines : List String} (h : ∀ line ∈ lines, IsLine line) :
    Neutral (linesText lines) := by
  induction lines with
  | nil => exact neutral_empty
  | cons line rest ih =>
    obtain ⟨hline, hrest⟩ := List.forall_mem_cons.1 h
    exact Neutral.append hline (ih hrest)

theorem intercalate_append_singleton (lines : List String) (last : String) :
    "\n".intercalate (lines ++ [last]) = linesText lines ++ last := by
  induction lines with
  | nil => simp
  | cons line rest ih =>
    rw [List.cons_append, String.intercalate_cons_of_ne_nil (by simp), ih]
    simp only [linesText_cons, String.append_assoc]

/-- Lines between brackets are neutral. -/
theorem neutral_bracketed {opening closing : String} (h : Encloses opening closing)
    {lines : List String} (hlines : ∀ line ∈ lines, IsLine line) (pad : Nat) :
    Neutral ("\n".intercalate (opening :: lines ++ [spaces pad ++ closing])) := by
  rw [intercalate_append_singleton, linesText_cons]
  have hinside : Neutral ("\n" ++ linesText lines ++ spaces pad) :=
    (neutral_lineFeed.append (neutral_linesText hlines)).append (neutral_spaces pad)
  simpa only [String.append_assoc] using h _ hinside

/-! ### Expressions and values -/

/-- An expression whose text is neutral and whose comment keeps to its line. -/
structure Expression.Tidy (e : Expression) : Prop where
  text : Neutral e.text
  remark : IsLine e.remark

theorem Expression.Tidy.isLine_render {e : Expression} (h : e.Tidy) : IsLine e.render := by
  unfold Expression.render Expression.renderBefore
  exact (h.text.append neutral_empty).append_isLine h.remark

/-- An expression without a comment. -/
theorem Expression.tidy_of_neutral {text : String} (h : Neutral text) :
    Expression.Tidy { text := text } :=
  ⟨h, neutral_empty.isLine⟩

/-- An expression with a comment that holds no line feed. -/
theorem Expression.tidy_of_comment {text comment : String} (h : Neutral text)
    (hsign : comment.toList.head? = some '#') (hfeed : '\n' ∉ comment.toList) :
    Expression.Tidy ⟨text, comment⟩ := by
  refine ⟨h, ?_⟩
  have hne : comment ≠ "" := by
    rintro rfl
    cases hsign
  unfold Expression.remark
  rw [if_neg hne]
  exact Neutral.append_isLine (neutral_of_inert (by decide)) (isLine_comment hsign hfeed)

/-- A value all of whose expressions are tidy. -/
inductive Value.Tidy : Value → Prop
  | null : Tidy .null
  | bool (b : Bool) : Tidy (.bool b)
  | num (n : Number) : Tidy (.num n)
  | str (s : String) : Tidy (.str s)
  | expr {e : Expression} (h : e.Tidy) : Tidy (.expr e)
  | described {text comment : Json} (h : (Expression.ofParts text comment).Tidy) :
    Tidy (.described text comment)
  | tuple {items : List Value} (h : ∀ item ∈ items, Tidy item) : Tidy (.tuple items)
  | object {members : List (String × Value)} (h : ∀ member ∈ members, Tidy member.2) :
    Tidy (.object members)

namespace Value

mutual

/-- A value without expressions is tidy. -/
theorem tidy_ofJson (value : Json) : (ofJson value).Tidy := by
  cases value with
  | null =>
    unfold ofJson
    exact .null
  | bool b =>
    unfold ofJson
    exact .bool b
  | num n =>
    unfold ofJson
    exact .num n
  | str s =>
    unfold ofJson
    exact .str s
  | arr items =>
    unfold ofJson
    exact .tuple (tidy_ofItems items)
  | obj members =>
    unfold ofJson
    exact .object (tidy_ofMembers members)

theorem tidy_ofItems (items : List Json) : ∀ item ∈ ofItems items, item.Tidy := by
  cases items with
  | nil => simp [ofItems]
  | cons item rest =>
    unfold ofItems
    exact List.forall_mem_cons.2 ⟨tidy_ofJson item, tidy_ofItems rest⟩

theorem tidy_ofMembers (members : List (String × Json)) :
    ∀ member ∈ ofMembers members, member.2.Tidy := by
  cases members with
  | nil => simp [ofMembers]
  | cons member rest =>
    unfold ofMembers
    exact List.forall_mem_cons.2 ⟨tidy_ofJson member.2, tidy_ofMembers rest⟩

end

/-- An entry whose text is neutral and whose remark keeps to its line. -/
structure Entry.Tidy (e : Entry) : Prop where
  text : Neutral e.text
  remark : IsLine e.remark

theorem itemEntries_eq_map (indent : Int) (items : List Value) :
    itemEntries indent items = items.map (entry indent) := by
  induction items with
  | nil => simp [itemEntries]
  | cons item rest ih => simp [itemEntries, ih]

theorem memberEntries_eq_map (indent : Int) (members : List (String × Value)) :
    memberEntries indent members = members.map fun m => (m.1, entry indent m.2) := by
  induction members with
  | nil => simp [memberEntries]
  | cons member rest ih =>
    obtain ⟨key, value⟩ := member
    simp [memberEntries, ih]

/-- The members of an object are listed in the order of their keys. -/
theorem entry_object (indent : Int) (members : List (String × Value)) :
    entry indent (.object members) = ⟨enclosed "\x7b" "\x7d" indent ((sortOn Prod.fst members).map
      fun m => memberEntry (m.1, entry (indent + 2) m.2)), ""⟩ := by
  rw [entry, memberEntries_eq_map, sortOn_map, List.map_map]
  rfl

/-- A remark stands behind the comma, so that it does not swallow it. -/
theorem isLine_entryLines (pad : Nat) {entries : List Entry} (h : ∀ e ∈ entries, e.Tidy) :
    ∀ line ∈ entryLines (spaces pad ++ "  ") entries, IsLine line := by
  have hpad : Neutral (spaces pad ++ "  ") :=
    (neutral_spaces pad).append (neutral_of_inert (by decide))
  induction entries with
  | nil => simp [entryLines]
  | cons e rest ih =>
    obtain ⟨he, hrest⟩ := List.forall_mem_cons.1 h
    cases rest with
    | nil =>
      intro line hline
      obtain rfl := List.mem_singleton.1 hline
      exact (hpad.append he.text).append_isLine he.remark
    | cons second rest =>
      refine List.forall_mem_cons.2 ⟨?_, ih hrest⟩
      exact ((hpad.append he.text).append (neutral_of_inert (by decide))).append_isLine he.remark

theorem neutral_enclosed {opening closing : String} (h : Encloses opening closing) (indent : Int)
    {entries : List Entry} (hentries : ∀ e ∈ entries, e.Tidy) :
    Neutral (enclosed opening closing indent entries) := by
  unfold enclosed
  split
  · simpa using h "" neutral_empty
  · exact neutral_bracketed h (isLine_entryLines _ hentries) _

theorem memberEntry_tidy {member : String × Entry} (h : member.2.Tidy) :
    (memberEntry member).Tidy :=
  ⟨((neutral_quote _).append (neutral_of_inert (by decide))).append h.text, h.remark⟩

/-- The entry of a tidy value, wherever its line starts. -/
theorem Tidy.entry {value : Value} (h : value.Tidy) (indent : Int) :
    (Value.entry indent value).Tidy := by
  have hnone : IsLine "" := neutral_empty.isLine
  induction h generalizing indent with
  | null =>
    unfold Value.entry
    exact ⟨neutral_of_inert (by decide), hnone⟩
  | bool b => exact ⟨neutral_boolText b, hnone⟩
  | num n => exact ⟨neutral_numberText n, hnone⟩
  | str s => exact ⟨neutral_quote s, hnone⟩
  | expr h => exact ⟨h.text, h.remark⟩
  | described h => exact ⟨h.text, h.remark⟩
  | @tuple items h ih =>
    unfold Value.entry
    refine ⟨neutral_enclosed encloses_brackets indent ?_, hnone⟩
    rw [itemEntries_eq_map]
    exact List.forall_mem_map.2 fun item hitem => ih item hitem (indent + 2)
  | @object members h ih =>
    unfold Value.entry
    refine ⟨neutral_enclosed encloses_braces indent ?_, hnone⟩
    refine List.forall_mem_map.2 fun member hmember => memberEntry_tidy ?_
    rw [(sortOn_perm _ _).mem_iff, memberEntries_eq_map] at hmember
    obtain ⟨original, horiginal, rfl⟩ := List.mem_map.1 hmember
    exact ih original horiginal (indent + 2)

/-- The argument of an encoding is neutral if no remark stands at its end. -/
theorem Tidy.neutral_jsonText {value : Value} (h : value.Tidy) {indent : Int}
    (hremark : (Value.entry indent value).remark = "") : Neutral (value.jsonText indent) := by
  unfold jsonText
  rw [hremark]
  exact (h.entry indent).text.append neutral_empty

theorem neutral_jsonText_object {members : List (String × Value)}
    (h : ∀ member ∈ members, member.2.Tidy) (indent : Int) :
    Neutral ((Value.object members).jsonText indent) :=
  (Tidy.object h).neutral_jsonText (by unfold Value.entry; rfl)

theorem neutral_jsonText_ofJson (value : Json) (indent : Int) :
    Neutral ((ofJson value).jsonText indent) := by
  refine (tidy_ofJson value).neutral_jsonText ?_
  cases value with
  | _ => simp [ofJson, Value.entry]

end Value

/-! ### Items -/

/-- Attributes with neutral keys, whose values keep to their lines. -/
def TidyPairs (pairs : List (String × String)) : Prop :=
  ∀ pair ∈ pairs, Neutral pair.1 ∧ IsLine pair.2

/-- An item composed of neutral parts. -/
inductive Item.Tidy : Item → Prop
  | line {text : String} (h : IsLine text) : Tidy (.line text)
  | blank : Tidy .blank
  | assign {key value : String} (hkey : Neutral key) (hvalue : IsLine value) :
    Tidy (.assign key value)
  | assignAll {pairs : List (String × String)} (h : TidyPairs pairs) : Tidy (.assignAll pairs)
  | json {key : String} {value : Value} (hkey : Neutral key)
      (hvalue : ∀ indent, Neutral (value.jsonText indent)) : Tidy (.json key value)
  | native {key : String} {value : Value} (hkey : Neutral key)
      (hvalue : ∀ indent, IsLine (value.nativeText indent)) : Tidy (.native key value)
  | block {header opener closer : String} {body : List Item} (hheader : Neutral header)
      (hencloses : Encloses opener closer) (hbody : ∀ item ∈ body, Tidy item) :
    Tidy (.block header opener closer body)

/-- The lines written so far, each with a line feed behind it. -/
def Writer.text (w : Writer) : String :=
  linesText w.written.reverse

/-- A neutral text was written behind what was there, and the same blocks are open. -/
structure Writer.Adds (w next : Writer) : Prop where
  closers : next.closers = w.closers
  text : ∃ more, Neutral more ∧ next.text = w.text ++ more

namespace Writer

theorem Adds.refl (w : Writer) : w.Adds w :=
  ⟨rfl, "", neutral_empty, by simp⟩

theorem Adds.trans {w mid next : Writer} (h : w.Adds mid) (h' : mid.Adds next) : w.Adds next := by
  obtain ⟨hclosers, first, hfirst, htext⟩ := h
  obtain ⟨hclosers', second, hsecond, htext'⟩ := h'
  refine ⟨hclosers'.trans hclosers, first ++ second, hfirst.append hsecond, ?_⟩
  rw [htext', htext, String.append_assoc]

/-- A line as it stands in a text, in a given column; an empty one is not indented. -/
def indented (column : Nat) (text : String) : String :=
  if text = "" then "" else spaces column ++ text

@[simp] theorem indented_empty (column : Nat) : indented column "" = "" := if_pos rfl

theorem indented_of_ne {text : String} (h : text ≠ "") (column : Nat) :
    indented column text = spaces column ++ text := if_neg h

theorem indented_eq_empty_iff {column : Nat} {text : String} :
    indented column text = "" ↔ text = "" := by
  unfold indented
  split
  next h => simp [h]
  next h => simp [h, String.append_eq_empty_iff]

theorem indented_inj {column : Nat} {text other : String}
    (h : indented column text = indented column other) : text = other := by
  by_cases htext : text = ""
  · have hempty : indented column other = "" := by
      rw [← h]
      exact indented_eq_empty_iff.2 htext
    rw [htext, indented_eq_empty_iff.1 hempty]
  · have hother : other ≠ "" := by
      intro hempty
      rw [indented_eq_empty_iff.2 hempty] at h
      exact htext (indented_eq_empty_iff.1 h)
    rw [indented_of_ne htext, indented_of_ne hother] at h
    exact (String.append_right_inj _).1 h

theorem text_line (text : String) (w : Writer) :
    (w.line text).text = w.text ++ (indented w.column text ++ "\n") := by
  unfold Writer.text line indented
  rw [List.reverse_cons, linesText_append, linesText_cons, linesText_nil, String.append_empty]

/-- A line is written with an indentation, but with none outside of all blocks. -/
theorem exists_text_line (text : String) (w : Writer) :
    ∃ front, Neutral front ∧ (w.closers = [] → front = "") ∧
      (w.line text).text = w.text ++ (front ++ text ++ "\n") := by
  rw [text_line]
  by_cases hempty : text = ""
  · exact ⟨"", neutral_empty, fun _ => rfl, by rw [hempty, indented_empty]; rfl⟩
  · refine ⟨spaces w.column, neutral_spaces _, ?_, by rw [indented_of_ne hempty]⟩
    intro houtside
    rw [column, houtside]
    rfl

theorem adds_line {text : String} (h : IsLine text) (w : Writer) : w.Adds (w.line text) := by
  obtain ⟨front, hfront, -, htext⟩ := exists_text_line text w
  refine ⟨rfl, _, ?_, htext⟩
  rw [String.append_assoc]
  exact hfront.append h

theorem adds_blank (w : Writer) : w.Adds w.blank := by
  unfold blank
  split
  · exact .refl w
  · split
    · exact .refl w
    · exact adds_line neutral_empty.isLine w

theorem adds_assign {key value : String} (hkey : Neutral key) (hvalue : IsLine value)
    (w : Writer) : w.Adds (w.assign key value) :=
  adds_line ((hkey.append (neutral_of_inert (by decide))).append_isLine hvalue) w

theorem adds_assignAll {pairs : List (String × String)} (h : TidyPairs pairs) (w : Writer) :
    w.Adds (w.assignAll pairs) := by
  unfold assignAll
  generalize keyWidth pairs = width
  induction pairs generalizing w with
  | nil => exact .refl w
  | cons pair rest ih =>
    obtain ⟨⟨hkey, hvalue⟩, hrest⟩ := List.forall_mem_cons.1 h
    rw [List.foldl_cons]
    refine Adds.trans (adds_line ?_ w) (ih hrest _)
    exact ((hkey.padRight width).append (neutral_of_inert (by decide))).append_isLine hvalue

/-- What stands on the line that opens a block, up to the opener. -/
def blockHead (header : String) : String :=
  if header = "" then "" else header ++ " "

theorem neutral_blockHead {header : String} (h : Neutral header) : Neutral (blockHead header) := by
  unfold blockHead
  split
  · exact neutral_empty
  · exact h.append (neutral_of_inert (by decide))

/-- The text of a block: an indentation, the header, and what is inside between opener and
closer. -/
theorem exists_text_block {header opener closer : String} {w inside : Writer}
    (h : (w.enter header opener closer).Adds inside) :
    inside.leave.closers = w.closers ∧ ∃ front body, Neutral front ∧
      (w.closers = [] → front = "") ∧ Neutral body ∧
      inside.leave.text =
        w.text ++ (front ++ blockHead header ++ (opener ++ body ++ closer) ++ "\n") := by
  obtain ⟨hclosers, more, hmore, htext⟩ := h
  have hline : (if header = "" then opener else header ++ " " ++ opener) =
      blockHead header ++ opener := by
    by_cases hempty : header = ""
    · simp [blockHead, hempty]
    · rw [blockHead, if_neg hempty, if_neg hempty]
  obtain ⟨front, hfront, houtside, hopen⟩ := exists_text_line (blockHead header ++ opener) w
  have hentered : (w.enter header opener closer).text =
      w.text ++ (front ++ (blockHead header ++ opener) ++ "\n") := by
    unfold enter
    rw [hline]
    exact hopen
  have hleave : inside.leave = ({ inside with closers := w.closers } : Writer).line closer := by
    unfold leave
    rw [hclosers]
    rfl
  obtain ⟨indent, hindent, -, hclose⟩ :=
    exists_text_line closer ({ inside with closers := w.closers } : Writer)
  refine ⟨by rw [hleave]; rfl, front, "\n" ++ more ++ indent, hfront, houtside,
    (neutral_lineFeed.append hmore).append hindent, ?_⟩
  have hinside : ({ inside with closers := w.closers } : Writer).text = inside.text := rfl
  rw [hleave, hclose, hinside, htext, hentered]
  simp only [String.append_assoc]

/-- A block around what is added inside. -/
theorem adds_block {header opener closer : String} (hheader : Neutral header)
    (hencloses : Encloses opener closer) {w inside : Writer}
    (h : (w.enter header opener closer).Adds inside) : w.Adds inside.leave := by
  obtain ⟨hclosers, front, body, hfront, -, hbody, htext⟩ := exists_text_block h
  exact ⟨hclosers, _, ((hfront.append (neutral_blockHead hheader)).append
    (hencloses body hbody)).append neutral_lineFeed, htext⟩

/-- The text of what was written, unless nothing was. -/
theorem render_eq_text {w : Writer} (h : w.written ≠ []) : w.render = w.text := by
  obtain ⟨last, rest, hwritten⟩ := List.exists_cons_of_ne_nil h
  unfold render text
  rw [hwritten, List.reverse_cons, intercalate_append_singleton, linesText_append]
  simp [String.append_assoc]

end Writer

namespace Item

theorem adds_writeAll {items : List Item} (h : ∀ item ∈ items, ∀ w, Writer.Adds w (write w item))
    (w : Writer) : w.Adds (writeAll w items) := by
  induction items generalizing w with
  | nil =>
    unfold writeAll
    exact .refl w
  | cons item rest ih =>
    obtain ⟨hitem, hrest⟩ := List.forall_mem_cons.1 h
    unfold writeAll
    exact (hitem w).trans (ih hrest _)

/-- What a tidy item adds to a writer. -/
theorem Tidy.adds {item : Item} (h : item.Tidy) (w : Writer) : w.Adds (write w item) := by
  induction h generalizing w with
  | line h =>
    unfold write
    exact Writer.adds_line h w
  | blank =>
    unfold write
    exact Writer.adds_blank w
  | assign hkey hvalue =>
    unfold write
    exact Writer.adds_assign hkey hvalue w
  | assignAll h =>
    unfold write
    exact Writer.adds_assignAll h w
  | json hkey hvalue =>
    unfold write
    refine Writer.adds_line (Neutral.isLine ?_) w
    have hencoded := (hkey.append (neutral_of_inert (s := " = jsonencode") (by decide))).append
      (encloses_parentheses _ (hvalue w.column))
    have hopen : " = jsonencode(" = " = jsonencode" ++ "(" := by decide
    rw [hopen]
    simpa only [String.append_assoc] using hencoded
  | native hkey hvalue =>
    unfold write
    exact Writer.adds_line ((hkey.append (neutral_of_inert (by decide))).append_isLine (hvalue _)) w
  | block hheader hencloses _ ih =>
    unfold write
    exact Writer.adds_block hheader hencloses (adds_writeAll ih _)

/-- The text of tidy items is neutral. -/
theorem neutral_renderAll {items : List Item} (h : ∀ item ∈ items, item.Tidy) :
    Neutral (renderAll items) := by
  obtain ⟨-, more, hmore, htext⟩ := adds_writeAll (fun item hitem => (h item hitem).adds) {}
  unfold renderAll
  by_cases hempty : (writeAll {} items).written = []
  · unfold Writer.render
    rw [hempty]
    exact neutral_lineFeed
  · rw [Writer.render_eq_text hempty, htext]
    exact neutral_empty.append hmore

end Item

/-! ### Blocks in order -/

/-- Texts with an empty line between them. -/
theorem isLine_intercalate {parts : List String} (h : ∀ part ∈ parts, IsLine part) :
    IsLine ("\n\n".intercalate parts) := by
  have hfeeds : "\n\n" = "\n" ++ "\n" := by decide
  induction parts with
  | nil =>
    rw [String.intercalate_nil]
    exact neutral_empty.isLine
  | cons first rest ih =>
    obtain ⟨hfirst, hrest⟩ := List.forall_mem_cons.1 h
    cases rest with
    | nil =>
      rw [String.intercalate_singleton]
      exact hfirst
    | cons second rest =>
      rw [String.intercalate_cons_cons]
      have hfront : Neutral (first ++ "\n\n") := by
        rw [hfeeds, ← String.append_assoc]
        exact Neutral.append hfirst neutral_lineFeed
      exact hfront.append_isLine (ih hrest)

/-- Blocks in order, without the blanks at their ends. -/
theorem isLine_sortBlocks {blocks : List String} (h : ∀ block ∈ blocks, Neutral block) :
    IsLine (sortBlocks blocks) := by
  refine isLine_intercalate (List.forall_mem_map.2 fun block hblock =>
    isLine_trimRight (h block ?_))
  rw [(sortOn_perm sortName _).mem_iff] at hblock
  exact (List.mem_filter.1 hblock).1

end Hcl
end HclExport
