import HclExport.Hcl.Block
import Mathlib.Data.List.Infix
import Mathlib.Data.List.TakeWhile

/-!
# Headers of blocks

Writing never takes a line back, so a block starts with its header; and the header is found
in any text that the block becomes part of.

## Main definitions

* `Item.blocks` — blocks with an empty line between them.

## Main results

* `Item.written_write` — the lines that were written stay.
* `header_prefix_renderAll` — a block starts with its header.
* `Item.header_infix_renderAll` — the header of a block stands in the text.
* `infix_intercalate`, `infix_sortBlocks` — parts of texts that are put together.
-/

namespace HclExport
namespace Hcl

/-! ### Lines stay -/

namespace Writer

theorem written_line (text : String) (w : Writer) : w.written <:+ (w.line text).written :=
  List.suffix_cons _ _

theorem written_blank (w : Writer) : w.written <:+ w.blank.written := by
  unfold blank
  split
  · exact List.suffix_refl _
  · split
    · exact List.suffix_refl _
    · exact written_line "" w

theorem written_assignAll (pairs : List (String × String)) (w : Writer) :
    w.written <:+ (w.assignAll pairs).written := by
  unfold assignAll
  -- the width is that of all pairs, also for those that are left
  generalize keyWidth pairs = width
  induction pairs generalizing w with
  | nil => exact List.suffix_refl _
  | cons pair rest ih => exact (written_line _ w).trans (ih _)

theorem written_leave (w : Writer) : w.written <:+ w.leave.written := by
  unfold leave
  split
  · exact List.suffix_refl _
  · exact List.suffix_cons _ _

end Writer

namespace Item

mutual

/-- The lines that were written stay, whatever item follows. -/
theorem written_write (w : Writer) (item : Item) : w.written <:+ (write w item).written := by
  cases item with
  | line text => exact Writer.written_line text w
  | blank => exact Writer.written_blank w
  | assign key value => exact Writer.written_line _ w
  | assignAll pairs => exact Writer.written_assignAll pairs w
  | json key value => exact Writer.written_line _ w
  | native key value => exact Writer.written_line _ w
  | block header opener closer body =>
    have hinside := written_writeAll (w.enter header opener closer) body
    exact (Writer.written_line _ w).trans (hinside.trans (Writer.written_leave _))

theorem written_writeAll (w : Writer) (items : List Item) :
    w.written <:+ (writeAll w items).written := by
  cases items with
  | nil => exact List.suffix_refl _
  | cons item rest => exact (written_write w item).trans (written_writeAll (write w item) rest)

end

end Item

/-! ### Open blocks -/

namespace Item

mutual

/-- Whatever item is written, the same blocks are open as before. -/
theorem closers_write (w : Writer) (item : Item) : (write w item).closers = w.closers := by
  cases item with
  | line text => rfl
  | blank =>
    unfold write Writer.blank
    split
    · rfl
    · split <;> rfl
  | assign key value => rfl
  | assignAll pairs =>
    unfold write Writer.assignAll
    generalize Writer.keyWidth pairs = width
    induction pairs generalizing w with
    | nil => rfl
    | cons pair rest ih => exact ih _
  | json key value => rfl
  | native key value => rfl
  | block header opener closer body =>
    have hinside := closers_writeAll (w.enter header opener closer) body
    unfold write Writer.leave
    rw [hinside]
    rfl

theorem closers_writeAll (w : Writer) (items : List Item) :
    (writeAll w items).closers = w.closers := by
  cases items with
  | nil => rfl
  | cons item rest => exact (closers_writeAll (write w item) rest).trans (closers_write w item)

end

theorem writeAll_append (w : Writer) (items more : List Item) :
    writeAll w (items ++ more) = writeAll (writeAll w items) more := by
  induction items generalizing w with
  | nil => rfl
  | cons item rest ih => exact ih _

/-- The last line of a block is its closer, outside of all blocks. -/
theorem written_writeAll_braced (items : List Item) (header : String) (body : List Item) :
    ∃ lines, (writeAll {} (items ++ [braced header body])).written = "\x7d" :: lines := by
  have hclosers := closers_writeAll {} items
  have hinside := closers_writeAll ((writeAll {} items).enter header "\x7b" "\x7d") body
  rw [writeAll_append]
  refine ⟨(writeAll ((writeAll {} items).enter header "\x7b" "\x7d") body).written, ?_⟩
  show (Writer.leave (writeAll ((writeAll {} items).enter header "\x7b" "\x7d") body)).written = _
  have hopen : (writeAll ((writeAll {} items).enter header "\x7b" "\x7d") body).closers = ["\x7d"] := by
    rw [hinside]
    exact congrArg _ hclosers
  unfold Writer.leave
  rw [hopen]
  rfl

end Item

/-! ### Parts of texts -/

theorem prefix_intercalate (separator first : String) (rest : List String) :
    first.toList <+: (separator.intercalate (first :: rest)).toList := by
  cases rest with
  | nil => rw [String.intercalate_singleton]
  | cons second rest =>
    rw [String.intercalate_cons_cons, String.toList_append, String.toList_append,
      List.append_assoc]
    exact List.prefix_append _ _

theorem infix_intercalate (separator : String) {part : String} {parts : List String}
    (h : part ∈ parts) : part.toList <:+: (separator.intercalate parts).toList := by
  induction parts with
  | nil => cases h
  | cons first rest ih =>
    rcases List.mem_cons.1 h with rfl | h
    · exact (prefix_intercalate separator part rest).isInfix
    · rw [String.intercalate_cons_of_ne_nil (List.ne_nil_of_mem h), String.toList_append]
      exact (ih h).trans (List.suffix_append _ _).isInfix

/-- A block starts with its header. -/
theorem header_prefix_renderAll {header : String} (h : header ≠ "") (body more : List Item) :
    header.toList <+: (Item.renderAll (.braced header body :: more)).toList := by
  have hwritten : [header ++ " \x7b"] <:+
      (Item.writeAll {} (.braced header body :: more)).written := by
    have hline : (Writer.enter header "\x7b" "\x7d" {}).written = [header ++ " \x7b"] := by
      simp [Writer.enter, Writer.line, Writer.column, h, spaces, String.append_assoc]
    rw [← hline]
    exact ((Item.written_writeAll _ body).trans (Writer.written_leave _)).trans
      (Item.written_writeAll _ more)
  obtain ⟨before, hbefore⟩ := hwritten
  unfold Item.renderAll Writer.render
  rw [← hbefore, List.reverse_append, String.toList_append]
  refine List.IsPrefix.trans ?_ (List.prefix_append _ _)
  refine List.IsPrefix.trans ?_ (prefix_intercalate "\n" (header ++ " \x7b") before.reverse)
  rw [String.toList_append]
  exact List.prefix_append _ _

/-! ### Blocks with an empty line between them -/

namespace Item

/-- Blocks with headers and bodies, and an empty line between them. -/
def blocks : List (String × List Item) → List Item
  | [] => []
  | [part] => [braced part.1 part.2]
  | part :: rest => braced part.1 part.2 :: .blank :: blocks rest

theorem mem_blocks {parts : List (String × List Item)} {item : Item} (h : item ∈ blocks parts) :
    item = .blank ∨ ∃ part ∈ parts, item = braced part.1 part.2 := by
  induction parts with
  | nil => cases h
  | cons part rest ih =>
    cases rest with
    | nil => exact Or.inr ⟨part, List.mem_singleton_self part, List.mem_singleton.1 h⟩
    | cons second rest =>
      rcases List.mem_cons.1 h with rfl | h
      · exact Or.inr ⟨part, List.mem_cons_self, rfl⟩
      rcases List.mem_cons.1 h with rfl | h
      · exact Or.inl rfl
      rcases ih h with hblank | ⟨found, hfound, hitem⟩
      · exact Or.inl hblank
      · exact Or.inr ⟨found, List.mem_cons_of_mem part hfound, hitem⟩

theorem braced_mem_blocks {parts : List (String × List Item)} {part : String × List Item}
    (h : part ∈ parts) : braced part.1 part.2 ∈ blocks parts := by
  induction parts with
  | nil => cases h
  | cons first rest ih =>
    cases rest with
    | nil =>
      rw [List.mem_singleton.1 h]
      exact List.mem_singleton_self _
    | cons second rest =>
      rcases List.mem_cons.1 h with rfl | h
      · exact List.mem_cons_self
      · exact List.mem_cons_of_mem _ (List.mem_cons_of_mem _ (ih h))

theorem exists_blocks_eq {parts : List (String × List Item)} (hne : parts ≠ []) :
    ∃ items header body, blocks parts = items ++ [braced header body] := by
  induction parts with
  | nil => exact absurd rfl hne
  | cons part rest ih =>
    cases rest with
    | nil => exact ⟨[], part.1, part.2, rfl⟩
    | cons second rest =>
      obtain ⟨items, header, body, hblocks⟩ := ih (by simp)
      refine ⟨braced part.1 part.2 :: .blank :: items, header, body, ?_⟩
      rw [blocks, hblocks]
      · rfl
      · simp

/-- The header of a block stands on a line. -/
theorem exists_line_of_mem {header : String} (hne : header ≠ "") {body items : List Item}
    (h : braced header body ∈ items) (w : Writer) :
    ∃ line ∈ (writeAll w items).written, header.toList <:+: line.toList := by
  induction items generalizing w with
  | nil => cases h
  | cons item rest ih =>
    rcases List.mem_cons.1 h with rfl | h
    · let line := spaces w.column ++ (header ++ " " ++ "\x7b")
      have hline : line ∈ (w.enter header "\x7b" "\x7d").written := by
        simp [line, Writer.enter, Writer.line, hne]
      have hstays : (w.enter header "\x7b" "\x7d").written <:+
          (writeAll w (braced header body :: rest)).written :=
        ((written_writeAll _ body).trans (Writer.written_leave _)).trans (written_writeAll _ rest)
      refine ⟨line, hstays.subset hline, (spaces w.column).toList, (" " ++ "\x7b").toList, ?_⟩
      simp only [line, String.toList_append, List.append_assoc]
    · exact ih h _

/-- The header of a block stands in the text. -/
theorem header_infix_renderAll {header : String} (hne : header ≠ "") {body items : List Item}
    (h : braced header body ∈ items) : header.toList <:+: (renderAll items).toList := by
  obtain ⟨line, hline, hheader⟩ := exists_line_of_mem hne h {}
  unfold renderAll Writer.render
  rw [String.toList_append]
  exact (hheader.trans (infix_intercalate "\n" (List.mem_reverse.2 hline))).trans
    (List.prefix_append _ _).isInfix

end Item

/-! ### Blocks in order -/

/-- What ends with a character that stays is not touched when blanks are dropped behind it. -/
theorem prefix_trimRightOf {drop : Char → Bool} {front : List Char} {c : Char} {cs : List Char}
    (hc : drop c = false) (h : front ++ [c] <+: cs) : front ++ [c] <+: trimRightOf drop cs := by
  obtain ⟨tail, rfl⟩ := h
  have hreverse : (front ++ [c] ++ tail).reverse = tail.reverse ++ (c :: front.reverse) := by simp
  unfold trimRightOf
  rw [hreverse, List.dropWhile_append]
  split
  · rw [List.dropWhile_cons_of_neg (by simp [hc])]
    simp
  · simp

/-- Blanks are dropped behind what ends with a character that stays. -/
theorem trimRight_append_blanks {s blanks : String} {c : Char} (hlast : s.toList.getLast? = some c)
    (hc : isBlank c = false) (hblanks : blanks.toList.all isBlank = true) :
    trimRight (s ++ blanks) = s := by
  obtain ⟨front, hfront⟩ := List.getLast?_eq_some_iff.1 hlast
  have hreverse : (s ++ blanks).toList.reverse =
      blanks.toList.reverse ++ (c :: front.reverse) := by
    rw [String.toList_append, hfront]
    simp
  have hdrop : ∀ blank ∈ blanks.toList.reverse, isBlank blank = true := by
    intro blank hblank
    exact List.all_eq_true.1 hblanks blank (List.mem_reverse.1 hblank)
  rw [trimRight, trimRightOf, hreverse, List.dropWhile_append_of_pos hdrop,
    List.dropWhile_cons_of_neg (by simp [hc]), List.reverse_cons, List.reverse_reverse, ← hfront,
    String.ofList_toList]

theorem trim_ne_empty {s : String} {c : Char} (hc : isBlank c = false) (h : c ∈ s.toList) :
    trim s ≠ "" := by
  -- the character survives the first trimming, and a text that holds it survives the second
  have hleft : c ∈ s.toList.dropWhile isBlank := by
    rw [← List.takeWhile_append_dropWhile (p := isBlank) (l := s.toList), List.mem_append] at h
    rcases h with h | h
    · have := List.mem_takeWhile_imp h
      rw [hc] at this
      cases this
    · exact h
  intro hempty
  unfold trim trimRightOf at hempty
  have hnil : (s.toList.dropWhile isBlank).reverse.dropWhile isBlank = [] := by
    simpa using congrArg String.toList hempty
  have := List.dropWhile_eq_nil_iff.1 hnil c (List.mem_reverse.2 hleft)
  rw [hc] at this
  cases this

/-- A header puts type and name in quotes. -/
theorem resourceHeader_eq (type name : String) : resourceHeader type name =
    "resource " ++ ("\"" ++ type ++ "\"") ++ " " ++ ("\"" ++ name ++ "\"") := by
  have hopen : "resource \"" = "resource " ++ "\"" := by decide
  have hbetween : "\" \"" = "\"" ++ " " ++ "\"" := by decide
  unfold resourceHeader
  rw [hopen, hbetween]
  simp only [String.append_assoc]

theorem resourceHeader_ne_empty (type name : String) : resourceHeader type name ≠ "" := by
  intro h
  have := congrArg String.toList h
  simp [resourceHeader] at this

/-- A header ends with a quote, so that no trimming reaches into it. -/
theorem header_prefix_trimRight {type name text : String}
    (h : (resourceHeader type name).toList <+: text.toList) :
    (resourceHeader type name).toList <+: (trimRight text).toList := by
  obtain ⟨front, hfront⟩ : ∃ front, (resourceHeader type name).toList = front ++ ['"'] := by
    refine ⟨("resource \"" ++ type ++ "\" \"" ++ name).toList, ?_⟩
    simp [resourceHeader]
  rw [hfront] at h ⊢
  unfold trimRight
  rw [String.toList_ofList]
  exact prefix_trimRightOf (by decide) h

theorem trim_ne_empty_of_header {type name text : String}
    (h : (resourceHeader type name).toList <+: text.toList) : trim text ≠ "" :=
  trim_ne_empty (c := '"') (by decide) (h.subset (by simp [resourceHeader]))

/-- The header of a block stands in the text that blocks are put together to. -/
theorem infix_sortBlocks {type name block : String} {blocks : List String}
    (hmem : block ∈ blocks) (hheader : (resourceHeader type name).toList <+: block.toList) :
    (resourceHeader type name).toList <:+: (sortBlocks blocks).toList := by
  have hgiven : block ∈ sortOn sortName (blocks.filter fun block => trim block != "") := by
    rw [mem_sortOn, List.mem_filter]
    exact ⟨hmem, by simpa using trim_ne_empty_of_header hheader⟩
  have hpart := infix_intercalate "\n\n" (List.mem_map_of_mem (f := trimRight) hgiven)
  exact (header_prefix_trimRight hheader).isInfix.trans hpart

end Hcl
end HclExport
