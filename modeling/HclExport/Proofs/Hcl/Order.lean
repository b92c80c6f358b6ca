import HclExport.Proofs.Hcl.Header
import HclExport.Proofs.Text.Word

/-!
# The order of blocks

A block that starts with its header is sorted by the name in it. So blocks of different names
come out in one order, however they stood.

## Main results

* `Hcl.declaredName?_of_header` — the name that a block declares.
* `Hcl.sortBlocks_eq_of_perm` — when it does not matter how blocks stood.
-/

namespace HclExport
namespace Hcl

/-- What stands in quotes is read up to the second quote. -/
theorem takeQuoted?_append {inside : List Char} (hne : inside ≠ []) (hquote : '"' ∉ inside)
    (after : List Char) : takeQuoted? ('"' :: (inside ++ '"' :: after)) = some (inside, after) := by
  have hkeep : ∀ c ∈ inside, (c != '"') = true := by
    intro c hc
    have hne : c ≠ '"' := fun heq => hquote (heq ▸ hc)
    simpa using hne
  have htake : (inside ++ '"' :: after).takeWhile (· != '"') = inside := by
    rw [List.takeWhile_append_of_pos hkeep, List.takeWhile_cons_of_neg (by simp), List.append_nil]
  have hdrop : (inside ++ '"' :: after).dropWhile (· != '"') = '"' :: after := by
    rw [List.dropWhile_append_of_pos hkeep, List.dropWhile_cons_of_neg (by simp)]
  cases inside with
  | nil => exact absurd rfl hne
  | cons c rest => simp only [takeQuoted?, htake, hdrop]

/-- The name in a header. -/
theorem headerName?_header {type name : List Char} (htype : type ≠ []) (hname : name ≠ [])
    (htypeQuote : '"' ∉ type) (hnameQuote : '"' ∉ name) (after : List Char) :
    headerName? (resourceWord ++ ' ' :: '"' :: (type ++ '"' :: ' ' :: '"' :: (name ++ '"' :: after))) =
      some name := by
  have hskip (rest : List Char) : skipBlanks? (' ' :: '"' :: rest) = some ('"' :: rest) := rfl
  have hstart (rest : List Char) : (resourceWord ++ rest).dropWhile isBlank = resourceWord ++ rest :=
    rfl
  have hword (rest : List Char) : resourceWord.isPrefixOf (resourceWord ++ rest) = true :=
    List.isPrefixOf_iff_prefix.2 (List.prefix_append _ _)
  simp only [headerName?, hstart, hword, if_true, List.drop_left, hskip, bind, Option.bind,
    takeQuoted?_append htype htypeQuote, takeQuoted?_append hname hnameQuote]
  rfl

/-- A block that starts with its header declares the name in it. -/
theorem declaredName?_of_header {type name block : String} (htype : IsWord type) (hname : IsWord name)
    (htypeNe : type ≠ "") (hnameNe : name ≠ "")
    (h : (resourceHeader type name).toList <+: block.toList) : declaredName? block = some name := by
  have hquote {word : String} (hword : IsWord word) : '"' ∉ word.toList := by
    intro hmem
    have hchar := hword '"' hmem
    revert hchar
    decide
  have hne {word : String} (hword : word ≠ "") : word.toList ≠ [] := by
    simpa using hword
  obtain ⟨after, hafter⟩ := h
  have hblock : block.toList = resourceWord ++ ' ' :: '"' :: (type.toList ++ '"' :: ' ' :: '"' ::
      (name.toList ++ '"' :: after)) := by
    have hopen : "resource \"".toList = resourceWord ++ [' ', '"'] := by decide
    have hmiddle : "\" \"".toList = ['"', ' ', '"'] := by decide
    have hclose : "\"".toList = ['"'] := by decide
    rw [← hafter]
    simp only [resourceHeader, String.toList_append, hopen, hmiddle, hclose, List.append_assoc,
      List.cons_append, List.nil_append]
  have hheader := headerName?_header (hne htypeNe) (hne hnameNe) (hquote htype) (hquote hname) after
  rw [← hblock] at hheader
  unfold declaredName?
  cases hcs : block.toList with
  | nil =>
    rw [hcs] at hblock
    cases hblock
  | cons c rest =>
    rw [hcs] at hheader
    simp [firstName?, hheader]

/-- A block that starts with its header is sorted by the name in it. -/
theorem sortName_of_header {type name block : String} (htype : IsWord type) (hname : IsWord name)
    (htypeNe : type ≠ "") (hnameNe : name ≠ "")
    (h : (resourceHeader type name).toList <+: block.toList) : sortName block = lower name := by
  rw [sortName, declaredName?_of_header htype hname htypeNe hnameNe h, Option.getD_some]

/-- Blocks of different names come out in one order, however they stood. -/
theorem sortBlocks_eq_of_perm {blocks other : List String} (h : blocks.Perm other)
    (hnames : ∀ a ∈ blocks, ∀ b ∈ blocks, sortName a = sortName b → a = b) :
    sortBlocks blocks = sortBlocks other := by
  unfold sortBlocks
  dsimp only
  rw [sortOn_eq_of_perm (h.filter _)]
  intro a ha b hb
  exact hnames a (List.mem_filter.1 ha).1 b (List.mem_filter.1 hb).1

end Hcl
end HclExport
