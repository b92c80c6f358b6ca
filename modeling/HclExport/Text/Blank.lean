/-!
# Blank characters

The blanks that are dropped from the ends of a text: the control characters that
move the carriage or separate fields, the space, and the Unicode separators.

## Main definitions

* `isBlank` — membership in the set of blanks.
* `trim`, `trimRight`, `trimRightOf` — texts without the blanks at their ends.
-/

namespace HclExport

/-- The blanks: tab to carriage return, the four separators U+001C to U+001F, the
space, next line, and every Unicode space and line or paragraph separator. -/
def isBlank (c : Char) : Bool :=
  let n := c.toNat
  (9 ≤ n && n ≤ 13) || (28 ≤ n && n ≤ 32) || n == 0x85 || n == 0xA0 || n == 0x1680 ||
    (0x2000 ≤ n && n ≤ 0x200A) || n == 0x2028 || n == 0x2029 || n == 0x202F ||
    n == 0x205F || n == 0x3000

/-- The white space of the standard library is blank. -/
theorem isBlank_of_isWhitespace {c : Char} (h : c.isWhitespace = true) : isBlank c = true := by
  simp only [Char.isWhitespace, Bool.or_eq_true, decide_eq_true_eq] at h
  rcases h with ((rfl | rfl) | rfl) | rfl <;> decide

/-! ### Trimming -/

/-- The text without the characters of `drop` at its end. -/
def trimRightOf (drop : Char → Bool) (cs : List Char) : List Char :=
  (cs.reverse.dropWhile drop).reverse

@[simp] theorem trimRightOf_nil (drop : Char → Bool) : trimRightOf drop [] = [] := rfl

/-- The text without the blanks at its end. -/
def trimRight (s : String) : String :=
  String.ofList (trimRightOf isBlank s.toList)

/-- The text without the blanks at either end. -/
def trim (s : String) : String :=
  String.ofList (trimRightOf isBlank (s.toList.dropWhile isBlank))

/-- The text without the line feeds at either end. -/
def trimLineFeeds (s : String) : String :=
  String.ofList (trimRightOf (· == '\n') (s.toList.dropWhile (· == '\n')))

end HclExport
