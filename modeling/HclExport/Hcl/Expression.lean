import HclExport.Text.Blank

/-!
# Expressions

An expression that is written as it stands, with a comment that may follow it to the
end of the line.

## Main definitions

* `Expression` — the text and its comment.
* `Expression.ofText` — split a text at its first comment.
* `Expression.render`, `Expression.renderBefore` — the expression in a line.
-/

namespace HclExport
namespace Hcl

/-- An expression and the comment behind it, empty when there is none. -/
structure Expression where
  text : String
  comment : String := ""
  deriving DecidableEq

/-- Split a text before its first space that is followed by a number sign. -/
def splitComment : List Char → List Char × Option (List Char)
  | [] => ([], none)
  | ' ' :: '#' :: rest => ([], some rest)
  | c :: rest =>
    let (before, comment) := splitComment rest
    (c :: before, comment)

namespace Expression

/-- The expression and the comment of a text; the comment starts at the number sign. -/
def ofText (s : String) : Expression :=
  match splitComment s.toList with
  | (before, none) => ⟨trim (String.ofList before), ""⟩
  | (before, some comment) => ⟨trim (String.ofList before), String.ofList ('#' :: comment)⟩

/-- The comment with the space that sets it off, empty when there is none. -/
def remark (e : Expression) : String :=
  if e.comment = "" then "" else " " ++ e.comment

/-- The expression in a line, with a separator before its comment. -/
def renderBefore (separator : String) (e : Expression) : String :=
  e.text ++ separator ++ e.remark

/-- The expression in a line. -/
def render (e : Expression) : String :=
  e.renderBefore ""

end Expression

end Hcl
end HclExport
