import HclExport.Json.Basic
import HclExport.Text.Padding
import HclExport.Text.Printable

/-!
# Values inside messages

The text that stands for a value inside a message or a list of texts: a text stands
for itself, the words `None`, `True` and `False` for the three constants, and texts
nested in arrays and objects are quoted.

## Main definitions

* `quotedChars`, `quoted` — a text in quotes with escapes for what cannot be shown.
* `Json.quotedText` — a nested value.
* `Json.display` — a value by itself.
-/

namespace HclExport

/-- One character inside quotes: the quote, the backslash, control characters and
characters that are not printable are escaped. -/
def quotedChar (quote c : Char) : List Char :=
  if c = quote || c = '\\' then ['\\', c]
  else if c = '\n' then ['\\', 'n']
  else if c = '\r' then ['\\', 'r']
  else if c = '\t' then ['\\', 't']
  else if 32 ≤ c.toNat && c.toNat < 127 then [c]
  else if 127 < c.toNat && isPrintable c then [c]
  else if c.toNat < 0x100 then '\\' :: 'x' :: hexDigits 2 c.toNat
  else if c.toNat < 0x10000 then '\\' :: 'u' :: hexDigits 4 c.toNat
  else '\\' :: 'U' :: hexDigits 8 c.toNat

/-- Single quotes are used, unless the text has some and no double ones. -/
def quoteFor (cs : List Char) : Char :=
  if cs.contains '\'' && !cs.contains '"' then '"' else '\''

/-- A text in quotes. -/
def quoted (s : String) : String :=
  let cs := s.toList
  let quote := quoteFor cs
  String.ofList (quote :: cs.flatMap (quotedChar quote) ++ [quote])

/-- The texts of a list in brackets. -/
def quotedList (texts : List String) : String :=
  "[" ++ ", ".intercalate (texts.map quoted) ++ "]"

namespace Json

mutual

/-- The text of a value nested in an array or an object. -/
def quotedText : Json → String
  | .null => "None"
  | .bool b => if b then "True" else "False"
  | .num n => n.text
  | .str s => quoted s
  | .arr items => "[" ++ ", ".intercalate (itemTexts items) ++ "]"
  | .obj members => "\x7b" ++ ", ".intercalate (memberTexts members) ++ "\x7d"

/-- The texts of the items of an array. -/
def itemTexts : List Json → List String
  | [] => []
  | item :: rest => quotedText item :: itemTexts rest

/-- The texts of the members of an object. -/
def memberTexts : List (String × Json) → List String
  | [] => []
  | (key, value) :: rest => (quoted key ++ ": " ++ quotedText value) :: memberTexts rest

end

/-- The text of a value by itself. -/
def display : Json → String
  | .str s => s
  | value => quotedText value

@[simp] theorem display_str (s : String) : display (.str s) = s := rfl

end Json

end HclExport
