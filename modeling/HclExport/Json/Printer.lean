import HclExport.Json.Basic
import HclExport.Text.Padding

/-!
# JSON text

A value as JSON text on one line. Texts may be quoted in more than one way, so the printer
takes the way as an argument.

## Main definitions

* `escapeChar` — one character inside quotes.
* `Number.jsonText` — a number.
* `Json.textBy` — a value, its texts quoted in a given way.
* `Json.text` — a value, its texts with the escapes of JSON and no others.
-/

namespace HclExport

/-- One character inside quotes. The quote, the backslash and the control characters
below the space are escaped. -/
def escapeChar (c : Char) : List Char :=
  if c = '"' || c = '\\' then ['\\', c]
  else if 32 ≤ c.toNat then [c]
  else if c = '\n' then ['\\', 'n']
  else if c = '\r' then ['\\', 'r']
  else if c = '\t' then ['\\', 't']
  else if c.toNat = 8 then ['\\', 'b']
  else if c.toNat = 12 then ['\\', 'f']
  else '\\' :: 'u' :: hexDigits 4 c.toNat

/-- A number. The two infinities and what is no number have names of their own. -/
def Number.jsonText : Number → String
  | .real .nan => "NaN"
  | .real (.infinite negative) => if negative then "-Infinity" else "Infinity"
  | number => number.text

namespace Json

/-- A text in quotes. -/
def quote (s : String) : String :=
  String.ofList ('"' :: s.toList.flatMap escapeChar ++ ['"'])

mutual

/-- A value, with a blank behind every comma and colon. -/
def textBy (quote : String → String) : Json → String
  | .null => "null"
  | .bool b => if b then "true" else "false"
  | .num n => n.jsonText
  | .str s => quote s
  | .arr items => "[" ++ ", ".intercalate (itemTextsBy quote items) ++ "]"
  | .obj members => "\x7b" ++ ", ".intercalate (memberTextsBy quote members) ++ "\x7d"

/-- The items of an array. -/
def itemTextsBy (quote : String → String) : List Json → List String
  | [] => []
  | item :: rest => textBy quote item :: itemTextsBy quote rest

/-- The members of an object. -/
def memberTextsBy (quote : String → String) : List (String × Json) → List String
  | [] => []
  | (key, value) :: rest =>
    (quote key ++ ": " ++ textBy quote value) :: memberTextsBy quote rest

end

/-- A value with the escapes of JSON. -/
def text (value : Json) : String :=
  value.textBy quote

@[simp] theorem textBy_str (quote : String → String) (s : String) :
    textBy quote (.str s) = quote s := by
  simp [textBy]

end Json

end HclExport
