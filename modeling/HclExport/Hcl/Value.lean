import HclExport.Hcl.Expression
import HclExport.Hcl.Quoted
import HclExport.Json.Display
import HclExport.Sorting

/-!
# Values as literals

A JSON value in which some leaves may be expressions, and its two literal forms: the
argument of `jsonencode`, with sorted and quoted keys and a comma after every entry but
the last, and a native value, with the entries of objects on lines of their own.

## Main definitions

* `Value`, `Value.ofJson` — the values.
* `Expression.ofParts` — an expression whose parts are values of any kind.
* `numberText`, `Value.scalarText` — numbers and other leaves.
* `Value.jsonText` — the argument of `jsonencode`.
* `Value.nativeText` — a native value.
-/

namespace HclExport
namespace Hcl

/-- A value with expressions among its leaves. An expression may be described by a text and
a comment that are values of any kind. -/
inductive Value
  | null
  | bool (value : Bool)
  | num (value : Number)
  | str (value : String)
  | expr (value : Expression)
  | described (text comment : Json)
  | tuple (items : List Value)
  | object (members : List (String × Value))
  deriving Inhabited

/-- A comment that is described, which is empty unless there is something in it. -/
def givenComment (comment : Json) : Json :=
  if comment.isTruthy then comment else .str ""

/-- The expression that stands for a text and a comment of any kind, each put into words. -/
def Expression.ofParts (text comment : Json) : Expression :=
  ⟨text.display, (givenComment comment).display⟩

/-- The text of an expression inside a message, from the texts of its parts. -/
def expressionText (text comment : String) : String :=
  "HclExpression(expression=" ++ text ++ ", comment=" ++ comment ++ ")"

/-- A number: a whole one without a point, any other by its shortest decimal. -/
def numberText : Number → String
  | .int i => toString i
  | .real x =>
    if x.isIntegral then (x.cut.map toString).getD x.text else x.text

/-- A truth value. -/
def boolText (b : Bool) : String :=
  if b then "true" else "false"

namespace Value

mutual

/-- A value without expressions. -/
def ofJson : Json → Value
  | .null => .null
  | .bool b => .bool b
  | .num n => .num n
  | .str s => .str s
  | .arr items => .tuple (ofItems items)
  | .obj members => .object (ofMembers members)

/-- The items of an array. -/
def ofItems : List Json → List Value
  | [] => []
  | item :: rest => ofJson item :: ofItems rest

/-- The members of an object. -/
def ofMembers : List (String × Json) → List (String × Value)
  | [] => []
  | (key, value) :: rest => (key, ofJson value) :: ofMembers rest

end

/-- Whether the value is a leaf. -/
def isScalar : Value → Bool
  | .tuple _ => false
  | .object _ => false
  | _ => true

mutual

/-- The text of a value nested in a tuple or an object, inside a message. -/
def quotedText : Value → String
  | .null => "None"
  | .bool b => if b then "True" else "False"
  | .num n => n.text
  | .str s => quoted s
  | .expr e => expressionText (quoted e.text) (quoted e.comment)
  | .described text comment =>
    expressionText text.quotedText (givenComment comment).quotedText
  | .tuple items => "[" ++ ", ".intercalate (quotedItems items) ++ "]"
  | .object members => "\x7b" ++ ", ".intercalate (quotedMembers members) ++ "\x7d"

/-- The texts of the items of a tuple. -/
def quotedItems : List Value → List String
  | [] => []
  | item :: rest => quotedText item :: quotedItems rest

/-- The texts of the members of an object. -/
def quotedMembers : List (String × Value) → List String
  | [] => []
  | (key, value) :: rest => (quoted key ++ ": " ++ quotedText value) :: quotedMembers rest

end

/-- A value on one line; a tuple or an object is quoted as a text. -/
def scalarText : Value → String
  | .null => "null"
  | .bool b => boolText b
  | .num n => numberText n
  | .str s => quote s
  | .expr e => e.render
  | .described text comment => (Expression.ofParts text comment).render
  | value => quote (quotedText value)

/-! ### The argument of jsonencode -/

/-- An entry: its text, and the remark that goes behind the comma. -/
structure Entry where
  text : String
  remark : String

/-- Entries on lines of their own, each with a comma but the last; a remark ends its line. -/
def entryLines (pad : String) : List Entry → List String
  | [] => []
  | [e] => [pad ++ e.text ++ e.remark]
  | e :: rest => (pad ++ e.text ++ "," ++ e.remark) :: entryLines pad rest

/-- Entries between brackets; nothing at all between them when there are none. -/
def enclosed (opening closing : String) (indent : Int) (entries : List Entry) : String :=
  if entries.isEmpty then opening ++ closing
  else
    let pad := spaces indent.toNat
    "\n".intercalate (opening :: entryLines (pad ++ "  ") entries ++ [pad ++ closing])

/-- The entry of a member of an object. -/
def memberEntry (member : String × Entry) : Entry :=
  ⟨quote member.1 ++ " = " ++ member.2.text, member.2.remark⟩

mutual

/-- The entry of a value whose line starts in column `indent`. -/
def entry (indent : Int) : Value → Entry
  | .tuple items => ⟨enclosed "[" "]" indent (itemEntries (indent + 2) items), ""⟩
  | .object members =>
    let sorted := sortOn Prod.fst (memberEntries (indent + 2) members)
    ⟨enclosed "\x7b" "\x7d" indent (sorted.map memberEntry), ""⟩
  | .expr e => ⟨e.text, e.remark⟩
  | .described text comment =>
    let e := Expression.ofParts text comment
    ⟨e.text, e.remark⟩
  | .null => ⟨"null", ""⟩
  | .bool b => ⟨boolText b, ""⟩
  | .num n => ⟨numberText n, ""⟩
  | .str s => ⟨quote s, ""⟩

/-- The entries of the items of a tuple. -/
def itemEntries (indent : Int) : List Value → List Entry
  | [] => []
  | item :: rest => entry indent item :: itemEntries indent rest

/-- The entries of the members of an object, each with its key. -/
def memberEntries (indent : Int) : List (String × Value) → List (String × Entry)
  | [] => []
  | (key, value) :: rest => (key, entry indent value) :: memberEntries indent rest

end

/-- The literal whose first line starts in column `indent`. -/
def jsonText (indent : Int) (value : Value) : String :=
  (entry indent value).text ++ (entry indent value).remark

/-! ### Native values -/

/-- Whether a character may start an identifier. -/
def isNameStart (c : Char) : Bool :=
  c.isAlpha || c == '_'

/-- Whether a character may stand in an identifier. -/
def isNameChar (c : Char) : Bool :=
  c.isAlphanum || c == '_' || c == '-'

/-- Whether a text is an identifier. -/
def isIdentifier : List Char → Bool
  | [] => false
  | c :: rest => isNameStart c && rest.all isNameChar

/-- A key is left bare when it is an identifier; a line feed at its end does not count. -/
def isBareKey (key : String) : Bool :=
  let cs := key.toList
  isIdentifier cs || (cs.getLast? == some '\n' && isIdentifier cs.dropLast)

/-- A key of a native object. -/
def keyText (key : String) : String :=
  if isBareKey key then key else quote key

/-- Lines between brackets, the closing one below the start of the first line. -/
def enclosedLines (opening closing : String) (indent : Int) (lines : List String) : String :=
  let pad := spaces indent.toNat
  "\n".intercalate (opening :: lines.map (pad ++ "  " ++ ·) ++ [pad ++ closing])

mutual

/-- The native value whose first line starts in column `indent`. -/
def nativeText (indent : Int) : Value → String
  | .object members =>
    if members.isEmpty then "\x7b\x7d"
    else enclosedLines "\x7b" "\x7d" indent (nativeMembers (indent + 2) members)
  | .tuple items =>
    if items.all isScalar then "[" ++ ", ".intercalate (nativeItems (indent + 2) items) ++ "]"
    else enclosedLines "[" "]" indent ((nativeItems (indent + 2) items).map (· ++ ","))
  | .expr e => e.render
  | .described text comment => (Expression.ofParts text comment).render
  | .null => "null"
  | .bool b => boolText b
  | .num n => numberText n
  | .str s => quote s

/-- The items of a native tuple. -/
def nativeItems (indent : Int) : List Value → List String
  | [] => []
  | item :: rest => nativeText indent item :: nativeItems indent rest

/-- The members of a native object. -/
def nativeMembers (indent : Int) : List (String × Value) → List String
  | [] => []
  | (key, value) :: rest =>
    (keyText key ++ " = " ++ nativeText indent value) :: nativeMembers indent rest

end

end Value

end Hcl
end HclExport
