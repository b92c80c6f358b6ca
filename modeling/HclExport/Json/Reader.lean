import HclExport.Json.Basic

/-!
# Reading JSON

The grammar of JSON with the three constants `NaN`, `Infinity` and `-Infinity`. A
repeated member keeps its first place and takes its last value. What is wrong with a
text is said with its position. Integers have a greatest number of digits, and values a
greatest depth.

## Main definitions

* `JsonComplaint`, `JsonError` — what can be wrong, and where.
* `Json.read` — the value of a text.
* `JsonError.message` — the complaint in words, with line, column and offset.
-/

namespace HclExport

/-- What can be wrong with a text. -/
inductive JsonComplaint
  | expectedValue
  | expectedName
  | expectedColon
  | expectedComma
  | extraData
  | unterminatedText
  | controlCharacter
  | unknownEscape
  | malformedCodeEscape
  | byteOrderMark
  deriving DecidableEq

/-- Why a text cannot be read: a complaint at an offset, an integer of too many digits, or
arrays and objects inside each other beyond all measure. -/
inductive JsonError
  | malformed (complaint : JsonComplaint) (offset : Nat)
  | tooManyDigits (count : Nat)
  | tooDeep
  deriving DecidableEq

/-- The complaint in words. -/
def JsonComplaint.words : JsonComplaint → String
  | .expectedValue => "Expecting value"
  | .expectedName => "Expecting property name enclosed in double quotes"
  | .expectedColon => "Expecting ':' delimiter"
  | .expectedComma => "Expecting ',' delimiter"
  | .extraData => "Extra data"
  | .unterminatedText => "Unterminated string starting at"
  | .controlCharacter => "Invalid control character at"
  | .unknownEscape => "Invalid \\escape"
  | .malformedCodeEscape => "Invalid \\uXXXX escape"
  | .byteOrderMark => "Unexpected UTF-8 BOM (decode using utf-8-sig)"

namespace JsonReader

/-- How many arrays and objects may stand inside each other. -/
def nestingLimit : Nat := 990

/-- Complain where `rest` is what is left of the text; while the text is read, offsets are
counted from its end. -/
def complain {α : Type} (complaint : JsonComplaint) (rest : List Char) : Except JsonError α :=
  .error (.malformed complaint rest.length)

/-- The text without the white space of the grammar at its start. -/
def skipSpace (cs : List Char) : List Char :=
  cs.dropWhile fun c => c == ' ' || c == '\t' || c == '\n' || c == '\r'

/-! ### Numbers -/

/-- The value of a run of decimal digits. -/
def digitsValue (ds : List Char) : Nat :=
  ds.foldl (fun n d => 10 * n + (d.toNat - 48)) 0

/-- The digits at the start of a text, and the rest. -/
def takeDigits (cs : List Char) : List Char × List Char :=
  (cs.takeWhile Char.isDigit, cs.dropWhile Char.isDigit)

/-- The digits before the point: a zero, or a run that starts with another digit. -/
def takeWhole : List Char → Option (List Char × List Char)
  | [] => none
  | c :: rest =>
    if c = '0' then some (['0'], rest)
    else if c.isDigit then some (takeDigits (c :: rest))
    else none

/-- The digits after a point; a point without digits is not part of the number. -/
def takeFraction : List Char → List Char × List Char
  | '.' :: rest =>
    match takeDigits rest with
    | ([], _) => ([], '.' :: rest)
    | found => found
  | cs => ([], cs)

/-- The sign of an exponent and what follows it. -/
def takeSign : List Char → Bool × List Char
  | '+' :: rest => (false, rest)
  | '-' :: rest => (true, rest)
  | cs => (false, cs)

/-- An exponent; its letter without digits is not part of the number. -/
def takeExponent : List Char → Option Int × List Char
  | [] => (none, [])
  | c :: rest =>
    if c = 'e' || c = 'E' then
      let (negative, more) := takeSign rest
      match takeDigits more with
      | ([], _) => (none, c :: rest)
      | (ds, left) =>
        let n : Int := digitsValue ds
        (some (if negative then -n else n), left)
    else (none, c :: rest)

/-- A number without its sign: a real if it has a fraction or an exponent. -/
def magnitude (negative : Bool) (cs : List Char) : Option (Except JsonError Number × List Char) :=
  (takeWhole cs).map fun (whole, afterWhole) =>
    let (fraction, afterFraction) := takeFraction afterWhole
    let (exponent, rest) := takeExponent afterFraction
    if fraction.isEmpty && exponent.isNone then
      if Number.digitLimit < whole.length then (.error (.tooManyDigits whole.length), rest)
      else
        let n : Int := digitsValue whole
        (.ok (.int (if negative then -n else n)), rest)
    else
      (.ok (.real (Binary64.ofDecimal negative (digitsValue (whole ++ fraction))
        (exponent.getD 0 - fraction.length))), rest)

/-! ### Texts -/

/-- The value of a digit in base sixteen. -/
def hexValue (c : Char) : Option Nat :=
  if c.isDigit then some (c.toNat - 48)
  else if 'a' ≤ c && c ≤ 'f' then some (c.toNat - 87)
  else if 'A' ≤ c && c ≤ 'F' then some (c.toNat - 55)
  else none

/-- Four digits in base sixteen that are followed by something. -/
def takeCode : List Char → Option (Nat × List Char)
  | a :: b :: c :: d :: e :: rest => do
    let code := (((← hexValue a) * 16 + (← hexValue b)) * 16 + (← hexValue c)) * 16 +
      (← hexValue d)
    return (code, e :: rest)
  | _ => none

/-- The second half of a pair of code units: a further escape, if enough text follows
to hold one. -/
def takeSecondCode : List Char → Option (List Char)
  | '\\' :: 'u' :: a :: b :: c :: d :: e :: rest => some (a :: b :: c :: d :: e :: rest)
  | _ => none

/-- The character of an escape with a code unit; two halves of a pair are joined, and half
a pair stands for no character and becomes the replacement character. -/
def codeEscape (cs : List Char) : Except JsonError (Char × List Char) :=
  match takeCode cs with
  | none => complain .malformedCodeEscape ('u' :: cs)
  | some (high, rest) =>
    if high < 0xD800 || 0xDFFF < high then .ok (Char.ofNat high, rest)
    else if 0xDC00 ≤ high then .ok ('\uFFFD', rest)
    else match takeSecondCode rest with
      | none => .ok ('\uFFFD', rest)
      | some more =>
        match takeCode more with
        | none => complain .malformedCodeEscape ('u' :: more)
        | some (low, after) =>
          if 0xDC00 ≤ low && low ≤ 0xDFFF then
            .ok (Char.ofNat (0x10000 + (high - 0xD800) * 0x400 + (low - 0xDC00)), after)
          else .ok ('\uFFFD', rest)

/-- The character that a letter after a backslash stands for. -/
def simpleEscape : Char → Option Char
  | '"' => some '"'
  | '\\' => some '\\'
  | '/' => some '/'
  | 'b' => some (Char.ofNat 8)
  | 'f' => some (Char.ofNat 12)
  | 'n' => some '\n'
  | 'r' => some '\r'
  | 't' => some '\t'
  | _ => none

/-- The rest of a text after its opening quote; `opening` is what was left at the quote,
`done` the characters read so far, backwards. -/
def textBody (opening : List Char) :
    Nat → List Char → List Char → Except JsonError (String × List Char)
  | 0, _, _ => complain .unterminatedText opening
  | _ + 1, _, [] => complain .unterminatedText opening
  | fuel + 1, done, c :: rest =>
    if c = '"' then .ok (String.ofList done.reverse, rest)
    else if c = '\\' then
      match rest with
      | [] => complain .unterminatedText opening
      | e :: more =>
        if e = 'u' then do
          let (char, after) ← codeEscape more
          textBody opening fuel (char :: done) after
        else match simpleEscape e with
          | some char => textBody opening fuel (char :: done) more
          | none => complain .unknownEscape (c :: rest)
    else if c.toNat < 32 then complain .controlCharacter (c :: rest)
    else textBody opening fuel (c :: done) rest

/-- A text whose opening quote has been read. -/
def text (opening rest : List Char) : Except JsonError (String × List Char) :=
  textBody opening (rest.length + 1) [] rest

/-! ### Values -/

/-- The text after a word, if it starts with that word. -/
def afterWord (word : String) (cs : List Char) : Option (List Char) :=
  if word.toList.isPrefixOf cs then some (cs.drop word.length) else none

/-- A constant or a number. -/
def atom (cs : List Char) : Except JsonError (Json × List Char) :=
  let constants : List (String × Json) :=
    [("null", .null), ("true", .bool true), ("false", .bool false),
     ("NaN", .num (.real .nan)), ("Infinity", .num (.real (.infinite false))),
     ("-Infinity", .num (.real (.infinite true)))]
  match constants.findSome? fun (word, value) => (afterWord word cs).map (value, ·) with
  | some found => .ok found
  | none =>
    let found := match cs with
      | '-' :: rest => magnitude true rest
      | _ => magnitude false cs
    match found with
    | none => complain .expectedValue cs
    | some (.error e, _) => .error e
    | some (.ok n, rest) => .ok (.num n, rest)

mutual

/-- One value, in which `room` arrays and objects may stand inside each other. -/
def value (room : Nat) : Nat → List Char → Except JsonError (Json × List Char)
  | 0, cs => complain .expectedValue cs
  | _ + 1, [] => complain .expectedValue []
  | fuel + 1, c :: rest =>
    if c = '"' then (text (c :: rest) rest).map fun (s, after) => (.str s, after)
    else if (c = '[' || c = '\x7b') && room = 0 then .error .tooDeep
    else if c = '[' then
      match skipSpace rest with
      | ']' :: after => .ok (.arr [], after)
      | inside => (elements (room - 1) fuel inside).map fun (items, after) => (.arr items, after)
    else if c = '\x7b' then
      match skipSpace rest with
      | '\x7d' :: after => .ok (.obj [], after)
      | inside => (members (room - 1) fuel [] inside).map fun (found, after) => (.obj found, after)
    else atom (c :: rest)

/-- The elements of an array up to its closing bracket. -/
def elements (room : Nat) : Nat → List Char → Except JsonError (List Json × List Char)
  | 0, cs => complain .expectedValue cs
  | fuel + 1, cs => do
    let (item, rest) ← value room fuel cs
    match skipSpace rest with
    | ']' :: after => .ok ([item], after)
    | ',' :: more =>
      let (items, after) ← elements room fuel (skipSpace more)
      .ok (item :: items, after)
    | other => complain .expectedComma other

/-- The members of an object up to its closing brace, added to those read so far. -/
def members (room : Nat) :
    Nat → Members → List Char → Except JsonError (Members × List Char)
  | 0, _, cs => complain .expectedName cs
  | fuel + 1, done, cs =>
    match cs with
    | '"' :: rest => do
      let (key, afterKey) ← text cs rest
      match skipSpace afterKey with
      | ':' :: beforeValue =>
        let (item, afterValue) ← value room fuel (skipSpace beforeValue)
        let found := Members.set key item done
        match skipSpace afterValue with
        | '\x7d' :: after => .ok (found, after)
        | ',' :: more => members room fuel found (skipSpace more)
        | other => complain .expectedComma other
      | other => complain .expectedColon other
    | other => complain .expectedName other

end

/-- A whole text: one value between white space. Every step of the reader leaves less text
or descends into a value, so twice the length bounds the number of nested steps. -/
def document (cs : List Char) : Except JsonError Json := do
  if cs.head? = some '\uFEFF' then complain .byteOrderMark cs
  let (found, rest) ← value nestingLimit (2 * cs.length + 2) (skipSpace cs)
  match skipSpace rest with
  | [] => .ok found
  | extra => complain .extraData extra

end JsonReader

/-- An error whose offset was counted from the end of a text of the given length. -/
def JsonError.fromStart (length : Nat) : JsonError → JsonError
  | .malformed complaint left => .malformed complaint (length - left)
  | .tooManyDigits count => .tooManyDigits count
  | .tooDeep => .tooDeep

/-- The value of a text. -/
def Json.read (s : String) : Except JsonError Json :=
  (JsonReader.document s.toList).mapError (JsonError.fromStart s.length)

/-- The number of the line that holds an offset, and the column of the offset in it, both
from one. -/
def lineAndColumn (cs : List Char) (offset : Nat) : Nat × Nat :=
  let before := cs.take offset
  (before.count '\n' + 1, (before.reverse.takeWhile (· != '\n')).length + 1)

/-- The error in words, for the text that was read. -/
def JsonError.message (s : String) : JsonError → String
  | .malformed complaint offset =>
    let (line, column) := lineAndColumn s.toList offset
    s!"{complaint.words}: line {line} column {column} (char {offset})"
  | .tooManyDigits count =>
    s!"Exceeds the limit ({Number.digitLimit} digits) for integer string conversion: " ++
      s!"value has {count} digits; use sys.set_int_max_str_digits() to increase the limit"
  | .tooDeep => s!"More than {JsonReader.nestingLimit} arrays and objects inside each other"

end HclExport
