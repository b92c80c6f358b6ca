import HclExport.Json.Basic

/-!
# Paths into documents

A path names the members to enter from an object to the object inside it, and may fan
out over every item of an array. It is given as a text or in pieces; a piece divides or
encloses only when it is a dot or a bracket as a whole.

## Main definitions

* `splitPath`, `splitPieces` — the segments of a path, split at dots outside brackets.
* `Segment` — a member, or all items of the array that is a member.
* `Segment.step`, `Segment.follow` — the values one segment further, and at the end of several.
* `textsAt`, `extractTexts` — the texts at a path, in document order.
-/

namespace HclExport

/-- The part that a piece of a path plays. -/
inductive PathMark
  | dot
  | opening
  | closing
  | text
  deriving DecidableEq

namespace PathMark

/-- The part of a character. -/
def ofChar (c : Char) : PathMark :=
  if c = '.' then .dot else if c = '[' then .opening else if c = ']' then .closing else .text

/-- The part of a piece, which is text unless it is one character. -/
def ofPiece (piece : String) : PathMark :=
  match piece.toList with
  | [c] => ofChar c
  | _ => .text

/-- The depth of brackets behind a piece. -/
def depthAfter (depth : Int) : PathMark → Int
  | .opening => depth + 1
  | .closing => depth - 1
  | _ => depth

end PathMark

/-- Add a finished segment, unless it is empty; `current` is read backwards. -/
def closeSegment {α : Type} (current : List α) (rest : List (List α)) : List (List α) :=
  if current.isEmpty then rest else current.reverse :: rest

/-- The segments of the rest of a path; `current` is the segment begun, read backwards. -/
def splitFrom {α : Type} (mark : α → PathMark) (depth : Int) (current : List α) :
    List α → List (List α)
  | [] => closeSegment current []
  | piece :: rest =>
    if mark piece = .dot && depth = 0 then closeSegment current (splitFrom mark depth [] rest)
    else splitFrom mark ((mark piece).depthAfter depth) (piece :: current) rest

/-- The segments of a path: the stretches between dots that stand outside brackets, the
empty ones left out. -/
def splitPath (path : String) : List String :=
  (splitFrom PathMark.ofChar 0 [] path.toList).map String.ofList

/-- The segments of a path in pieces. -/
def splitPieces (pieces : List String) : List String :=
  (splitFrom PathMark.ofPiece 0 [] pieces).map String.join

/-! ### Segments -/

/-- One step of a path: into a member, or into every item of the array that is a member. -/
inductive Segment
  | member (key : String)
  | items (key : String)
  deriving DecidableEq

/-- The ending that asks for every item. -/
def wildcard : List Char := ['[', '*', ']']

namespace Segment

/-- The step that a segment asks for. -/
def ofText (text : String) : Segment :=
  let cs := text.toList
  if wildcard.isSuffixOf cs then .items (String.ofList (cs.take (cs.length - wildcard.length)))
  else .member text

/-- The values that a step finds in one value. A member that is `null` is not there. -/
def enter : Segment → Json → List Json
  | .member key, .obj members =>
    match Members.get members key with
    | .null => []
    | value => [value]
  | .items key, .obj members =>
    match Members.get members key with
    | .arr found => found
    | _ => []
  | _, _ => []

/-- The values one segment further. -/
def step (values : List Json) (segment : Segment) : List Json :=
  values.flatMap segment.enter

/-- The values at the end of some segments, all values of a segment before the next one. Where a
segment leads to none, the others are not looked at. -/
def follow : List Segment → List Json → List Json
  | [], values => values
  | segment :: rest, values =>
    match step values segment with
    | [] => []
    | found => follow rest found

end Segment

/-- The text that a value holds, unless it is empty. -/
def givenText? : Json → Option String
  | .str s => if s = "" then none else some s
  | _ => none

/-- The texts at the end of some segments that are not empty, in document order. -/
def textsAt (document : Json) (segments : List String) : List String :=
  (Segment.follow (segments.map Segment.ofText) [document]).filterMap givenText?

/-- The texts at a path that are not empty, in document order. -/
def extractTexts (document : Json) (path : String) : List String :=
  textsAt document (splitPath path)

end HclExport
