import HclExport.Resource.Kind

/-!
# Addresses and placeholders

How a configuration refers to a resource that it declares, and what stands in the place
of a reference to a resource that it does not.

## Main definitions

* `address`, `attributeAddress` — a resource, and one of its attributes.
* `placeholder` — an empty literal with a comment that names the absent resource.
* `isPlaceholder` — recognise a placeholder.
-/

namespace HclExport

/-- A declared resource. -/
def address (type name : String) : String :=
  type ++ "." ++ name

/-- An attribute of a declared resource. -/
def attributeAddress (type name key : String) : String :=
  address type name ++ "." ++ key

/-- The mark by which unfinished places are found. -/
def todoMark : String := "# TODO:"

/-- An empty literal and a comment that names the absent resource and the cause. -/
def placeholder (kind : Kind) (id cause : String) : String :=
  "\"\" " ++ todoMark ++ " Reference to " ++ kind.type ++ " " ++ id ++
    " unresolved (" ++ cause ++ ")"

/-- How often a text occurs in another, counted from the left without overlaps; `skip`
characters of an occurrence are still to be passed over. -/
def countOccurrences (part : List Char) : Nat → List Char → Nat
  | _, [] => 0
  | skip + 1, _ :: rest => countOccurrences part skip rest
  | 0, c :: rest =>
    if part.isPrefixOf (c :: rest) then 1 + countOccurrences part (part.length - 1) rest
    else countOccurrences part 0 rest

/-- How many unfinished places a text holds. -/
def countTodos (text : String) : Nat :=
  countOccurrences todoMark.toList 0 text.toList

/-- Whether a text is an empty literal with a mark somewhere behind it. -/
def isPlaceholder (text : String) : Bool :=
  ['"', '"'].isPrefixOf text.toList && countTodos text != 0

end HclExport
