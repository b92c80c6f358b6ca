import HclExport.Hcl.Writer
import HclExport.Text.LetterCase

/-!
# Resource blocks

The header of a resource block, the name that a block declares, and blocks in the order
of their names.

## Main definitions

* `resourceHeader` — the header of a block.
* `declaredName?` — the name of the first resource that a text declares.
* `sortBlocks` — blocks in the order of their names.
-/

namespace HclExport
namespace Hcl

/-- The header of a resource block. -/
def resourceHeader (type name : String) : String :=
  "resource \"" ++ type ++ "\" \"" ++ name ++ "\""

/-! ### Reading a header -/

/-- The blanks at the start of a text, at least one, are skipped. -/
def skipBlanks? : List Char → Option (List Char)
  | [] => none
  | c :: rest => if isBlank c then some (rest.dropWhile isBlank) else none

/-- A text in double quotes, not empty, and the rest. -/
def takeQuoted? : List Char → Option (List Char × List Char)
  | '"' :: rest =>
    match rest.takeWhile (· != '"'), rest.dropWhile (· != '"') with
    | [], _ => none
    | inside, '"' :: after => some (inside, after)
    | _, _ => none
  | _ => none

/-- The word that starts a resource block. -/
def resourceWord : List Char := "resource".toList

/-- The name in a header at the start of a text, after any blanks. -/
def headerName? (cs : List Char) : Option (List Char) := do
  let start := cs.dropWhile isBlank
  if resourceWord.isPrefixOf start then
    let beforeType ← skipBlanks? (start.drop resourceWord.length)
    let (_, afterType) ← takeQuoted? beforeType
    let beforeName ← skipBlanks? afterType
    let (name, _) ← takeQuoted? beforeName
    return name
  else none

/-- The first name in a header that starts a line; `atStart` says whether the text does. -/
def firstName? (atStart : Bool) : List Char → Option (List Char)
  | [] => none
  | c :: rest =>
    match if atStart then headerName? (c :: rest) else none with
    | some name => some name
    | none => firstName? (c == '\n') rest

/-- The name of the first resource that a text declares. -/
def declaredName? (text : String) : Option String :=
  (firstName? true text.toList).map String.ofList

/-! ### Order -/

/-- The name by which a block is sorted, in small letters; empty without a header. -/
def sortName (block : String) : String :=
  lower ((declaredName? block).getD "")

/-- Blocks in the order of their names without regard to case, one empty line apart, the
blanks at their ends dropped; blank blocks are left out. -/
def sortBlocks (blocks : List String) : String :=
  let given := blocks.filter fun block => trim block != ""
  "\n\n".intercalate ((sortOn sortName given).map trimRight)

end Hcl
end HclExport
