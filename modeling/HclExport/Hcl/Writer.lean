import HclExport.Hcl.Value

/-!
# Writing blocks

The lines of a configuration under construction, with the blocks that are open, and the
items from which whole blocks are composed.

## Main definitions

* `Writer` — the lines written so far and the closers of the open blocks.
* `Writer.line`, `Writer.blank`, `Writer.assignAll`, `Writer.enter`, `Writer.leave` —
  the steps of writing.
* `Item` — a line, a group of attributes or a block with its body.
* `Item.renderAll` — the text of a sequence of items.
-/

namespace HclExport
namespace Hcl

/-- The lines written so far, the newest first, and the closers of the open blocks, the
innermost first. -/
structure Writer where
  written : List String := []
  closers : List String := []

namespace Writer

/-- The column in which the next line starts. -/
def column (w : Writer) : Nat :=
  2 * w.closers.length

/-- Write one line; an empty one is not indented. -/
def line (text : String) (w : Writer) : Writer :=
  { w with written := (if text = "" then "" else spaces w.column ++ text) :: w.written }

/-- Whether a line ends with an opening brace or bracket. -/
def endsOpen (text : String) : Bool :=
  match text.toList.getLast? with
  | some c => c == '\x7b' || c == '['
  | none => false

/-- Write an empty line, unless there is nothing above it, an empty line or an opener. -/
def blank (w : Writer) : Writer :=
  match w.written with
  | [] => w
  | last :: _ => if last = "" || endsOpen last then w else w.line ""

/-- Write one attribute. -/
def assign (key value : String) (w : Writer) : Writer :=
  w.line (key ++ " = " ++ value)

/-- The length of the longest key. -/
def keyWidth (pairs : List (String × String)) : Nat :=
  pairs.foldl (fun width pair => max width pair.1.length) 0

/-- Write attributes with their equality signs in one column. -/
def assignAll (pairs : List (String × String)) (w : Writer) : Writer :=
  pairs.foldl (fun w pair => w.line (padRight (keyWidth pairs) pair.1 ++ " = " ++ pair.2)) w

/-- Write an attribute that is encoded as JSON text. -/
def assignJson (key : String) (value : Value) (w : Writer) : Writer :=
  w.line (key ++ " = jsonencode(" ++ value.jsonText w.column ++ ")")

/-- Write an attribute with a native value. -/
def assignNative (key : String) (value : Value) (w : Writer) : Writer :=
  w.line (key ++ " = " ++ value.nativeText w.column)

/-- Open a block. -/
def enter (header opener closer : String) (w : Writer) : Writer :=
  let w := w.line (if header = "" then opener else header ++ " " ++ opener)
  { w with closers := closer :: w.closers }

/-- Close the innermost block. -/
def leave (w : Writer) : Writer :=
  match w.closers with
  | [] => w
  | closer :: rest => ({ w with closers := rest } : Writer).line closer

/-- The text written so far. -/
def render (w : Writer) : String :=
  "\n".intercalate w.written.reverse ++ "\n"

end Writer

/-! ### Items -/

/-- A part of a configuration. -/
inductive Item
  | line (text : String)
  | blank
  | assign (key value : String)
  | assignAll (pairs : List (String × String))
  | json (key : String) (value : Value)
  | native (key : String) (value : Value)
  | block (header opener closer : String) (body : List Item)

namespace Item

mutual

/-- Write one item. -/
def write (w : Writer) : Item → Writer
  | .line text => w.line text
  | .blank => w.blank
  | .assign key value => w.assign key value
  | .assignAll pairs => w.assignAll pairs
  | .json key value => w.assignJson key value
  | .native key value => w.assignNative key value
  | .block header opener closer body => (writeAll (w.enter header opener closer) body).leave

/-- Write a sequence of items. -/
def writeAll (w : Writer) : List Item → Writer
  | [] => w
  | item :: rest => writeAll (write w item) rest

end

/-- The text of a sequence of items. -/
def renderAll (items : List Item) : String :=
  (writeAll {} items).render

/-- A block in braces. -/
def braced (header : String) (body : List Item) : Item :=
  .block header "\x7b" "\x7d" body

/-- An attribute whose value is a block in braces. -/
def object (key : String) (body : List Item) : Item :=
  braced (key ++ " =") body

/-- Bodies as the elements of a list, with a comma after each but the last. -/
def elements : List (List Item) → List Item
  | [] => []
  | [body] => [.block "" "\x7b" "\x7d" body]
  | body :: rest => .block "" "\x7b" "\x7d," body :: elements rest

end Item

end Hcl
end HclExport
