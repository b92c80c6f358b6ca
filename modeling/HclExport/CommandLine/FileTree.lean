/-!
# Files and folders

What is written goes into files, and the folders above a file are made when they are not
there. A path is followed part by part: every place on the way has to be a folder.

## Main definitions

* `Path` — a path, from the current folder or from the root.
* `FileTree` — the files and folders that there are, and those that were made.
* `FileTree.walk` — the place that a path leads to.
* `FileTree.read`, `FileTree.write` — read and write a file.
-/

namespace HclExport
namespace CommandLine

/-! ### Paths -/

/-- A path: its parts, from the root or from the current folder. -/
structure Path where
  isAbsolute : Bool := false
  parts : List String := []
  deriving DecidableEq

namespace Path

/-- The path of a text; empty parts and single dots lead nowhere. -/
def ofText (text : String) : Path where
  isAbsolute := text.toList.head? == some '/'
  parts := (text.splitOn "/").filter fun part => part != "" && part != "."

/-- The text of a path. -/
def text (path : Path) : String :=
  let parts := "/".intercalate path.parts
  if path.isAbsolute then "/" ++ parts else if path.parts.isEmpty then "." else parts

/-- The place where a path starts. -/
def start (path : Path) : Path :=
  { path with parts := [] }

/-- The path without its last part. -/
def parent (path : Path) : Path :=
  { path with parts := path.parts.dropLast }

/-- The place that a part leads to; two dots lead up, and the root is above itself. -/
def enter (place : Path) (part : String) : Path :=
  if part = ".." then
    match place.parts.getLast? with
    | none => if place.isAbsolute then place else { place with parts := [".."] }
    | some ".." => { place with parts := place.parts ++ [".."] }
    | some _ => place.parent
  else { place with parts := place.parts ++ [part] }

/-- Whether a place is the root, the current folder or a folder above that. -/
def isAtTop (place : Path) : Bool :=
  place.parts.all (· == "..")

/-- The places on the way from a place through parts, the last one included. -/
def placesFrom (place : Path) : List String → List Path
  | [] => []
  | part :: rest => place.enter part :: placesFrom (place.enter part) rest

/-- The places on a path. -/
def places (path : Path) : List Path :=
  placesFrom path.start path.parts

end Path

/-! ### Trees -/

/-- What stands at a place. -/
inductive FileEntry
  | folder
  | file (octets : List UInt8)

/-- Why a file or folder cannot be read, written or made. -/
inductive FileError
  /-- There is nothing at the place, or at a place on the way. -/
  | missing
  /-- A place on the way is a file. -/
  | belowFile
  /-- The place is a folder. -/
  | isFolder
  /-- The place is taken. -/
  | taken
  /-- The path, or a name on the way, is too long. -/
  | nameTooLong
  /-- The path has a character in it that no path can have. -/
  | impossible
  deriving DecidableEq

/-- The files and folders that there are: those that were found, and those that were made
since, the latest first. -/
structure FileTree where
  found : List (Path × FileEntry) := []
  made : List (Path × FileEntry) := []

namespace FileTree

/-- What stands at a place. -/
def find? (tree : FileTree) (place : Path) : Option FileEntry :=
  if place.isAtTop then some .folder
  else tree.made.lookup place <|> tree.found.lookup place

/-- Put something at a place. -/
def put (tree : FileTree) (place : Path) (entry : FileEntry) : FileTree :=
  { tree with made := (place, entry) :: tree.made }

/-- The greatest number of octets in a name. -/
def nameLimit : Nat := 255

/-- The place that parts lead to from a place. Nothing needs to stand at the last place, but
every place before it is a folder. -/
def walk (tree : FileTree) (place : Path) : List String → Except FileError Path
  | [] => .ok place
  | part :: rest =>
    match tree.find? place with
    | none => .error .missing
    | some (.file _) => .error .belowFile
    | some .folder =>
      if nameLimit < part.utf8ByteSize then .error .nameTooLong
      else tree.walk (place.enter part) rest

/-- The greatest number of octets in the text of a path. -/
def pathLimit : Nat := 4095

/-- The place that a path leads to. -/
def locate (tree : FileTree) (path : Path) : Except FileError Path :=
  if path.parts.any fun part => part.toList.contains '\x00' then .error .impossible
  else if pathLimit < path.text.utf8ByteSize then .error .nameTooLong
  else tree.walk path.start path.parts

/-- What stands at the end of a path. -/
def entry (tree : FileTree) (path : Path) : Except FileError FileEntry := do
  match tree.find? (← tree.locate path) with
  | some entry => .ok entry
  | none => .error .missing

/-- The octets of a file. -/
def read (tree : FileTree) (path : Path) : Except FileError (List UInt8) := do
  match ← tree.entry path with
  | .file octets => .ok octets
  | .folder => .error .isFolder

/-- Make a folder, unless it is there. -/
def makeFolder (tree : FileTree) (path : Path) : Except FileError FileTree := do
  let place ← tree.locate path
  match tree.find? place with
  | none => .ok (tree.put place .folder)
  | some .folder => .ok tree
  | some (.file _) => .error .taken

/-- Make the folder at the end of parts, the last one first, and the folders above it,
unless they are there. -/
def makeFolders (tree : FileTree) (start : Path) : List String → Except FileError FileTree
  | [] => .ok tree
  | part :: above =>
    let path : Path := { start with parts := (part :: above).reverse }
    match tree.makeFolder path with
    | .error .missing => (tree.makeFolders start above).bind fun grown => grown.makeFolder path
    | result => result

/-- Write a file, with the folders above it. -/
def write (tree : FileTree) (path : Path) (octets : List UInt8) :
    Except FileError FileTree := do
  let grown ← tree.makeFolders path.start path.parent.parts.reverse
  let place ← grown.locate path
  match grown.find? place with
  | some .folder => .error .isFolder
  | _ => .ok (grown.put place (.file octets))

/-- The tree in which files were found. -/
def ofFiles (files : List (String × List UInt8)) : FileTree where
  found := (files.foldl (fun (tree : FileTree) (name, octets) =>
    match tree.write (Path.ofText name) octets with
    | .ok grown => grown
    | .error _ => tree) {}).made

/-- What was put at a place stands there, except that nothing can be put at the top. -/
theorem find?_put_self {place : Path} (h : place.isAtTop = false) (tree : FileTree)
    (entry : FileEntry) : (tree.put place entry).find? place = some entry := by
  simp [find?, put, h]

/-- What stands elsewhere stays. -/
theorem find?_put_of_ne {place other : Path} (h : other ≠ place) (tree : FileTree)
    (entry : FileEntry) : (tree.put place entry).find? other = tree.find? other := by
  simp [find?, put, List.lookup_cons, beq_eq_false_iff_ne.2 h]

end FileTree

end CommandLine
end HclExport
