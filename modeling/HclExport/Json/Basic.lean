import HclExport.Number.Shortest

/-!
# JSON values

The documents that are exported. Objects keep the order in which their members were
written, and numbers keep the difference between integers and reals, because both
show in the output.

## Main definitions

* `Number` — an integer of any size, or a real of 64 bits.
* `Json` — a value.
* `Members` — the members of an object, and typed access to them.
-/

namespace HclExport

/-- A number: an integer of any size, or a real. -/
inductive Number
  | int (value : Int)
  | real (value : Binary64)
  deriving DecidableEq

/-- A JSON value. -/
inductive Json
  | null
  | bool (value : Bool)
  | num (value : Number)
  | str (value : String)
  | arr (items : List Json)
  | obj (members : List (String × Json))
  deriving Inhabited

/-- The members of an object in the order in which they were written. -/
abbrev Members := List (String × Json)

namespace Number

/-- The greatest number of digits with which an integer is read or written. -/
def digitLimit : Nat := 4300

/-- The text of a number: every digit of an integer, the shortest decimal of a real. -/
def text : Number → String
  | .int i => toString i
  | .real x => x.text

/-- The nearest real, unless an integer is beyond all reals. -/
def real? : Number → Option Binary64
  | .real x => some x
  | .int i =>
    match Binary64.ofInt i with
    | .infinite _ => none
    | x => some x

/-- The sum of two numbers: exact for integers, and otherwise the nearest real. -/
def add? : Number → Number → Option Number
  | .int a, .int b => some (.int (a + b))
  | a, b => do return .real ((← a.real?).add (← b.real?))

end Number

namespace Json

/-- The value as a text, if it is one. -/
def text? : Json → Option String
  | .str s => some s
  | _ => none

/-- The value as a truth value, if it is one. -/
def bool? : Json → Option Bool
  | .bool b => some b
  | _ => none

/-- The value as a number, if it is one; truth values are not. -/
def number? : Json → Option Number
  | .num n => some n
  | _ => none

/-- The items of an array. -/
def items? : Json → Option (List Json)
  | .arr items => some items
  | _ => none

/-- The members of an object. -/
def members? : Json → Option Members
  | .obj members => some members
  | _ => none

/-- A text, or `null` when there is none. -/
def ofText? : Option String → Json
  | some s => .str s
  | none => .null

/-- What a value consists of when it is gone through one by one: the items of an array, the
characters of a text, the names of the members of an object. -/
def elements? : Json → Option (List Json)
  | .arr items => some items
  | .str s => some (s.toList.map fun c => .str (String.singleton c))
  | .obj members => some (members.map fun m => .str m.1)
  | _ => none

/-- Whether a value counts as given: everything but `null`, `false`, zero and the empty
text, array and object. -/
def isTruthy : Json → Bool
  | .null => false
  | .bool b => b
  | .num (.int i) => i != 0
  | .num (.real (.finite _ s _)) => s != 0
  | .num (.real _) => true
  | .str s => s != ""
  | .arr items => !items.isEmpty
  | .obj members => !members.isEmpty

end Json

namespace Members

/-- The value of the first member of a name. -/
def get? (members : Members) (key : String) : Option Json :=
  members.lookup key

/-- The value of a member, `null` when there is none. -/
def get (members : Members) (key : String) : Json :=
  (members.get? key).getD .null

/-- The text under a name, empty when there is none. -/
def text (members : Members) (key : String) : String :=
  ((members.get key).text?).getD ""

/-- The members of the object under a name, none when there is no object. -/
def inner (members : Members) (key : String) : Members :=
  ((members.get key).members?).getD []

/-- The truth value under a name. -/
def flag? (members : Members) (key : String) : Option Bool :=
  (members.get key).bool?

/-- The number under a name. -/
def number? (members : Members) (key : String) : Option Number :=
  (members.get key).number?

/-- Set a member: a new name is added at the end, a known one keeps its place. -/
def set (key : String) (value : Json) : Members → Members
  | [] => [(key, value)]
  | (k, v) :: rest => if k = key then (k, value) :: rest else (k, v) :: set key value rest

@[simp] theorem get?_nil (key : String) : get? [] key = none := rfl

@[simp] theorem set_nil (key : String) (value : Json) : set key value [] = [(key, value)] := rfl

theorem get?_cons (k : String) (v : Json) (rest : Members) (key : String) :
    get? ((k, v) :: rest) key = if key = k then some v else get? rest key := by
  by_cases h : key = k
  · simp [get?, h]
  · simp [get?, List.lookup_cons, h, beq_eq_false_iff_ne.2 h]

/-- A member that was set is found. -/
theorem get?_set_self (key : String) (value : Json) (members : Members) :
    get? (set key value members) key = some value := by
  induction members with
  | nil => simp [get?_cons]
  | cons m rest ih =>
    obtain ⟨k, v⟩ := m
    by_cases h : k = key
    · simp [set, h, get?_cons]
    · simp [set, h, get?_cons, ih, Ne.symm h]

end Members

end HclExport
