import HclExport.Resource.Kind

/-!
# Counting by kind

## Main definitions

* `KindCounts` — a number for each kind that was counted.
* `KindCounts.total` — the sum over all kinds.
-/

namespace HclExport

/-- A number for each kind that was counted. -/
structure KindCounts where
  count? : Kind → Option Nat := fun _ => none

namespace KindCounts

/-- The same count for every kind. -/
def ofEach (count : Kind → Nat) : KindCounts where
  count? := fun kind => some (count kind)

/-- The number for a kind, zero when it was not counted. -/
def countOf (counts : KindCounts) (kind : Kind) : Nat :=
  (counts.count? kind).getD 0

/-- Note the number for a kind. -/
def set (kind : Kind) (count : Nat) (counts : KindCounts) : KindCounts where
  count? := fun other => if other = kind then some count else counts.count? other

/-- The kinds that were counted, with their numbers. -/
def toList (counts : KindCounts) : List (Kind × Nat) :=
  Kind.all.filterMap fun kind => (counts.count? kind).map fun count => (kind, count)

/-- The sum over all kinds. -/
def total (counts : KindCounts) : Nat :=
  Kind.all.foldl (fun sum kind => sum + counts.countOf kind) 0

@[simp] theorem countOf_ofEach (count : Kind → Nat) (kind : Kind) :
    (ofEach count).countOf kind = count kind := rfl

theorem countOf_set (kind other : Kind) (count : Nat) (counts : KindCounts) :
    (counts.set kind count).countOf other =
      if other = kind then count else counts.countOf other := by
  by_cases h : other = kind <;> simp [set, countOf, h]

end KindCounts

end HclExport
