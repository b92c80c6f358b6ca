/-!
# Unique names

A registry hands out every name once. The first request for a name is granted as it
is; later ones get the least numbered variant that is free, counting from the number of
requests made.

## Main definitions

* `NameRegistry` — the requests made and the names handed out.
* `NameRegistry.request` — ask for a name.
* `NameRegistry.seen` — how often a name was asked for.
-/

namespace HclExport

/-- The requests made and the names handed out, the newest first. -/
structure NameRegistry where
  requested : List String := []
  issued : List String := []

namespace NameRegistry

/-- The numbered variant of a name. -/
def variant (name : String) (number : Nat) : String :=
  name ++ "_" ++ toString number

/-- The first number from `number` on whose variant was not handed out, looking at
`tries` further numbers at most. -/
def firstFree (issued : List String) (name : String) : Nat → Nat → Nat
  | 0, number => number
  | tries + 1, number =>
    if issued.contains (variant name number) then firstFree issued name tries (number + 1)
    else number

/-- How often a name was asked for. -/
def seen (registry : NameRegistry) (name : String) : Nat :=
  registry.requested.count name

/-- The name that the next request for `name` gets. Among as many variants as names were
handed out and one more, one is free. -/
def next (registry : NameRegistry) (name : String) : String :=
  if registry.issued.contains name then
    variant name (firstFree registry.issued name registry.issued.length
      (max (registry.seen name + 1) 2))
  else name

/-- Ask for a name: the name handed out, and the registry afterwards. -/
def request (registry : NameRegistry) (name : String) : String × NameRegistry :=
  let unique := registry.next name
  (unique, ⟨name :: registry.requested, unique :: registry.issued⟩)

@[simp] theorem request_fst (registry : NameRegistry) (name : String) :
    (registry.request name).1 = registry.next name := rfl

theorem seen_request (registry : NameRegistry) (name other : String) :
    (registry.request name).2.seen other =
      registry.seen other + if name = other then 1 else 0 := by
  by_cases h : name = other <;> simp [request, seen, h]

end NameRegistry

end HclExport
