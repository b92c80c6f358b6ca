import HclExport.Proofs.Resource.FreshName
import Mathlib.Data.Set.Defs
import Mathlib.Order.Bounds.Defs

/-!
# What a registry grants

A request for a name that is taken is answered by a search through the numbered variants of the
name. The search starts at the number of requests made for it, because all variants with a smaller
number are taken by then: each request for the name took one of them at least. So the answer is the
same as that of a search from the number two on.

## Main definitions

* `NameRegistry.after`, `NameRegistry.grants` — a registry after some requests, and its answers.
* `EndsAt` — a search that tries one number after the other, and where it ends.
* `Counted` — the variants below the number of requests are taken.

## Main results

* `endsAt_firstFree` — the search for a free variant comes to an end.
* `counted_after` — however requests alternate, the variants that are skipped are taken.
* `grants_least` — **each request is granted as it is, or with the least free number.**
-/

namespace HclExport
namespace NameRegistry

/-! ### Requests in turn -/

/-- The registry after some requests. -/
def after (registry : NameRegistry) (names : List String) : NameRegistry :=
  names.foldl (fun current name => (current.request name).2) registry

/-- The names that are granted to some requests. -/
def grants (registry : NameRegistry) : List String → List String
  | [] => []
  | name :: rest => (registry.request name).1 :: grants (registry.request name).2 rest

@[simp] theorem after_nil (registry : NameRegistry) : registry.after [] = registry := rfl

@[simp] theorem after_cons (registry : NameRegistry) (name : String) (rest : List String) :
    registry.after (name :: rest) = (registry.request name).2.after rest := rfl

@[simp] theorem grants_nil (registry : NameRegistry) : registry.grants [] = [] := rfl

@[simp] theorem grants_cons (registry : NameRegistry) (name : String) (rest : List String) :
    registry.grants (name :: rest) = registry.next name :: (registry.request name).2.grants rest :=
  rfl

theorem grants_append (registry : NameRegistry) (names more : List String) :
    registry.grants (names ++ more) =
      registry.grants names ++ (registry.after names).grants more := by
  induction names generalizing registry with
  | nil => simp
  | cons name rest ih => simp [ih]

@[simp] theorem length_grants (registry : NameRegistry) (names : List String) :
    (registry.grants names).length = names.length := by
  induction names generalizing registry with
  | nil => simp
  | cons name rest ih => simp [ih]

/-- What was handed out is what was granted. -/
theorem issued_after (registry : NameRegistry) (names : List String) :
    (registry.after names).issued = (registry.grants names).reverse ++ registry.issued := by
  induction names generalizing registry with
  | nil => simp
  | cons name rest ih => simp [ih]

theorem seen_after (registry : NameRegistry) (names : List String) (name : String) :
    (registry.after names).seen name = registry.seen name + names.count name := by
  induction names generalizing registry with
  | nil => simp
  | cons first rest ih =>
    rw [after_cons, ih, seen_request, List.count_cons]
    by_cases h : first = name
    · simp [h]
      omega
    · simp [h]

theorem nodup_issued_after {registry : NameRegistry} (h : registry.issued.Nodup)
    (names : List String) : (registry.after names).issued.Nodup := by
  induction names generalizing registry with
  | nil => exact h
  | cons name rest ih =>
    refine ih ?_
    rw [issued_request]
    exact List.nodup_cons.2 ⟨next_not_mem_issued registry name, h⟩

/-! ### The search for a free variant -/

/-- A search among the variants of a name that goes up from a number until a variant is free ends at
some number. -/
inductive EndsAt (issued : List String) (name : String) : Nat → Nat → Prop
  | free {number : Nat} (h : variant name number ∉ issued) : EndsAt issued name number number
  | taken {number last : Nat} (h : variant name number ∈ issued)
      (next : EndsAt issued name (number + 1) last) : EndsAt issued name number last

theorem EndsAt.le {issued : List String} {name : String} {number last : Nat}
    (h : EndsAt issued name number last) : number ≤ last := by
  induction h with
  | free _ => exact Nat.le_refl _
  | taken _ _ ih => omega

/-- Where a search ends, a variant is free. -/
theorem EndsAt.not_mem {issued : List String} {name : String} {number last : Nat}
    (h : EndsAt issued name number last) : variant name last ∉ issued := by
  induction h with
  | free h => exact h
  | taken _ _ ih => exact ih

/-- The variants that a search passed over are taken. -/
theorem EndsAt.mem {issued : List String} {name : String} {number last : Nat}
    (h : EndsAt issued name number last) {k : Nat} (hle : number ≤ k) (hlt : k < last) :
    variant name k ∈ issued := by
  induction h with
  | free _ => omega
  | @taken number last htaken _ ih =>
    rcases Nat.eq_or_lt_of_le hle with rfl | hlt'
    · exact htaken
    · exact ih hlt' hlt

theorem EndsAt.mono {issued other : List String} {name : String} {number last : Nat}
    (h : EndsAt issued name number last) (hsame : ∀ s, s ∈ issued ↔ s ∈ other) :
    EndsAt other name number last := by
  induction h with
  | free h => exact .free fun hmem => h ((hsame _).2 hmem)
  | taken h _ ih => exact .taken ((hsame _).1 h) ih

/-- A bounded search that ends at a free variant is one without a bound. -/
theorem endsAt_of_not_mem {issued : List String} {name : String} :
    ∀ {tries number : Nat}, variant name (firstFree issued name tries number) ∉ issued →
      EndsAt issued name number (firstFree issued name tries number) := by
  intro tries
  induction tries with
  | zero =>
    intro number h
    exact .free h
  | succ tries ih =>
    intro number h
    rw [firstFree] at h ⊢
    by_cases hmem : issued.contains (variant name number) = true
    · rw [if_pos hmem] at h ⊢
      exact .taken (List.contains_iff_mem.1 hmem) (ih h)
    · rw [if_neg hmem] at h ⊢
      exact .free h

/-- The search for a free variant comes to an end, from wherever it starts. -/
theorem endsAt_firstFree (issued : List String) (name : String) (number : Nat) :
    EndsAt issued name number (firstFree issued name issued.length number) :=
  endsAt_of_not_mem (variant_firstFree_not_mem issued name number)

/-! ### Variants that are skipped -/

/-- A name that was asked for is taken, and so are its variants up to the number of requests. -/
structure Counted (registry : NameRegistry) : Prop where
  name_mem : ∀ name, 0 < registry.seen name → name ∈ registry.issued
  variant_mem : ∀ name number, 2 ≤ number → number ≤ registry.seen name →
    variant name number ∈ registry.issued

theorem counted_empty : Counted {} where
  name_mem := fun _ h => absurd h (Nat.lt_irrefl 0)
  variant_mem := fun _ number h hle => absurd (Nat.le_trans h hle) (by decide : ¬2 ≤ 0)

theorem next_of_not_mem {registry : NameRegistry} {name : String} (h : name ∉ registry.issued) :
    registry.next name = name := by
  unfold next
  rw [if_neg fun hmem => h (List.contains_iff_mem.1 hmem)]

/-- A name that is taken is answered by where the search from the number of this request ends. -/
theorem exists_endsAt_of_mem {registry : NameRegistry} {name : String}
    (h : name ∈ registry.issued) :
    ∃ number, EndsAt registry.issued name (max (registry.seen name + 1) 2) number ∧
      registry.next name = variant name number := by
  refine ⟨_, endsAt_firstFree registry.issued name _, ?_⟩
  unfold next
  rw [if_pos (List.contains_iff_mem.2 h)]

/-- A request keeps this: if the name is taken, the variant with the number of the request is taken
afterwards, because the search starts there. -/
theorem Counted.request {registry : NameRegistry} (h : Counted registry) (name : String) :
    Counted (registry.request name).2 where
  name_mem := by
    intro other hseen
    rw [issued_request, List.mem_cons]
    by_cases hmem : other ∈ registry.issued
    · exact Or.inr hmem
    -- only the name of this request can be new, and then it is granted
    · rw [seen_request] at hseen
      have hzero : registry.seen other = 0 := by
        have := mt (h.name_mem other) hmem
        omega
      have hsame : name = other := by
        by_contra hne
        simp [hzero, hne] at hseen
      subst hsame
      exact Or.inl (next_of_not_mem hmem).symm
  variant_mem := by
    intro other number htwo hle
    rw [seen_request] at hle
    rw [issued_request, List.mem_cons]
    by_cases hbelow : number ≤ registry.seen other
    · exact Or.inr (h.variant_mem other number htwo hbelow)
    · -- the number is that of this request, so that the search starts there
      have hsame : name = other := by
        by_contra hne
        simp only [hne, if_false] at hle
        omega
      subst hsame
      simp only [if_true] at hle
      have hmem : name ∈ registry.issued := h.name_mem name (by omega)
      obtain ⟨last, hends, hnext⟩ := exists_endsAt_of_mem hmem
      have hstart : max (registry.seen name + 1) 2 = number := by omega
      rw [hstart] at hends
      rcases Nat.eq_or_lt_of_le hends.le with rfl | hlt
      · exact Or.inl hnext.symm
      · exact Or.inr (hends.mem (Nat.le_refl _) hlt)

/-- However requests for different names alternate, the variants that are skipped are taken. -/
theorem counted_after {registry : NameRegistry} (h : Counted registry) (names : List String) :
    Counted (registry.after names) := by
  induction names generalizing registry with
  | nil => exact h
  | cons name rest ih => exact ih (h.request name)

/-- A search from the number of the next request on ends where one from two on does. -/
theorem Counted.isLeast {registry : NameRegistry} (h : Counted registry) {name : String}
    {last : Nat} (hends : EndsAt registry.issued name (max (registry.seen name + 1) 2) last) :
    IsLeast {number | 2 ≤ number ∧ variant name number ∉ registry.issued} last := by
  refine ⟨⟨?_, hends.not_mem⟩, ?_⟩
  · have := hends.le
    omega
  · rintro number ⟨htwo, hfree⟩
    by_contra hlt
    refine hfree ?_
    by_cases hbelow : number ≤ registry.seen name
    · exact h.variant_mem name number htwo hbelow
    · exact hends.mem (by omega) (by omega)

/-! ### What is granted -/

/-- **Each request is granted as it is, or with the least free number.** No two requests to a new
registry get the same name. A request for a name that none before it got is granted as it is. For a
name that one of them got, the search that starts at the number of requests for it comes to an end,
and it ends at the least number from two on whose variant none of them got. -/
theorem grants_least (before : List String) (name : String) (later : List String) :
    (grants {} (before ++ name :: later)).Nodup ∧
    ∃ grant more, grants {} (before ++ name :: later) = grants {} before ++ grant :: more ∧
      more.length = later.length ∧
      ((name ∉ grants {} before ∧ grant = name) ∨
        (name ∈ grants {} before ∧ ∃ number,
          EndsAt (grants {} before) name (max (before.count name + 1) 2) number ∧
          IsLeast {k | 2 ≤ k ∧ variant name k ∉ grants {} before} number ∧
          grant = variant name number)) := by
  have hissued : ∀ names s, s ∈ (after {} names).issued ↔ s ∈ grants {} names := by
    intro names s
    rw [issued_after]
    simp
  constructor
  · have hnodup : (after {} (before ++ name :: later)).issued.Nodup :=
      nodup_issued_after List.nodup_nil _
    rw [issued_after] at hnodup
    simpa using hnodup
  have hseen : (after {} before).seen name = before.count name := by
    rw [seen_after]
    exact Nat.zero_add _
  refine ⟨(after {} before).next name, (after {} (before ++ [name])).grants later, ?_, by simp, ?_⟩
  · rw [grants_append, grants_cons]
    simp [after]
  by_cases hmem : name ∈ grants {} before
  · obtain ⟨number, hends, hnext⟩ := exists_endsAt_of_mem ((hissued before name).2 hmem)
    have hleast := (counted_after counted_empty before).isLeast hends
    simp only [hissued] at hleast
    rw [hseen] at hends
    exact Or.inr ⟨hmem, number, hends.mono (hissued before), hleast, hnext⟩
  · exact Or.inl ⟨hmem, next_of_not_mem fun h => hmem ((hissued before name).1 h)⟩

/-- The variant that a later label looks like is passed over. -/
example : grants {} ["Login", "Login_2", "Login", "Login_2"] =
    ["Login", "Login_2", "Login_3", "Login_2_2"] := by decide

end NameRegistry
end HclExport
