import HclExport.Proofs.Conversion.Draft

/-!
# Computations that match

Two conversions may come to different texts for what they could not convert, and that is of no
account for what they write. So computations match when their results are related, when both meet
a fault, whichever it is, or when they fail in the same way otherwise.

## Main definitions

* `Matches` — computations whose results are related, or which meet faults, or fail in the same way.

## Main results

* `Matches.draft_bind`, `Matches.same_bind`, `Matches.lift_bind` — drafts in a row.
* `Matches.settles_iff` — computations that match come to an end alike.
-/

namespace HclExport

variable {α β γ δ : Type}

/-- Computations whose results are related, or which both meet a fault, or which fail in the same
way otherwise. -/
inductive Matches (R : α → β → Prop) : Except Failure α → Except Failure β → Prop
  | ok {a : α} {b : β} (h : R a b) : Matches R (.ok a) (.ok b)
  | fault (first second : Fault) : Matches R (.error (.fault first)) (.error (.fault second))
  | failure (failure : Failure) : Matches R (.error failure) (.error failure)

namespace Matches

variable {R : α → β → Prop} {S : γ → δ → Prop}

theorem bind {x : Except Failure α} {y : Except Failure β} {f : α → Except Failure γ}
    {g : β → Except Failure δ} (h : Matches R x y) (hf : ∀ a b, R a b → Matches S (f a) (g b)) :
    Matches S (x >>= f) (y >>= g) := by
  cases h with
  | ok h => exact hf _ _ h
  | fault first second => exact .fault first second
  | failure failure => exact .failure failure

theorem of_eq {R : α → α → Prop} (hrefl : ∀ a, R a a) {x y : Except Failure α} (h : x = y) :
    Matches R x y := by
  cases h
  cases x with
  | error failure => exact .failure failure
  | ok a => exact .ok (hrefl a)

/-- Computations that come to the results of one computation. -/
theorem of_common {x y z : Except Failure α} (hx : Matches Eq z x) (hy : Matches Eq z y) :
    Matches Eq x y := by
  cases hx with
  | ok h =>
    cases hy with
    | ok h' => exact .ok (h.symm.trans h')
  | fault _ second =>
    cases hy with
    | fault _ other => exact .fault second other
    | failure _ => exact .fault second _
  | failure failure =>
    cases hy with
    | fault first second => exact .fault first second
    | failure _ => exact .failure failure

/-- Drafts that first come to results that match, and go on to results that match. -/
theorem draft_bind {answer answer' : Request → Hcl.Expression} {d : Draft γ} {e : Draft δ}
    {f : γ → Draft α} {g : δ → Draft β} (h : Matches S (d.result answer) (e.result answer'))
    (hf : ∀ c c', S c c' → Matches R ((f c).result answer) ((g c').result answer')) :
    Matches R ((d >>= f).result answer) ((e >>= g).result answer') := by
  rw [Draft.result_bind, Draft.result_bind]
  exact h.bind hf

/-- Drafts that are first the same, and go on to results that match. -/
theorem same_bind {answer : Request → Hcl.Expression} {d : Draft γ} {f : γ → Draft α}
    {g : γ → Draft β} (hf : ∀ c, Matches R ((f c).result answer) ((g c).result answer)) :
    Matches R ((d >>= f).result answer) ((d >>= g).result answer) := by
  refine draft_bind (of_eq (R := Eq) (fun _ => rfl) rfl) ?_
  rintro c _ rfl
  exact hf c

/-- Drafts that first compute the same, and go on to results that match. -/
theorem lift_bind {answer answer' : Request → Hcl.Expression} {x y : Except Failure γ}
    {f : γ → Draft α} {g : γ → Draft β} (hxy : x = y)
    (hf : ∀ c, x = .ok c → Matches R ((f c).result answer) ((g c).result answer')) :
    Matches R ((liftM x >>= f : Draft α).result answer)
      ((liftM y >>= g : Draft β).result answer') := by
  cases hxy
  cases x with
  | error failure => exact .failure failure
  | ok c => exact hf c rfl

/-- One comes to a result if and only if the other does, and meets a fault if and only if the other
does. -/
theorem settles_iff {x : Except Failure α} {y : Except Failure β} (h : Matches R x y)
    (strict : Bool) :
    ((∃ a, x = .ok a) ∨ strict = false ∧ ∃ fault, x = .error (.fault fault)) ↔
      ((∃ b, y = .ok b) ∨ strict = false ∧ ∃ fault, y = .error (.fault fault)) := by
  cases h with
  | ok h => simp
  | fault first second => simp
  | failure failure => simp

end Matches

end HclExport
