import HclExport.Document.Path
import Mathlib.Data.List.Infix

/-!
# Splitting and joining paths

A path is cut at the dots that stand outside brackets. The depth of a place is told by the brackets
before it; it may be negative, and then no dot behind it divides until a bracket is opened again.

## Main definitions

* `bracketDepth` — how many more brackets a text opens than it closes.
* `IsSegment` — texts that can be segments: balanced, with all dots inside brackets.
* `withoutOuterDots` — the characters of a path but the dots outside brackets.

## Main results

* `splitFrom_append` — a stretch without a dividing dot goes to the segment begun.
* `flatten_splitFrom` — nothing but the dividing dots is lost.
* `splitPath_intercalate` — **splitting undoes joining.**
-/

namespace HclExport

/-! ### Depth -/

/-- How many more brackets a text opens than it closes. -/
def bracketDepth (cs : List Char) : Int :=
  (cs.count '[' : Int) - cs.count ']'

@[simp] theorem bracketDepth_nil : bracketDepth [] = 0 := rfl

theorem bracketDepth_append (cs more : List Char) :
    bracketDepth (cs ++ more) = bracketDepth cs + bracketDepth more := by
  simp only [bracketDepth, List.count_append]
  omega

/-- The depth behind a character by what it marks. -/
theorem depthAfter_ofChar (depth : Int) (c : Char) :
    (PathMark.ofChar c).depthAfter depth = depth + bracketDepth [c] := by
  by_cases hopening : c = '['
  · subst hopening
    rfl
  by_cases hclosing : c = ']'
  · subst hclosing
    rfl
  have hmark : (PathMark.ofChar c).depthAfter depth = depth := by
    rw [PathMark.ofChar, if_neg hopening, if_neg hclosing]
    split <;> rfl
  rw [hmark, bracketDepth, List.count_singleton, List.count_singleton]
  simp [hopening, hclosing]

theorem ofChar_eq_dot {c : Char} : PathMark.ofChar c = .dot ↔ c = '.' := by
  rw [PathMark.ofChar]
  split_ifs <;> simp_all

/-! ### One step -/

/-- Whether a character divides a path at some depth. -/
def divides (depth : Int) (c : Char) : Prop :=
  c = '.' ∧ depth = 0

instance (depth : Int) (c : Char) : Decidable (divides depth c) :=
  inferInstanceAs (Decidable (_ ∧ _))

theorem splitFrom_dot (current rest : List Char) :
    splitFrom PathMark.ofChar 0 current ('.' :: rest) =
      closeSegment current (splitFrom PathMark.ofChar 0 [] rest) := by
  rw [splitFrom]
  rfl

theorem splitFrom_cons {depth : Int} {c : Char} (h : ¬divides depth c) (current rest : List Char) :
    splitFrom PathMark.ofChar depth current (c :: rest) =
      splitFrom PathMark.ofChar (depth + bracketDepth [c]) (c :: current) rest := by
  rw [splitFrom, if_neg, depthAfter_ofChar]
  simpa [ofChar_eq_dot, divides] using h

/-- **A stretch without a dividing dot goes to the segment begun.** -/
theorem splitFrom_append {depth : Int} {cs : List Char}
    (h : ∀ before c, before ++ [c] <+: cs → ¬divides (depth + bracketDepth before) c)
    (current rest : List Char) :
    splitFrom PathMark.ofChar depth current (cs ++ rest) =
      splitFrom PathMark.ofChar (depth + bracketDepth cs) (cs.reverse ++ current) rest := by
  induction cs generalizing depth current with
  | nil => simp
  | cons c cs ih =>
    have hfirst : ¬divides depth c := by
      simpa using h [] c (List.prefix_append [c] cs)
    have hlater : ∀ before d, before ++ [d] <+: cs →
        ¬divides (depth + bracketDepth [c] + bracketDepth before) d := by
      intro before d hbefore
      have hcons := h (c :: before) d (List.cons_prefix_cons.2 ⟨rfl, hbefore⟩)
      rwa [← List.singleton_append, bracketDepth_append, ← Int.add_assoc] at hcons
    rw [List.cons_append, splitFrom_cons hfirst, ih hlater, ← List.singleton_append (l := cs),
      bracketDepth_append, Int.add_assoc, List.reverse_append, List.append_assoc]
    rfl

/-! ### Segments -/

/-- A text that can be a segment: it is not empty, its brackets are balanced and none is closed
before it is opened, and every dot stands inside of brackets. -/
def IsSegment (s : String) : Prop :=
  s ≠ "" ∧ bracketDepth s.toList = 0 ∧
    ∀ before ∈ s.toList.inits, 0 ≤ bracketDepth before ∧
      (before ++ ['.'] <+: s.toList → 0 < bracketDepth before)

instance (s : String) : Decidable (IsSegment s) :=
  inferInstanceAs (Decidable (_ ∧ _ ∧ _))

theorem IsSegment.not_divides {s : String} (h : IsSegment s) {before : List Char} {c : Char}
    (hbefore : before ++ [c] <+: s.toList) : ¬divides (0 + bracketDepth before) c := by
  rintro ⟨rfl, hdepth⟩
  have hinit : before ∈ s.toList.inits :=
    (List.mem_inits _ _).2 ((List.prefix_append before ['.']).trans hbefore)
  have hinside := (h.2.2 before hinit).2 hbefore
  omega

/-- A segment at the front of a path is cut off at the dot behind it. -/
theorem IsSegment.splitFrom_append {s : String} (h : IsSegment s) (rest : List Char) :
    splitFrom PathMark.ofChar 0 [] (s.toList ++ rest) =
      splitFrom PathMark.ofChar 0 s.toList.reverse rest := by
  rw [HclExport.splitFrom_append (fun _ _ => h.not_divides), h.2.1, List.append_nil]
  rfl

theorem IsSegment.closeSegment {s : String} (h : IsSegment s) (rest : List (List Char)) :
    closeSegment s.toList.reverse rest = s.toList :: rest := by
  have hne : s.toList ≠ [] := fun hnil => h.1 (String.toList_eq_nil_iff.1 hnil)
  rw [HclExport.closeSegment, if_neg (by simpa using hne), List.reverse_reverse]

theorem splitFrom_intercalate {segments : List String} (h : ∀ s ∈ segments, IsSegment s) :
    splitFrom PathMark.ofChar 0 [] (".".intercalate segments).toList =
      segments.map String.toList := by
  induction segments with
  | nil => rfl
  | cons first rest ih =>
    obtain ⟨hfirst, hrest⟩ := List.forall_mem_cons.1 h
    cases rest with
    | nil =>
      rw [String.intercalate_singleton, ← List.append_nil first.toList, hfirst.splitFrom_append]
      exact hfirst.closeSegment []
    | cons second rest =>
      rw [String.intercalate_cons_cons, String.append_assoc, String.toList_append,
        hfirst.splitFrom_append, String.toList_append]
      change splitFrom PathMark.ofChar 0 _ ('.' :: (".".intercalate (second :: rest)).toList) = _
      rw [splitFrom_dot, ih hrest, hfirst.closeSegment]
      rfl

/-! ### Any path -/

/-- The characters of a path but the dots outside brackets, behind a text of some depth. -/
def withoutOuterDots (depth : Int) (cs : List Char) : List Char :=
  (cs.inits.zip cs).filterMap fun (before, c) =>
    if divides (depth + bracketDepth before) c then none else some c

@[simp] theorem withoutOuterDots_nil (depth : Int) : withoutOuterDots depth [] = [] := rfl

theorem withoutOuterDots_cons (depth : Int) (c : Char) (rest : List Char) :
    withoutOuterDots depth (c :: rest) =
      (if divides depth c then [] else [c]) ++
        withoutOuterDots (depth + bracketDepth [c]) rest := by
  have hshift : withoutOuterDots (depth + bracketDepth [c]) rest =
      ((rest.inits.map (c :: ·)).zip rest).filterMap fun (before, d) =>
        if divides (depth + bracketDepth before) d then none else some d := by
    rw [withoutOuterDots, List.zip_map_left, List.filterMap_map]
    congr 1
    funext ⟨before, d⟩
    have hbefore : bracketDepth (c :: before) = bracketDepth [c] + bracketDepth before :=
      bracketDepth_append [c] before
    simp only [Function.comp_apply, Prod.map_apply, id_eq, hbefore, Int.add_assoc]
  rw [hshift, withoutOuterDots, List.inits_cons, List.zip_cons_cons, List.filterMap_cons]
  by_cases hdivides : divides depth c
  · simp [hdivides]
  · simp [hdivides]

/-- Dots are all that is left out. -/
theorem withoutOuterDots_sublist (depth : Int) (cs : List Char) :
    (withoutOuterDots depth cs).Sublist cs ∧
      (withoutOuterDots depth cs).filter (· ≠ '.') = cs.filter (· ≠ '.') := by
  induction cs generalizing depth with
  | nil => exact ⟨List.Sublist.refl _, rfl⟩
  | cons c rest ih =>
    obtain ⟨hsublist, hfilter⟩ := ih (depth + bracketDepth [c])
    rw [withoutOuterDots_cons]
    by_cases hdivides : divides depth c
    · rw [if_pos hdivides, List.nil_append, List.filter_cons_of_neg (by simpa using hdivides.1)]
      exact ⟨hsublist.cons c, hfilter⟩
    · rw [if_neg hdivides, List.singleton_append, List.filter_cons, List.filter_cons, hfilter]
      exact ⟨hsublist.cons_cons c, rfl⟩

theorem flatten_closeSegment (current : List Char) (rest : List (List Char)) :
    (closeSegment current rest).flatten = current.reverse ++ rest.flatten := by
  rw [closeSegment]
  split
  next h => rw [List.isEmpty_iff.1 h]; rfl
  next => rfl

/-- **Nothing but the dividing dots is lost**, whatever the brackets. -/
theorem flatten_splitFrom (depth : Int) (current cs : List Char) :
    (splitFrom PathMark.ofChar depth current cs).flatten =
      current.reverse ++ withoutOuterDots depth cs := by
  induction cs generalizing depth current with
  | nil => exact flatten_closeSegment current []
  | cons c rest ih =>
    rw [withoutOuterDots_cons]
    by_cases hdivides : divides depth c
    · obtain ⟨rfl, rfl⟩ := hdivides
      rw [splitFrom_dot, flatten_closeSegment, ih, if_pos ⟨rfl, rfl⟩]
      rfl
    · rw [splitFrom_cons hdivides, ih, if_neg hdivides]
      simp

theorem nil_notMem_closeSegment {current : List Char} {rest : List (List Char)} (h : [] ∉ rest) :
    [] ∉ closeSegment current rest := by
  rw [closeSegment]
  split
  next => exact h
  next hne => simpa [h] using hne

theorem nil_notMem_splitFrom (depth : Int) (current cs : List Char) :
    [] ∉ splitFrom PathMark.ofChar depth current cs := by
  induction cs generalizing depth current with
  | nil => exact nil_notMem_closeSegment List.not_mem_nil
  | cons c rest ih =>
    rw [splitFrom]
    split
    next => exact nil_notMem_closeSegment (ih depth [])
    next => exact ih _ _

/-- **Splitting undoes joining.** Segments that are balanced, with all dots inside brackets, are
found again in the path that they make with dots between them. Any path at all has no empty
segments, and its segments together are the path without the dots that stand outside brackets, and
so the path without some of its dots. -/
theorem splitPath_intercalate :
    (∀ segments : List String, (∀ s ∈ segments, IsSegment s) →
      splitPath (".".intercalate segments) = segments) ∧
    ∀ path : String, "" ∉ splitPath path ∧
      (String.join (splitPath path)).toList = withoutOuterDots 0 path.toList ∧
      (String.join (splitPath path)).toList.Sublist path.toList ∧
      (String.join (splitPath path)).toList.filter (· ≠ '.') = path.toList.filter (· ≠ '.') := by
  constructor
  · intro segments h
    rw [splitPath, splitFrom_intercalate h, List.map_map]
    simp [Function.comp_def]
  · intro path
    have hjoin : (String.join (splitPath path)).toList = withoutOuterDots 0 path.toList := by
      rw [String.toList_join, splitPath, List.flatMap_map]
      simp only [String.toList_ofList, List.flatMap_id']
      exact flatten_splitFrom 0 [] path.toList
    refine ⟨?_, hjoin, ?_⟩
    · rw [splitPath, List.mem_map]
      rintro ⟨segment, hsegment, hempty⟩
      rw [String.ofList_eq_empty_iff.1 hempty] at hsegment
      exact nil_notMem_splitFrom 0 [] path.toList hsegment
    · rw [hjoin]
      exact withoutOuterDots_sublist 0 path.toList

/-- Segments with dots inside their brackets, and a path that closes brackets it has not opened. -/
theorem splitPath_intercalate_bracketed :
    splitPath (".".intercalate ["graphData", "nodes[*]", "[a.b[c.d].]"]) =
      ["graphData", "nodes[*]", "[a.b[c.d].]"] ∧
    (String.join (splitPath ".a].b[.c")).toList = withoutOuterDots 0 ".a].b[.c".toList :=
  ⟨splitPath_intercalate.1 _ (by decide), (splitPath_intercalate.2 _).2.1⟩

end HclExport
