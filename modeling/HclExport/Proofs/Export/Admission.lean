import HclExport.Proofs.Conversion.Emission
import HclExport.Proofs.Export.Intake

/-!
# Which documents take part

What becomes of a document can be told from the document, with one exception: of several
documents of one identity the first takes part, and the others are passed over. So the kinds
of a batch need not be gone through one by one; its documents are taken in by a single loop
that is refused only where a strict export meets a document that cannot be identified.

## Main definitions

* `firstsBy` — the elements of a list that are the first of their key.
* `Fate`, `Scope.fate` — what becomes of a document by itself.
* `Batch.inOrder`, `Batch.candidates`, `Batch.allCandidates` — the documents of a batch in the
  order in which they are taken in, and those that may take part.
* `Intake.take` — what was taken in after a further document.
* `Intake.Accounts` — what was taken in, read off the documents.

## Main results

* `Intake.acceptBatch_standard` — taking in a batch as one loop.
* `Intake.accounts_foldl_take` — what that loop comes to.
-/

namespace HclExport

/-! ### First elements -/

section Firsts

variable {α κ : Type} [DecidableEq κ] (key : α → κ)

/-- The elements of a list that are the first of their key, in order. -/
def firstsBy : List α → List α
  | [] => []
  | x :: rest => x :: (firstsBy rest).filter fun y => key y ≠ key x

theorem firstsBy_sublist (xs : List α) : (firstsBy key xs).Sublist xs := by
  induction xs with
  | nil => exact List.Sublist.refl _
  | cons x rest ih => exact (List.filter_sublist.trans ih).cons_cons x

/-- No key is lost. -/
theorem map_firstsBy_subset (xs : List α) : xs.map key ⊆ (firstsBy key xs).map key := by
  induction xs with
  | nil => simp
  | cons x rest ih =>
    intro k hk
    by_cases hx : k = key x
    · rw [hx]
      exact List.mem_map_of_mem List.mem_cons_self
    · have hrest : k ∈ rest.map key := by
        rcases List.mem_cons.1 hk with hk | hk
        · exact absurd hk hx
        · exact hk
      obtain ⟨y, hy, rfl⟩ := List.mem_map.1 (ih hrest)
      exact List.mem_map_of_mem (List.mem_cons_of_mem _ (List.mem_filter.2 ⟨hy, by simpa using hx⟩))

/-- A further element is the first of its key if none before it has that key. -/
theorem firstsBy_append_singleton (xs : List α) (x : α) :
    firstsBy key (xs ++ [x]) =
      if key x ∈ xs.map key then firstsBy key xs else firstsBy key xs ++ [x] := by
  induction xs with
  | nil => simp [firstsBy]
  | cons y rest ih =>
    rw [List.cons_append, firstsBy, ih, firstsBy]
    by_cases hrest : key x ∈ rest.map key
    · have hall : key x ∈ (y :: rest).map key := List.mem_cons_of_mem _ hrest
      rw [if_pos hrest, if_pos hall]
    · rw [if_neg hrest, List.filter_append]
      by_cases hy : key x = key y
      · have hall : key x ∈ (y :: rest).map key := List.mem_cons.2 (Or.inl hy)
        rw [if_pos hall]
        simp [hy]
      · have hall : key x ∉ (y :: rest).map key := by
          intro hmem
          rcases List.mem_cons.1 hmem with hmem | hmem
          · exact hy hmem
          · exact hrest hmem
        rw [if_neg hall]
        simp [hy]

variable {key}

theorem firstsBy_of_nodup {xs : List α} (h : (xs.map key).Nodup) : firstsBy key xs = xs := by
  induction xs with
  | nil => rfl
  | cons x rest ih =>
    obtain ⟨hx, hrest⟩ := List.nodup_cons.1 h
    rw [firstsBy, ih hrest, List.filter_eq_self.2]
    intro y hy
    have hne : key y ≠ key x := fun heq => hx (heq ▸ List.mem_map_of_mem hy)
    simpa using hne

/-- Where two lists share no key, the first elements are those of each. -/
theorem firstsBy_append {xs ys : List α} (h : ∀ x ∈ xs, ∀ y ∈ ys, key x ≠ key y) :
    firstsBy key (xs ++ ys) = firstsBy key xs ++ firstsBy key ys := by
  induction xs with
  | nil => rfl
  | cons x rest ih =>
    have hothers : (firstsBy key ys).filter (fun y => key y ≠ key x) = firstsBy key ys := by
      rw [List.filter_eq_self]
      intro y hy
      have hne := h x List.mem_cons_self y ((firstsBy_sublist key ys).subset hy)
      simpa using hne.symm
    rw [List.cons_append, firstsBy, ih fun z hz => h z (List.mem_cons_of_mem _ hz),
      List.filter_append, hothers, firstsBy, List.cons_append]

/-- Where no two groups share a key, the first elements are those of each group. -/
theorem firstsBy_flatMap {γ : Type} {groups : List γ} {items : γ → List α}
    (h : groups.Pairwise fun a b => ∀ x ∈ items a, ∀ y ∈ items b, key x ≠ key y) :
    firstsBy key (groups.flatMap items) = groups.flatMap fun a => firstsBy key (items a) := by
  induction groups with
  | nil => rfl
  | cons a rest ih =>
    obtain ⟨hfirst, hrest⟩ := List.pairwise_cons.1 h
    rw [List.flatMap_cons, firstsBy_append, ih hrest, List.flatMap_cons]
    intro x hx y hy
    obtain ⟨b, hb, hy⟩ := List.mem_flatMap.1 hy
    exact hfirst b hb x hx y hy

/-- No two first elements have one key. -/
theorem nodup_map_firstsBy (xs : List α) : ((firstsBy key xs).map key).Nodup := by
  induction xs with
  | nil => exact List.nodup_nil
  | cons x rest ih =>
    rw [firstsBy, List.map_cons, List.nodup_cons]
    constructor
    · intro hx
      obtain ⟨y, hy, hkey⟩ := List.mem_map.1 hx
      have hne := (List.mem_filter.1 hy).2
      simp [hkey] at hne
    · exact ih.sublist (List.filter_sublist.map key)

/-- A first element is found by its key. -/
theorem find?_of_mem_firstsBy {xs : List α} {x : α} (h : x ∈ firstsBy key xs) :
    xs.find? (fun y => key y = key x) = some x := by
  induction xs with
  | nil => cases h
  | cons first rest ih =>
    rw [firstsBy] at h
    rcases List.mem_cons.1 h with rfl | h
    · exact List.find?_cons_of_pos (by simp)
    · obtain ⟨hrest, hne⟩ := List.mem_filter.1 h
      have hne : key first ≠ key x := by
        intro heq
        simp [heq] at hne
      rw [List.find?_cons_of_neg (by simpa using hne)]
      exact ih hrest

end Firsts

/-- What is chosen by a stricter choice. -/
theorem filterMap_sublist_filterMap {α β : Type} {f g : α → Option β}
    (h : ∀ x b, f x = some b → g x = some b) (xs : List α) :
    (xs.filterMap f).Sublist (xs.filterMap g) := by
  induction xs with
  | nil => exact List.Sublist.refl _
  | cons x rest ih =>
    rw [List.filterMap_cons, List.filterMap_cons]
    cases hf : f x with
    | some b =>
      rw [h x b hf]
      exact ih.cons_cons b
    | none =>
      cases hg : g x with
      | some c => exact ih.cons c
      | none => exact ih

/-! ### What becomes of a document -/

/-- What becomes of a document by itself. A candidate takes part unless its identity is taken. -/
inductive Fate
  | uncovered
  | unidentified (fault : Fault)
  | excluded
  | candidate (entry : Entry) (label : String)

namespace Fate

/-- The candidate, if there is one. -/
@[simp] def candidate? : Fate → Option Entry
  | candidate entry _ => some entry
  | _ => none

/-- The fault, if the document cannot be identified. -/
@[simp] def fault? : Fate → Option Fault
  | unidentified fault => some fault
  | _ => none

/-- Whether the kind of the document is not covered. -/
@[simp] def isUncovered : Fate → Bool
  | uncovered => true
  | _ => false

/-- Whether the document is left out. -/
@[simp] def isExcluded : Fate → Bool
  | excluded => true
  | _ => false

end Fate

/-- What becomes of a document of a kind. -/
def Scope.fate (scope : Scope) (kind : Kind) (document : Members) : Fate :=
  if scope.covers kind then
    match Intake.identify kind.converter document with
    | .error fault => .unidentified fault
    | .ok (ref, label) => if scope.isExcluded ref then .excluded else .candidate ⟨ref, document⟩ label
  else .uncovered

/-- The candidate that a document of a kind is, if it is one. -/
def Scope.candidate? (scope : Scope) (document : Kind × Members) : Option Entry :=
  (scope.fate document.1 document.2).candidate?

/-- The report of a document of a kind that cannot be identified. -/
def Scope.problem? (scope : Scope) (document : Kind × Members) : Option Problem :=
  (scope.fate document.1 document.2).fault?.map (Intake.unidentified document.1 document.2)

/-- A candidate stands for its document, under an identity of its kind that is not left out. -/
theorem Scope.fate_eq_candidate {scope : Scope} {kind : Kind} {document : Members} {entry : Entry}
    {label : String} (h : scope.fate kind document = .candidate entry label) :
    entry.document = document ∧ entry.ref.kind = kind ∧ scope.covers kind = true ∧
      scope.isExcluded entry.ref = false ∧
      Intake.identify kind.converter document = .ok (entry.ref, label) := by
  unfold fate at h
  split at h
  next hcovers =>
    split at h
    next => cases h
    next ref found hidentify =>
      split at h
      next => cases h
      next hexcluded =>
        obtain ⟨rfl, rfl⟩ := Fate.candidate.inj h
        refine ⟨rfl, ?_, hcovers, by simpa using hexcluded, hidentify⟩
        rw [Intake.kind_of_identify hidentify, Kind.kind_converter]
  next => cases h

theorem Scope.candidate?_eq_some_iff {scope : Scope} {document : Kind × Members} {entry : Entry} :
    scope.candidate? document = some entry ↔
      ∃ label, scope.fate document.1 document.2 = .candidate entry label := by
  unfold candidate?
  cases scope.fate document.1 document.2 <;> simp

namespace Batch

/-- The documents of a batch with their kinds, in the order in which they are taken in. -/
def inOrder (batch : Batch) : List (Kind × Members) :=
  Kind.all.flatMap fun kind => (batch.of kind).map fun document => (kind, document)

/-- The documents of a kind that may take part: those of a covered kind that can be identified
and are not left out. -/
def candidates (batch : Batch) (scope : Scope) (kind : Kind) : List Entry :=
  (batch.of kind).filterMap fun document => scope.candidate? (kind, document)

/-- The documents of all kinds that may take part, in order. -/
def allCandidates (batch : Batch) (scope : Scope) : List Entry :=
  batch.inOrder.filterMap scope.candidate?

theorem allCandidates_eq (batch : Batch) (scope : Scope) :
    batch.allCandidates scope = Kind.all.flatMap (batch.candidates scope) := by
  rw [allCandidates, inOrder, List.filterMap_flatMap]
  refine List.flatMap_congr ?_
  intro kind _
  rw [List.filterMap_map]
  rfl

theorem kind_of_mem_candidates {batch : Batch} {scope : Scope} {kind : Kind} {entry : Entry}
    (h : entry ∈ batch.candidates scope kind) : entry.ref.kind = kind := by
  obtain ⟨document, -, hcandidate⟩ := List.mem_filterMap.1 h
  obtain ⟨label, hfate⟩ := Scope.candidate?_eq_some_iff.1 hcandidate
  exact (Scope.fate_eq_candidate hfate).2.1

end Batch

/-! ### One loop -/

/-- Two loops that make the same steps, as long as an invariant holds, come to the same. -/
theorem foldlM_congr_of_invariant {σ α ε : Type} {f g : σ → α → Except ε σ} {invariant : σ → Prop}
    {xs : List α} (hsame : ∀ s, invariant s → ∀ x ∈ xs, f s x = g s x)
    (hstep : ∀ s a next, invariant s → f s a = .ok next → invariant next) {s : σ}
    (hs : invariant s) : xs.foldlM f s = xs.foldlM g s := by
  induction xs generalizing s with
  | nil => rfl
  | cons x xs ih =>
    rw [List.foldlM_cons, List.foldlM_cons, ← hsame s hs x List.mem_cons_self]
    cases hx : f s x with
    | error e => rfl
    | ok next =>
      exact ih (fun s hs y hy => hsame s hs y (List.mem_cons_of_mem x hy)) (hstep s x next hs hx)

/-- A loop in a loop is one loop over all that the inner ones go through. -/
theorem foldlM_flatMap {σ α β ε : Type} (f : σ → β → Except ε σ) (items : α → List β) (xs : List α)
    (s : σ) :
    (xs.flatMap items).foldlM f s = xs.foldlM (fun s x => (items x).foldlM f s) s := by
  induction xs generalizing s with
  | nil => rfl
  | cons x xs ih =>
    rw [List.flatMap_cons, List.foldlM_append, List.foldlM_cons]
    exact congrArg _ (funext ih)

/-- A loop whose steps are refused by what they meet, and never by what came before: it is
refused by the first such step. -/
theorem foldlM_of_refusals {σ α ε : Type} {f : σ → α → Except ε σ} {refusal? : α → Option ε}
    {step : σ → α → σ} (hf : ∀ s x, f s x = (refusal? x).elim (.ok (step s x)) .error)
    (xs : List α) (s : σ) :
    xs.foldlM f s = (xs.findSome? refusal?).elim (.ok (xs.foldl step s)) .error := by
  induction xs generalizing s with
  | nil => rfl
  | cons x xs ih =>
    rw [List.foldlM_cons, List.findSome?_cons, hf]
    cases refusal? x with
    | some e => rfl
    | none => exact ih (step s x)

namespace Intake

/-- A candidate takes part. -/
def enlist (intake : Intake) (entry : Entry) (label : String) : Intake :=
  { intake with
    graph := { intake.graph with
      resources := intake.graph.resources ++ [⟨entry.ref, intake.graph.names.next label⟩]
      names := (intake.graph.names.request label).2 }
    ownership := own entry intake.ownership
    entries := intake.entries ++ [entry] }

/-- What was taken in after a further document. -/
def take (scope : Scope) (intake : Intake) (document : Kind × Members) : Intake :=
  match scope.fate document.1 document.2 with
  | .uncovered => { intake with outOfScope := intake.outOfScope + 1 }
  | .unidentified fault =>
    { intake with problems := intake.problems ++ [unidentified document.1 document.2 fault] }
  | .excluded => { intake with excluded := intake.excluded + 1 }
  | .candidate entry label =>
    if intake.graph.has entry.ref then { intake with duplicates := intake.duplicates + 1 }
    else intake.enlist entry label

/-- The fault at which taking in a document ends a strict export. -/
def refusal? (settings : ExportSettings) (document : Kind × Members) : Option Failure :=
  if settings.isStrict then
    (settings.scope.fate document.1 document.2).fault?.map Failure.fault
  else none

/-- The step of the one loop. -/
def takeOrRefuse (settings : ExportSettings) (intake : Intake) (document : Kind × Members) :
    Except Failure Intake :=
  (refusal? settings document).elim (.ok (intake.take settings.scope document)) .error

theorem accept_eq_takeOrRefuse {settings : ExportSettings} {kind : Kind}
    (hcovers : settings.scope.covers kind = true) {intake : Intake} (h : intake.Sound)
    (document : Members) :
    accept settings kind.converter intake document = takeOrRefuse settings intake (kind, document) := by
  unfold accept takeOrRefuse refusal? take Scope.fate
  dsimp only
  rw [if_pos hcovers, Kind.kind_converter]
  cases hidentify : identify kind.converter document with
  | error fault =>
    by_cases hstrict : settings.isStrict = true
    · simp [hstrict]
    · simp [hstrict]
  | ok found =>
    obtain ⟨ref, label⟩ := found
    dsimp only
    by_cases hexcluded : settings.scope.isExcluded ref = true
    · simp [hexcluded]
    · by_cases hhas : intake.graph.has ref = true
      · simp [hexcluded, hhas]
      · -- an open graph registers every new identity
        have hnone : intake.graph.find? ref = none := by simpa [Graph.has] using hhas
        have hregister := Graph.register_of_find?_none h.isOpen hnone label
        simp [hexcluded, hhas, hregister, enlist]

theorem foldlM_takeOrRefuse_of_uncovered {settings : ExportSettings} {kind : Kind}
    (hcovers : settings.scope.covers kind = false) (documents : List Members) (intake : Intake) :
    (documents.map fun document => (kind, document)).foldlM (takeOrRefuse settings) intake =
      .ok { intake with outOfScope := intake.outOfScope + documents.length } := by
  induction documents generalizing intake with
  | nil => rfl
  | cons document rest ih =>
    have hfate : settings.scope.fate kind document = .uncovered := by
      unfold Scope.fate
      rw [if_neg (by simp [hcovers])]
    have hstep : takeOrRefuse settings intake (kind, document) =
        .ok { intake with outOfScope := intake.outOfScope + 1 } := by
      simp [takeOrRefuse, refusal?, take, hfate]
    rw [List.map_cons, List.foldlM_cons, hstep]
    show List.foldlM _ _ _ = _
    rw [ih, List.length_cons]
    simp only [Nat.add_assoc, Nat.add_comm 1]

theorem acceptKind_standard {settings : ExportSettings} {batch : Batch} {intake : Intake}
    (h : intake.Sound) (kind : Kind) :
    acceptKind .standard settings batch intake kind =
      ((batch.of kind).map fun document => (kind, document)).foldlM (takeOrRefuse settings)
        intake := by
  unfold acceptKind
  dsimp only
  by_cases hcovers : settings.scope.covers kind = true
  · rw [if_pos hcovers, ConverterRegistry.converter?_standard, List.foldlM_map]
    exact foldlM_congr_of_invariant
      (fun s hs document _ => accept_eq_takeOrRefuse hcovers hs document)
      (fun _ _ _ hs hstep => hs.accept hstep) h
  · rw [if_neg hcovers, foldlM_takeOrRefuse_of_uncovered (by simpa using hcovers)]

/-- **Taking in a batch is one loop over its documents**, and it is refused by the first of
them that a strict export cannot identify. -/
theorem acceptBatch_standard (settings : ExportSettings) (batch : Batch) :
    acceptBatch .standard settings batch =
      (batch.inOrder.findSome? (refusal? settings)).elim
        (.ok (batch.inOrder.foldl (take settings.scope)
          { ownership := { merges := settings.mergesOwnership } })) .error := by
  have hloop : acceptBatch .standard settings batch =
      batch.inOrder.foldlM (takeOrRefuse settings)
        { ownership := { merges := settings.mergesOwnership } } := by
    unfold acceptBatch Batch.inOrder
    rw [foldlM_flatMap]
    exact foldlM_congr_of_invariant (fun _ hs kind _ => acceptKind_standard hs kind)
      (fun _ _ _ hs hstep => hs.acceptKind hstep) (sound_empty _)
  rw [hloop]
  exact foldlM_of_refusals (fun _ _ => rfl) _ _

/-! ### What was taken in -/

/-- What was taken in, read off the documents that were seen. -/
structure Accounts (scope : Scope) (seen : List (Kind × Members)) (intake : Intake) : Prop where
  refs : intake.graph.resources.map Resource.ref = intake.entries.map Entry.ref
  entries : intake.entries = firstsBy Entry.ref (seen.filterMap scope.candidate?)
  duplicates : intake.entries.length + intake.duplicates = (seen.filterMap scope.candidate?).length
  problems : intake.problems = seen.filterMap scope.problem?
  excluded : intake.excluded =
    seen.countP fun document => (scope.fate document.1 document.2).isExcluded
  outOfScope : intake.outOfScope =
    seen.countP fun document => (scope.fate document.1 document.2).isUncovered

theorem accounts_empty (scope : Scope) (merges : Bool) :
    Accounts scope [] { ownership := { merges := merges } } :=
  ⟨rfl, rfl, rfl, rfl, rfl, rfl⟩

/-- An identity is taken if a candidate before had it. -/
theorem Accounts.has_iff {scope : Scope} {seen : List (Kind × Members)} {intake : Intake}
    (h : intake.Accounts scope seen) (ref : Ref) :
    intake.graph.has ref = true ↔ ref ∈ (seen.filterMap scope.candidate?).map Entry.ref := by
  rw [Graph.has_iff_mem_refs, h.refs, h.entries]
  constructor
  · exact fun hmem => ((firstsBy_sublist Entry.ref _).map Entry.ref).subset hmem
  · exact fun hmem => map_firstsBy_subset Entry.ref _ hmem

/-- What a further document changes: exactly one of what is counted, noted or taken in. -/
theorem Accounts.take {scope : Scope} {seen : List (Kind × Members)} {intake : Intake}
    (h : intake.Accounts scope seen) (document : Kind × Members) :
    (intake.take scope document).Accounts scope (seen ++ [document]) := by
  obtain ⟨kind, document⟩ := document
  unfold Intake.take
  cases hfate : scope.fate kind document with
  | uncovered =>
    constructor <;> simp [Scope.candidate?, Scope.problem?, hfate, h.refs, ← h.entries, h.duplicates,
      h.problems, h.excluded, h.outOfScope]
  | unidentified fault =>
    constructor <;> simp [Scope.candidate?, Scope.problem?, hfate, h.refs, ← h.entries, h.duplicates,
      h.problems, h.excluded, h.outOfScope]
  | excluded =>
    constructor <;> simp [Scope.candidate?, Scope.problem?, hfate, h.refs, ← h.entries, h.duplicates,
      h.problems, h.excluded, h.outOfScope]
  | candidate entry label =>
    have hseen : (seen ++ [(kind, document)]).filterMap scope.candidate? =
        seen.filterMap scope.candidate? ++ [entry] := by
      simp [Scope.candidate?, hfate]
    dsimp only
    by_cases hhas : intake.graph.has entry.ref = true
    · rw [if_pos hhas]
      constructor
      · exact h.refs
      · rw [hseen, firstsBy_append_singleton, if_pos ((h.has_iff _).1 hhas)]
        exact h.entries
      · have hcount := h.duplicates
        simp only [hseen, List.length_append, List.length_singleton]
        omega
      · simp [Scope.problem?, hfate, h.problems]
      · simp [hfate, h.excluded]
      · simp [hfate, h.outOfScope]
    · rw [if_neg hhas]
      constructor
      · simp [enlist, h.refs]
      · rw [hseen, firstsBy_append_singleton, if_neg fun hmem => hhas ((h.has_iff _).2 hmem)]
        exact congrArg (· ++ [entry]) h.entries
      · have hcount := h.duplicates
        simp only [enlist, hseen, List.length_append, List.length_singleton]
        omega
      · simp [enlist, Scope.problem?, hfate, h.problems]
      · simp [enlist, hfate, h.excluded]
      · simp [enlist, hfate, h.outOfScope]

/-- What the loop over further documents comes to. -/
theorem accounts_foldl_take {scope : Scope} {seen : List (Kind × Members)} {intake : Intake}
    (h : intake.Accounts scope seen) (documents : List (Kind × Members)) :
    (documents.foldl (take scope) intake).Accounts scope (seen ++ documents) := by
  induction documents generalizing seen intake with
  | nil => simpa using h
  | cons document rest ih =>
    have hrest := ih (h.take document)
    rwa [List.append_assoc, List.singleton_append] at hrest

end Intake

end HclExport
