import HclExport.Proofs.Graph.Ownership
import Mathlib.Data.List.Induction

/-!
# Records that are merged

Owners are recorded by calls, one after the other. Where nothing is merged the records are the
calls. Where they are merged there is one record for every owner and kind, at the place of the
first call about them, and it lists what all calls about them list, each id once. So no id is lost;
but an id that was recorded under several owners may be found under another one than before, since
a later call adds it to an earlier record.

## Main definitions

* `OwnershipRecord.subject` — the owner and the kind that a record is about.
* `OwnershipRecord.idsAbout` — the ids that records list about an owner and a kind.
* `OwnershipRecord.gathered` — one record for every owner and kind, read off the calls.
* `Ownership.after` — the records after a sequence of calls.

## Main results

* `OwnershipRecord.merge_gathered` — what one call does to merged records.
* `Ownership.records_merged` — what a sequence of calls comes to.
* `Ownership.childIds_merged` — **merging loses no id.**
* `Ownership.parent?_merged` — **which owner is found after merging.**
-/

namespace HclExport

/-! ### Lists without repeats -/

section EraseDups

variable {α : Type} [BEq α] [LawfulBEq α]

/-- A further element is kept if it is new. -/
theorem eraseDups_append_singleton (xs : List α) (x : α) :
    (xs ++ [x]).eraseDups = if x ∈ xs then xs.eraseDups else xs.eraseDups ++ [x] := by
  rw [List.eraseDups_append]
  by_cases hx : x ∈ xs
  · rw [if_pos hx, List.removeAll, List.filter_cons_of_neg (by simpa using hx)]
    simp
  · rw [if_neg hx, List.removeAll, List.filter_cons_of_pos (by simpa using hx)]
    rfl

theorem nodup_eraseDups (xs : List α) : xs.eraseDups.Nodup := by
  induction xs using List.reverseRecOn with
  | nil => exact List.nodup_nil
  | append_singleton xs x ih =>
    rw [eraseDups_append_singleton]
    split
    next => exact ih
    next hx =>
      refine List.nodup_append.2 ⟨ih, List.pairwise_singleton _ x, ?_⟩
      rintro y hy z hz rfl
      obtain rfl := List.mem_singleton.1 hz
      exact hx (List.mem_eraseDups.1 hy)

/-- What is found first is not a repeat. -/
theorem find?_eraseDups (p : α → Bool) (xs : List α) : xs.eraseDups.find? p = xs.find? p := by
  induction xs using List.reverseRecOn with
  | nil => rfl
  | append_singleton xs x ih =>
    rw [eraseDups_append_singleton, List.find?_append, ← ih]
    split
    next hx =>
      -- an element that occurs before is found before, if it is found at all
      cases hfound : xs.eraseDups.find? p with
      | some y => rfl
      | none =>
        have hnot := List.find?_eq_none.1 hfound x (List.mem_eraseDups.2 hx)
        rw [List.find?_cons_of_neg hnot]
        rfl
    next => rw [List.find?_append]

end EraseDups

/-- Adding the new ones of a list of ids keeps each once. -/
theorem addNewIds_eraseDups (known ids : List String) :
    addNewIds known.eraseDups ids = (known ++ ids).eraseDups := by
  unfold addNewIds
  induction ids generalizing known with
  | nil => rw [List.append_nil, List.foldl_nil]
  | cons id rest ih =>
    have hstep : (if known.eraseDups.contains id then known.eraseDups
        else known.eraseDups ++ [id]) = (known ++ [id]).eraseDups := by
      simp only [List.contains_iff_mem, List.mem_eraseDups, eraseDups_append_singleton]
    rw [List.foldl_cons, hstep, ih, List.append_assoc]
    rfl

namespace OwnershipRecord

/-! ### Records and what they are about -/

/-- The owner and the kind that a record is about. -/
def subject (record : OwnershipRecord) : Ref × Kind :=
  (record.parent, record.childKind)

/-- The ids that records list about an owner and a kind, in order. -/
def idsAbout (subject : Ref × Kind) (records : List OwnershipRecord) : List String :=
  records.flatMap fun record => if record.subject = subject then record.childIds else []

/-- Records that list ids about given owners and kinds. -/
def ofSubjects (listed : Ref × Kind → List String) (subjects : List (Ref × Kind)) :
    List OwnershipRecord :=
  subjects.map fun subject => ⟨subject.1, subject.2, listed subject⟩

/-- One record for every owner and kind that calls are about, in the order of the first calls about
them, with every id once. -/
def gathered (calls : List OwnershipRecord) : List OwnershipRecord :=
  ofSubjects (fun subject => (idsAbout subject calls).eraseDups) (calls.map subject).eraseDups

theorem isAbout_iff {record : OwnershipRecord} {parent : Ref} {kind : Kind} :
    record.isAbout parent kind = true ↔ record.subject = (parent, kind) := by
  simp [isAbout, subject]

theorem mem_idsAbout {subject : Ref × Kind} {records : List OwnershipRecord} {id : String} :
    id ∈ idsAbout subject records ↔
      ∃ record ∈ records, record.subject = subject ∧ id ∈ record.childIds := by
  simp [idsAbout]

theorem idsAbout_append_singleton (subject : Ref × Kind) (calls : List OwnershipRecord)
    (call : OwnershipRecord) :
    idsAbout subject (calls ++ [call]) =
      idsAbout subject calls ++ if call.subject = subject then call.childIds else [] := by
  simp [idsAbout]

theorem idsAbout_of_not_mem {subject : Ref × Kind} {calls : List OwnershipRecord}
    (h : subject ∉ calls.map OwnershipRecord.subject) : idsAbout subject calls = [] := by
  rw [idsAbout, List.flatMap_eq_nil_iff]
  intro call hcall
  refine if_neg fun heq => h ?_
  rw [← heq]
  exact List.mem_map_of_mem hcall

theorem map_subject_ofSubjects (listed : Ref × Kind → List String)
    (subjects : List (Ref × Kind)) : (ofSubjects listed subjects).map subject = subjects := by
  simp [ofSubjects, Function.comp_def, OwnershipRecord.subject]

theorem ofSubjects_congr {listed listed' : Ref × Kind → List String}
    {subjects : List (Ref × Kind)} (h : ∀ subject ∈ subjects, listed subject = listed' subject) :
    ofSubjects listed subjects = ofSubjects listed' subjects :=
  List.map_congr_left fun subject hsubject => by rw [h subject hsubject]

/-- Where there is one record for an owner and a kind, it lists all ids about them. -/
theorem idsAbout_ofSubjects (listed : Ref × Kind → List String) {subjects : List (Ref × Kind)}
    (hnodup : subjects.Nodup) (subject : Ref × Kind) :
    idsAbout subject (ofSubjects listed subjects) =
      if subject ∈ subjects then listed subject else [] := by
  induction subjects with
  | nil => rfl
  | cons first rest ih =>
    obtain ⟨hfirst, hrest⟩ := List.nodup_cons.1 hnodup
    have hcons : idsAbout subject (ofSubjects listed (first :: rest)) =
        (if first = subject then listed first else []) ++
          idsAbout subject (ofSubjects listed rest) := rfl
    rw [hcons, ih hrest]
    by_cases heq : first = subject
    · subst heq
      rw [if_pos rfl, if_neg hfirst, if_pos List.mem_cons_self, List.append_nil]
    · have hmem : subject ∈ first :: rest ↔ subject ∈ rest :=
        List.mem_cons.trans (or_iff_right (Ne.symm heq))
      rw [if_neg heq, List.nil_append]
      simp only [hmem]

/-! ### Merging -/

/-- Ids about an owner and a kind that have a record are added to it, and the others stay. -/
theorem merge_of_mem (listed : Ref × Kind → List String) {subject : Ref × Kind}
    {subjects : List (Ref × Kind)} (hmem : subject ∈ subjects) (hnodup : subjects.Nodup)
    (ids : List String) :
    merge subject.1 subject.2 ids (ofSubjects listed subjects) =
      ofSubjects (fun other => if other = subject then addNewIds (listed other) ids
        else listed other) subjects := by
  induction subjects with
  | nil => cases hmem
  | cons first rest ih =>
    obtain ⟨hfirst, hrest⟩ := List.nodup_cons.1 hnodup
    show merge subject.1 subject.2 ids
        (⟨first.1, first.2, listed first⟩ :: ofSubjects listed rest) =
      ⟨first.1, first.2, _⟩ :: ofSubjects _ rest
    rw [merge]
    by_cases heq : first = subject
    · -- no record behind this one is about the same owner and kind
      subst heq
      have habout : isAbout ⟨first.1, first.2, listed first⟩ first.1 first.2 = true :=
        isAbout_iff.2 rfl
      rw [if_pos habout]
      dsimp only
      rw [if_pos rfl]
      refine congrArg _ (ofSubjects_congr fun other hother => ?_)
      have hne : other ≠ first := by
        rintro rfl
        exact hfirst hother
      exact (if_neg hne).symm
    · have habout : ¬ isAbout ⟨first.1, first.2, listed first⟩ subject.1 subject.2 = true :=
        fun habout => heq (isAbout_iff.1 habout)
      rw [if_neg habout]
      dsimp only
      rw [if_neg heq]
      rcases List.mem_cons.1 hmem with rfl | hmem
      · exact absurd rfl heq
      · exact congrArg _ (ih hmem hrest)

/-- Ids about an owner and a kind without a record get one, behind the others. -/
theorem merge_of_not_mem {subject : Ref × Kind} {records : List OwnershipRecord}
    (h : subject ∉ records.map OwnershipRecord.subject) (ids : List String) :
    merge subject.1 subject.2 ids records =
      records ++ [⟨subject.1, subject.2, addNewIds [] ids⟩] := by
  induction records with
  | nil => rfl
  | cons record rest ih =>
    rw [List.map_cons, List.mem_cons, not_or] at h
    obtain ⟨hrecord, hrest⟩ := h
    rw [merge, if_neg fun habout => hrecord (isAbout_iff.1 habout).symm, ih hrest]
    rfl

/-- One call more: merged records are again those that are read off the calls. -/
theorem merge_gathered (calls : List OwnershipRecord) (call : OwnershipRecord) :
    merge call.parent call.childKind call.childIds (gathered calls) =
      gathered (calls ++ [call]) := by
  have hsubjects : ((calls ++ [call]).map subject).eraseDups =
      if call.subject ∈ calls.map subject then (calls.map subject).eraseDups
      else (calls.map subject).eraseDups ++ [call.subject] := by
    rw [List.map_append]
    exact eraseDups_append_singleton _ _
  have hlisted (other : Ref × Kind) : (idsAbout other (calls ++ [call])).eraseDups =
      if other = call.subject then addNewIds (idsAbout other calls).eraseDups call.childIds
      else (idsAbout other calls).eraseDups := by
    rw [idsAbout_append_singleton]
    by_cases heq : other = call.subject
    · rw [if_pos heq, if_pos heq.symm, addNewIds_eraseDups]
    · rw [if_neg heq, if_neg (Ne.symm heq), List.append_nil]
  show merge call.subject.1 call.subject.2 call.childIds (gathered calls) = _
  unfold gathered
  rw [hsubjects]
  simp only [hlisted]
  by_cases hmem : call.subject ∈ calls.map subject
  · rw [if_pos hmem]
    exact merge_of_mem _ (List.mem_eraseDups.2 hmem) (nodup_eraseDups _) _
  · have hnone : call.subject ∉ (ofSubjects (fun subject => (idsAbout subject calls).eraseDups)
        (calls.map subject).eraseDups).map subject := by
      rwa [map_subject_ofSubjects, List.mem_eraseDups]
    rw [if_neg hmem, merge_of_not_mem hnone]
    unfold ofSubjects
    rw [List.map_append]
    congr 1
    · -- nothing changes for the owners and kinds that have a record
      refine List.map_congr_left fun other hother => ?_
      have hne : other ≠ call.subject := by
        rintro rfl
        exact hmem (List.mem_eraseDups.1 hother)
      dsimp only
      rw [if_neg hne]
    · rw [List.map_singleton]
      dsimp only
      rw [if_pos rfl, idsAbout_of_not_mem hmem]
      rfl

end OwnershipRecord

namespace Ownership

open OwnershipRecord

/-! ### Sequences of calls -/

/-- The records after calls, one after the other; a call is given by the record that it adds where
nothing is merged. -/
def after (merges : Bool) (calls : List OwnershipRecord) : Ownership :=
  calls.foldl (fun o call => o.add call.parent call.childKind call.childIds) { merges := merges }

theorem after_append_singleton (merges : Bool) (calls : List OwnershipRecord)
    (call : OwnershipRecord) :
    after merges (calls ++ [call]) =
      (after merges calls).add call.parent call.childKind call.childIds := by
  rw [after, List.foldl_append]
  rfl

theorem merges_add (o : Ownership) (parent : Ref) (kind : Kind) (ids : List String) :
    (o.add parent kind ids).merges = o.merges := by
  unfold add
  split <;> rfl

@[simp] theorem merges_after (merges : Bool) (calls : List OwnershipRecord) :
    (after merges calls).merges = merges := by
  induction calls using List.reverseRecOn with
  | nil => rfl
  | append_singleton calls call ih => rw [after_append_singleton, merges_add, ih]

/-- Where nothing is merged the records are the calls. -/
@[simp] theorem records_plain (calls : List OwnershipRecord) :
    (after false calls).records = calls := by
  induction calls using List.reverseRecOn with
  | nil => rfl
  | append_singleton calls call ih =>
    rw [after_append_singleton, add, if_neg (by rw [merges_after]; decide), ih]

/-- Merged records are those that are read off the calls. -/
theorem records_merged (calls : List OwnershipRecord) :
    (after true calls).records = gathered calls := by
  induction calls using List.reverseRecOn with
  | nil => rfl
  | append_singleton calls call ih =>
    rw [after_append_singleton, add, if_pos (merges_after true calls), ih]
    exact merge_gathered calls call

/-! ### What is listed -/

theorem childIds_eq (o : Ownership) (owner : Ref) (kind : Kind) :
    o.childIds owner (some kind) = idsAbout (owner, kind) o.records := by
  unfold childIds children idsAbout
  induction o.records with
  | nil => rfl
  | cons record rest ih =>
    rw [List.flatMap_cons, ← ih]
    by_cases hparent : record.parent = owner
    · rw [List.filter_cons_of_pos (by simpa using hparent), List.flatMap_cons]
      simp [OwnershipRecord.subject, hparent]
    · rw [List.filter_cons_of_neg (by simpa using hparent)]
      simp [OwnershipRecord.subject, hparent]

/-- **Merging loses no id.** After any sequence of calls there is at most one merged record for an
owner and a kind, and it lists no id twice; and an owner has the same ids of a kind as if nothing
was merged, each once, in the order in which they were recorded first. -/
theorem childIds_merged (calls : List OwnershipRecord) :
    ((after true calls).records.map fun record => (record.parent, record.childKind)).Nodup ∧
    (∀ record ∈ (after true calls).records, record.childIds.Nodup) ∧
    ∀ owner kind, (after true calls).childIds owner (some kind) =
      ((after false calls).childIds owner (some kind)).eraseDups := by
  rw [records_merged]
  refine ⟨?_, ?_, ?_⟩
  · show ((gathered calls).map subject).Nodup
    rw [gathered, map_subject_ofSubjects]
    exact nodup_eraseDups _
  · intro record hrecord
    obtain ⟨subject, -, rfl⟩ := List.mem_map.1 hrecord
    exact nodup_eraseDups _
  · intro owner kind
    rw [childIds_eq, childIds_eq, records_merged, records_plain, gathered,
      idsAbout_ofSubjects _ (nodup_eraseDups _)]
    split
    next => rfl
    next hnone =>
      rw [idsAbout_of_not_mem fun hmem => hnone (List.mem_eraseDups.2 hmem)]
      rfl

/-- Two calls for one application that repeat a policy. -/
theorem childIds_merged_repeatedPolicy :
    (after true [⟨⟨.application, "a"⟩, .flowPolicy, ["p", "p"]⟩,
        ⟨⟨.application, "a"⟩, .flowPolicy, ["q", "p"]⟩]).childIds ⟨.application, "a"⟩
        (some .flowPolicy) = ["p", "q"] ∧
      ["p", "q"].Nodup :=
  ⟨(childIds_merged _).2.2 _ _, (childIds_merged [⟨⟨.application, "a"⟩, .flowPolicy, ["p", "p"]⟩,
    ⟨⟨.application, "a"⟩, .flowPolicy, ["q", "p"]⟩]).2.1 ⟨⟨.application, "a"⟩, .flowPolicy,
      ["p", "q"]⟩ (by decide)⟩

/-! ### Which owner is found -/

section Parent

variable (calls : List OwnershipRecord)

/-- Where calls are first about an owner and a kind. -/
def firstAbout (owner : Ref) (kind : Kind) : Nat :=
  calls.findIdx fun call => call.isAbout owner kind

/-- Whether a call is about the kind of a resource, and about an owner under which any call lists
it. -/
def concerns (child : Ref) (call : OwnershipRecord) : Bool :=
  call.childKind = child.kind && (idsAbout (call.parent, child.kind) calls).contains child.id

variable {calls} {child owner other : Ref}

theorem concerns_iff {call : OwnershipRecord} :
    concerns calls child call = true ↔
      call.childKind = child.kind ∧ child.id ∈ idsAbout (call.parent, child.kind) calls := by
  simp [concerns]

/-- Where nothing is merged, the owner of the first call that lists a resource is found. -/
theorem parent?_plain (calls : List OwnershipRecord) (child : Ref) :
    (after false calls).parent? child = calls.find? fun call =>
      call.childKind = child.kind && call.childIds.contains child.id := by
  rw [parent?, records_plain]

/-- Where records are merged, the owner of the first call that concerns a resource is found. -/
theorem map_parent?_merged (calls : List OwnershipRecord) (child : Ref) :
    ((after true calls).parent? child).map OwnershipRecord.parent =
      (calls.find? (concerns calls child)).map OwnershipRecord.parent := by
  have hsubject (subject : Ref × Kind) :
      (decide (subject.2 = child.kind) && (idsAbout subject calls).eraseDups.contains child.id) =
        (decide (subject.2 = child.kind) &&
          (idsAbout (subject.1, child.kind) calls).contains child.id) := by
    obtain ⟨owner, kind⟩ := subject
    by_cases hkind : kind = child.kind
    · subst hkind
      simp
    · simp [hkind]
  rw [parent?, records_merged, gathered, ofSubjects, List.find?_map, Option.map_map]
  simp only [Function.comp_def, hsubject]
  rw [find?_eraseDups, List.find?_map, Option.map_map]
  rfl

/-- An owner that is found without merging has the resource. -/
theorem mem_idsAbout_of_plain
    (h : ((after false calls).parent? child).map OwnershipRecord.parent = some owner) :
    child.id ∈ idsAbout (owner, child.kind) calls := by
  obtain ⟨call, hcall, rfl⟩ := Option.map_eq_some_iff.1 h
  rw [parent?_plain] at hcall
  have htest := List.find?_some hcall
  simp only [Bool.and_eq_true, decide_eq_true_eq, List.contains_iff_mem] at htest
  refine mem_idsAbout.2 ⟨call, List.mem_of_find?_eq_some hcall, ?_, htest.2⟩
  rw [subject, htest.1]

/-- An owner is found without merging if and only if one is found with it. -/
theorem isSome_parent?_merged (calls : List OwnershipRecord) (child : Ref) :
    ((after true calls).parent? child).isSome = ((after false calls).parent? child).isSome := by
  have hmerged := congrArg Option.isSome (map_parent?_merged calls child)
  rw [Option.isSome_map, Option.isSome_map] at hmerged
  rw [hmerged, parent?_plain, Bool.eq_iff_iff, List.find?_isSome, List.find?_isSome]
  constructor
  · rintro ⟨call, -, hconcerns⟩
    obtain ⟨-, hid⟩ := concerns_iff.1 hconcerns
    obtain ⟨lister, hlister, hsubject, hid⟩ := mem_idsAbout.1 hid
    exact ⟨lister, hlister, by simp [(Prod.mk.inj hsubject).2, hid]⟩
  · rintro ⟨call, hcall, htest⟩
    simp only [Bool.and_eq_true, decide_eq_true_eq, List.contains_iff_mem] at htest
    refine ⟨call, hcall, concerns_iff.2 ⟨htest.1, mem_idsAbout.2 ⟨call, hcall, ?_, htest.2⟩⟩⟩
    rw [subject, htest.1]

/-! The owner that is found with merging is, of all owners of the resource, the one that calls are
about first. -/

theorem findIdx_concerns_le (hid : child.id ∈ idsAbout (owner, child.kind) calls) :
    calls.findIdx (concerns calls child) ≤ firstAbout calls owner child.kind := by
  refine List.findIdx_le_findIdx fun call _ habout => ?_
  obtain ⟨rfl, hkind⟩ := Prod.mk.inj (isAbout_iff.1 habout)
  exact concerns_iff.2 ⟨hkind, hid⟩

theorem firstAbout_lt (hid : child.id ∈ idsAbout (owner, child.kind) calls) :
    firstAbout calls owner child.kind < calls.length := by
  obtain ⟨call, hcall, hsubject, -⟩ := mem_idsAbout.1 hid
  exact List.findIdx_lt_length_of_exists ⟨call, hcall, isAbout_iff.2 hsubject⟩

/-- Owners that calls are about first at one place are the same. -/
theorem eq_of_firstAbout_eq {kind : Kind} (hlt : firstAbout calls owner kind < calls.length)
    (heq : firstAbout calls owner kind = firstAbout calls other kind) : owner = other := by
  have hplace (named : Ref) (hnamed : firstAbout calls named kind < calls.length) :
      (calls.get ⟨firstAbout calls named kind, hnamed⟩).subject = (named, kind) :=
    isAbout_iff.1 (List.findIdx_getElem (w := hnamed))
  have howner := hplace owner hlt
  have hother := hplace other (heq ▸ hlt)
  simp only [← heq] at hother
  exact congrArg Prod.fst (howner.symm.trans hother)

theorem firstAbout_eq_of_merged
    (h : ((after true calls).parent? child).map OwnershipRecord.parent = some owner) :
    child.id ∈ idsAbout (owner, child.kind) calls ∧
      firstAbout calls owner child.kind = calls.findIdx (concerns calls child) := by
  rw [map_parent?_merged] at h
  obtain ⟨call, hcall, rfl⟩ := Option.map_eq_some_iff.1 h
  obtain ⟨hkind, hid⟩ := concerns_iff.1 (List.find?_some hcall)
  refine ⟨hid, Nat.le_antisymm ?_ (findIdx_concerns_le hid)⟩
  rw [List.find?_eq_getElem?_findIdx] at hcall
  obtain ⟨hlt, rfl⟩ := List.getElem?_eq_some_iff.1 hcall
  -- the first call that concerns the resource is itself about its owner
  by_contra hbefore
  have hnot := List.not_of_lt_findIdx (Nat.not_le.1 hbefore)
  simp [isAbout, hkind] at hnot

end Parent

/-- **Which owner is found after merging.** With and without merging an owner of a resource is found
or not alike. Without merging it is the one under which the resource was recorded first. With
merging it is, of all owners under which the resource was ever recorded, the one that was recorded
first with any resource of that kind. So the two are the same exactly if no other of its owners was
recorded with that kind before the first one was. -/
theorem parent?_merged (calls : List OwnershipRecord) (child : Ref) :
    ((after true calls).parent? child).isSome = ((after false calls).parent? child).isSome ∧
    ((after false calls).parent? child).map OwnershipRecord.parent =
      (calls.find? fun call => call.childKind = child.kind &&
        call.childIds.contains child.id).map OwnershipRecord.parent ∧
    ((after true calls).parent? child).map OwnershipRecord.parent =
      (calls.find? fun call => call.childKind = child.kind &&
        ((after false calls).childIds call.parent (some child.kind)).contains child.id).map
          OwnershipRecord.parent ∧
    (((after true calls).parent? child).map OwnershipRecord.parent =
        ((after false calls).parent? child).map OwnershipRecord.parent ↔
      ∀ owner other,
        ((after false calls).parent? child).map OwnershipRecord.parent = some owner →
        child.id ∈ (after false calls).childIds other (some child.kind) →
        firstAbout calls owner child.kind ≤ firstAbout calls other child.kind) := by
  simp only [childIds_eq, records_plain]
  refine ⟨isSome_parent?_merged calls child, ?_, map_parent?_merged calls child, ?_⟩
  · rw [parent?_plain]
  constructor
  · intro hsame owner other howner hother
    rw [howner] at hsame
    rw [(firstAbout_eq_of_merged hsame).2]
    exact findIdx_concerns_le hother
  · intro hfirst
    have hsome := isSome_parent?_merged calls child
    cases hplain : (after false calls).parent? child with
    | none =>
      rw [hplain, Option.isSome_none, Option.isSome_eq_false_iff,
        Option.isNone_iff_eq_none] at hsome
      rw [hsome]
    | some record =>
      obtain ⟨merged, hmerged⟩ := Option.isSome_iff_exists.1 (hsome.trans (by rw [hplain]; rfl))
      have hfound : ((after true calls).parent? child).map OwnershipRecord.parent =
          some merged.parent := by
        rw [hmerged]
        rfl
      have hnamed : ((after false calls).parent? child).map OwnershipRecord.parent =
          some record.parent := by
        rw [hplain]
        rfl
      obtain ⟨hid, heq⟩ := firstAbout_eq_of_merged hfound
      have hrecord := mem_idsAbout_of_plain hnamed
      -- the owner that is found with merging comes first, and no later than the other one
      have hle := hfirst record.parent merged.parent hnamed hid
      have hge := findIdx_concerns_le hrecord
      rw [← heq] at hge
      have hsame : record.parent = merged.parent :=
        eq_of_firstAbout_eq (firstAbout_lt hrecord) (Nat.le_antisymm hle hge)
      rw [hmerged, Option.map_some, Option.map_some, hsame]

/-- **An owner that another one displaces.** The second policy is recorded under the second
application first; but with merging it is added to the record of the first application, which comes
before. -/
theorem parent?_merged_displaced :
    let calls : List OwnershipRecord :=
      [⟨⟨.application, "a"⟩, .flowPolicy, ["p"]⟩, ⟨⟨.application, "b"⟩, .flowPolicy, ["q"]⟩,
        ⟨⟨.application, "a"⟩, .flowPolicy, ["q"]⟩]
    ((after false calls).parent? ⟨.flowPolicy, "q"⟩).map OwnershipRecord.parent =
        some ⟨.application, "b"⟩ ∧
      ((after true calls).parent? ⟨.flowPolicy, "q"⟩).map OwnershipRecord.parent =
        some ⟨.application, "a"⟩ := by
  decide

end Ownership

end HclExport
