import HclExport.Proofs.Conversion.Agreement
import HclExport.Proofs.Export.Outcome
import HclExport.Proofs.Export.Reference
import HclExport.Proofs.Graph.Merging
import Mathlib.Data.Finset.Card

/-!
# Owners that are merged in an export

An export records the owner of every document that takes part and names one, and looks an owner up
when a policy names none. But then none was recorded for it, since no two documents that take part
have one identity. So whether records of owners are merged shows in their number only.

## Main definitions

* `ExportSettings.merging` — the same settings, merging records of owners or not.
* `Intake.history` — the owners that were recorded, one by one.
* `Intake.recorded`, `ExportResult.recorded` — the same with the owners recorded anew, merged or
  not.
* `Intake.namedApplications`, `Intake.namedFlows` — the owners that documents name.

## Main results

* `Intake.foldl_take_recorded` — the records of an export are those of its history.
* `Batch.result_merging` — the result where records are merged or not.
* `Intake.length_merged`, `Intake.length_plain` — how many records there are.
* `runExport_merging` — **merging shows in the number of records only.**
-/

namespace HclExport

/-- The same settings, merging records of owners or not. -/
def ExportSettings.merging (settings : ExportSettings) (merges : Bool) : ExportSettings :=
  { settings with mergesOwnership := merges }

/-! ### Records of owners -/

/-- The call that records the owner of a document, if it names one. -/
def Entry.call? (entry : Entry) : Option OwnershipRecord :=
  (ownerOf? entry.ref.kind entry.document).map fun owner =>
    ⟨owner, entry.ref.kind, [entry.ref.id]⟩

namespace Intake

/-- The calls that recorded owners, in the order of the documents. -/
def history (intake : Intake) : List OwnershipRecord :=
  intake.entries.filterMap Entry.call?

/-- What was taken in, with the owners recorded anew, merged or not. -/
def recorded (merges : Bool) (intake : Intake) : Intake :=
  { intake with ownership := .after merges intake.history }

/-- Recording an owner is a call, if there is an owner to record. -/
theorem own_after (entry : Entry) (merges : Bool) (calls : List OwnershipRecord) :
    own entry (.after merges calls) = .after merges (calls ++ entry.call?.toList) := by
  unfold own Entry.call?
  cases ownerOf? entry.ref.kind entry.document with
  | none => rw [Option.map_none, Option.toList_none, List.append_nil]
  | some owner =>
    rw [Option.map_some, Option.toList_some, Ownership.after_append_singleton]

/-- The history grows by the call for a new document. -/
theorem history_enlist (intake : Intake) (entry : Entry) (label : String) :
    (intake.enlist entry label).history = intake.history ++ entry.call?.toList := by
  show (intake.entries ++ [entry]).filterMap Entry.call? = _
  rw [List.filterMap_append]
  cases h : entry.call? with
  | none => simp [history, h]
  | some call => simp [history, h]

/-- A further document leaves the records those of the history. -/
theorem take_recorded (scope : Scope) (merges : Bool) (intake : Intake)
    (document : Kind × Members) :
    take scope (intake.recorded merges) document =
      (take scope intake document).recorded merges := by
  unfold take
  cases scope.fate document.1 document.2 with
  | uncovered => rfl
  | unidentified fault => rfl
  | excluded => rfl
  | candidate entry label =>
    dsimp only
    have hhas : (intake.recorded merges).graph.has entry.ref = intake.graph.has entry.ref := rfl
    rw [hhas]
    split
    next => rfl
    next =>
      unfold recorded
      rw [history_enlist, ← own_after]
      rfl

/-- The records are those of the history, after any sequence of documents. -/
theorem foldl_take_recorded (scope : Scope) (merges : Bool) (documents : List (Kind × Members))
    (intake : Intake) :
    documents.foldl (take scope) (intake.recorded merges) =
      (documents.foldl (take scope) intake).recorded merges := by
  induction documents generalizing intake with
  | nil => rfl
  | cons document rest ih => rw [List.foldl_cons, List.foldl_cons, take_recorded, ih]

end Intake

namespace Batch

variable (settings : ExportSettings) (batch : Batch) (merges : Bool)

/-- What is taken in differs in the records of owners only. -/
theorem intake_merging :
    batch.intake (settings.merging merges) = (batch.intake settings).recorded merges := by
  have haccepted : batch.accepted (settings.merging merges) =
      (batch.accepted settings).recorded merges :=
    Intake.foldl_take_recorded settings.scope merges batch.inOrder
      { ownership := { merges := settings.mergesOwnership } }
  unfold intake
  rw [haccepted]
  rfl

/-! ### Conversions -/

theorem agrees_merging :
    (batch.context (settings.merging merges)).Agrees (batch.context settings) := by
  unfold context
  rw [intake_merging]
  exact ⟨rfl, rfl, rfl, rfl, rfl, rfl, rfl, rfl⟩

/-- **The owner of a policy is the one that it names**, merged or not. -/
theorem sharesOwners_merging :
    (batch.context (settings.merging merges)).SharesOwners (batch.context settings)
      (batch.intake settings).documents := by
  intro document hdocument
  obtain ⟨entry, hentry, hkind, rfl⟩ := Intake.mem_documents_iff.1 hdocument
  have hentry' : entry ∈ (batch.intake (settings.merging merges)).entries := by
    rw [intake_merging]
    exact hentry
  exact (batch.complete_intake (settings.merging merges)).owningApplication_congr
    (batch.complete_intake settings).toRegistered settings hentry' hentry hkind

/-- A document ends the export or not, whether or not records are merged. -/
theorem completes_merging_iff :
    batch.Completes (settings.merging merges) ↔ batch.Completes settings := by
  have hsettles : ∀ entry ∈ (batch.intake settings).entries,
      (entry.ref.kind.converter.Settles (batch.context (settings.merging merges)) entry.document ↔
        entry.ref.kind.converter.Settles (batch.context settings) entry.document) := by
    intro entry hentry
    have howners := batch.sharesOwners_merging settings merges
    exact (batch.agrees_merging settings merges).settles_iff
      (howners.owner_eq (Intake.mem_documents hentry))
  constructor
  · rintro ⟨⟨hidentified, hmet⟩, hall⟩
    rw [intake_merging] at hmet hall
    exact ⟨⟨hidentified, hmet⟩, fun entry hentry => (hsettles entry hentry).1 (hall entry hentry)⟩
  · rintro ⟨⟨hidentified, hmet⟩, hall⟩
    refine ⟨⟨hidentified, ?_⟩, ?_⟩
    · rw [intake_merging]
      exact hmet
    · rw [intake_merging]
      intro entry hentry
      exact (hsettles entry hentry).2 (hall entry hentry)

end Batch

/-- A result with the owners recorded anew, merged or not. -/
def ExportResult.recorded (merges : Bool) (result : ExportResult) : ExportResult :=
  { result with
    settings := result.settings.merging merges
    intake := result.intake.recorded merges }

/-- The result differs in the records of owners only. -/
theorem Batch.result_merging (settings : ExportSettings) (batch : Batch) (merges : Bool) :
    batch.result (settings.merging merges) = (batch.result settings).recorded merges := by
  have hagrees := batch.agrees_merging settings merges
  have howners := batch.sharesOwners_merging settings merges
  have hdocuments : (batch.intake (settings.merging merges)).documents =
      (batch.intake settings).documents := by
    rw [batch.intake_merging]
    rfl
  have houtput : Kind.output (batch.context (settings.merging merges))
      (batch.intake settings).documents =
        Kind.output (batch.context settings) (batch.intake settings).documents :=
    funext fun kind => hagrees.output howners kind
  unfold result ExportResult.recorded
  rw [hdocuments, houtput, hagrees.recordKinds howners, batch.intake_merging]

/-! ### How many records there are -/

/-- Texts that are not empty, as they are picked out of what holds them. -/
theorem filterMap_ite_eq_map_filter {α β : Type} (text : α → String) (f : String → β)
    (xs : List α) :
    xs.filterMap (fun x => if text x = "" then none else some (f (text x))) =
      ((xs.map text).filter (· ≠ "")).map f := by
  induction xs with
  | nil => rfl
  | cons x rest ih =>
    rw [List.filterMap_cons, List.map_cons]
    by_cases h : text x = ""
    · rw [if_pos h, List.filter_cons_of_neg (by simpa using h)]
      exact ih
    · rw [if_neg h, List.filter_cons_of_pos (by simpa using h), List.map_cons, ← ih]

/-- A list without repeats has as many elements as there are different ones. -/
theorem length_eraseDups {α : Type} [BEq α] [LawfulBEq α] [DecidableEq α] (xs : List α) :
    xs.eraseDups.length = xs.toFinset.card := by
  have hsame : xs.eraseDups.toFinset = xs.toFinset := by
    ext x
    rw [List.mem_toFinset, List.mem_toFinset, List.mem_eraseDups]
  rw [← List.toFinset_card_of_nodup (nodup_eraseDups xs), hsame]

namespace Intake

variable (intake : Intake)

/-- The applications that policies name, one for every policy that names one. -/
def namedApplications : List String :=
  ((intake.documents .flowPolicy).map fun document => document.text "applicationId").filter (· ≠ "")

/-- The flows that variables name, one for every variable that names one. -/
def namedFlows : List String :=
  ((intake.documents .variable).map fun document => (document.inner "flow").text "id").filter
    (· ≠ "")

/-- What the record of a policy is about, given its application. -/
def aboutApplication (id : String) : Ref × Kind :=
  (⟨.application, id⟩, .flowPolicy)

/-- What the record of a variable is about, given its flow. -/
def aboutFlow (id : String) : Ref × Kind :=
  (⟨.flow, id⟩, .variable)

/-- What the record of the owner of a document is about, if the document names one. -/
def subject? (kind : Kind) (document : Members) : Option (Ref × Kind) :=
  (ownerOf? kind document).map fun owner => (owner, kind)

theorem filterMap_subject?_variable : (intake.documents .variable).filterMap (subject? .variable) =
    intake.namedFlows.map aboutFlow := by
  rw [namedFlows, ← filterMap_ite_eq_map_filter]
  refine List.filterMap_congr fun document _ => ?_
  by_cases h : (document.inner "flow").text "id" = ""
  · simp [subject?, ownerOf?, h]
  · simp [subject?, ownerOf?, aboutFlow, h]

theorem filterMap_subject?_flowPolicy :
    (intake.documents .flowPolicy).filterMap (subject? .flowPolicy) =
      intake.namedApplications.map aboutApplication := by
  rw [namedApplications, ← filterMap_ite_eq_map_filter]
  refine List.filterMap_congr fun document _ => ?_
  by_cases h : document.text "applicationId" = ""
  · simp [subject?, ownerOf?, h]
  · simp [subject?, ownerOf?, aboutApplication, h]

/-- Owners are recorded for the policies and the variables that name one. -/
theorem subjects_history_perm : (intake.history.map OwnershipRecord.subject).Perm
    (intake.namedFlows.map aboutFlow ++ intake.namedApplications.map aboutApplication) := by
  have hhistory : intake.history.map OwnershipRecord.subject =
      intake.entries.flatMap fun entry => (subject? entry.ref.kind entry.document).toList := by
    rw [history, List.map_filterMap, List.filterMap_eq_flatMap_toList]
    refine List.flatMap_congr fun entry _ => ?_
    rw [Entry.call?, Option.map_map]
    rfl
  have hkinds : (Kind.all.flatMap fun kind =>
      (intake.documents kind).flatMap fun document => (subject? kind document).toList) =
        intake.namedFlows.map aboutFlow ++ intake.namedApplications.map aboutApplication := by
    -- documents of the other kinds name no owner
    have hnone : ∀ kind : Kind, kind ≠ .variable → kind ≠ .flowPolicy →
        (intake.documents kind).filterMap (subject? kind) = [] := by
      intro kind hvariable hpolicy
      rw [List.filterMap_eq_nil_iff]
      intro document _
      cases kind with
      | «variable» => exact absurd rfl hvariable
      | connectorInstance => rfl
      | flow => rfl
      | application => rfl
      | flowPolicy => exact absurd rfl hpolicy
    simp only [← List.filterMap_eq_flatMap_toList]
    rw [← filterMap_subject?_variable, ← filterMap_subject?_flowPolicy]
    simp [Kind.all, hnone]
  rw [hhistory, ← hkinds]
  exact (intake.flatMap_documents_perm fun kind document => (subject? kind document).toList).symm

/-- Where nothing is merged there is a record for every document that names its owner. -/
theorem length_plain : (intake.recorded false).ownership.records.length =
    intake.namedApplications.length + intake.namedFlows.length := by
  have hlength := intake.subjects_history_perm.length_eq
  rw [List.length_map, List.length_append, List.length_map, List.length_map] at hlength
  show (Ownership.after false intake.history).records.length = _
  rw [Ownership.records_plain, hlength, Nat.add_comm]

/-- Where records are merged there is one for every owner that a policy or a variable names. -/
theorem length_merged : (intake.recorded true).ownership.records.length =
    intake.namedApplications.toFinset.card + intake.namedFlows.toFinset.card := by
  have hinjective : Function.Injective aboutApplication := by
    intro id other h
    exact congrArg (fun subject => subject.1.id) h
  have hinjective' : Function.Injective aboutFlow := by
    intro id other h
    exact congrArg (fun subject => subject.1.id) h
  have hfinset : (intake.history.map OwnershipRecord.subject).toFinset =
      intake.namedFlows.toFinset.image aboutFlow ∪
        intake.namedApplications.toFinset.image aboutApplication := by
    rw [List.toFinset_eq_of_perm _ _ intake.subjects_history_perm, List.toFinset_append]
    ext subject
    simp
  -- no record is about both a policy and a variable
  have hdisjoint : Disjoint (intake.namedFlows.toFinset.image aboutFlow)
      (intake.namedApplications.toFinset.image aboutApplication) := by
    rw [Finset.disjoint_left]
    intro subject hflow happlication
    obtain ⟨id, -, rfl⟩ := Finset.mem_image.1 hflow
    obtain ⟨other, -, hother⟩ := Finset.mem_image.1 happlication
    cases congrArg Prod.snd hother
  calc (Ownership.after true intake.history).records.length
      = (intake.history.map OwnershipRecord.subject).eraseDups.length := by
        rw [Ownership.records_merged, OwnershipRecord.gathered, OwnershipRecord.ofSubjects,
          List.length_map]
    _ = (intake.history.map OwnershipRecord.subject).toFinset.card := length_eraseDups _
    _ = intake.namedFlows.toFinset.card + intake.namedApplications.toFinset.card := by
        rw [hfinset, Finset.card_union_of_disjoint hdisjoint,
          Finset.card_image_of_injective _ hinjective',
          Finset.card_image_of_injective _ hinjective]
    _ = intake.namedApplications.toFinset.card + intake.namedFlows.toFinset.card :=
        Nat.add_comm _ _

end Intake

/-! ### Exports -/

/-- **Merging shows in the number of records only.** An export comes to a result or not, whether or
not it merges records of owners; and then it writes the same configuration, the same declarations
and the same imports, leaves the same missing and unlinked references behind, and counts the same
but for the records. Without merging these are as many as the policies and variables that name their
owner, with merging as many as the different owners that policies name and that variables name. -/
theorem runExport_merging (settings : ExportSettings) (batch : Batch) :
    ((∃ plain, runExport .standard (settings.merging false) batch = .ok plain) ↔
      ∃ merged, runExport .standard (settings.merging true) batch = .ok merged) ∧
    ∀ plain merged, runExport .standard (settings.merging false) batch = .ok plain →
      runExport .standard (settings.merging true) batch = .ok merged →
      merged.hcl = plain.hcl ∧ merged.inputs = plain.inputs ∧ merged.imports = plain.imports ∧
      merged.ledger = plain.ledger ∧
      merged.metrics = { plain.metrics with
        ownershipRecords := merged.metrics.ownershipRecords } ∧
      plain.metrics.ownershipRecords =
        plain.intake.namedApplications.length + plain.intake.namedFlows.length ∧
      merged.metrics.ownershipRecords =
        plain.intake.namedApplications.toFinset.card + plain.intake.namedFlows.toFinset.card := by
  constructor
  · simp only [runExport_standard, Batch.completes_merging_iff]
    constructor
    · rintro ⟨plain, hcompletes, -⟩
      exact ⟨_, hcompletes, rfl⟩
    · rintro ⟨merged, hcompletes, -⟩
      exact ⟨_, hcompletes, rfl⟩
  · intro plain merged hplain hmerged
    obtain ⟨-, rfl⟩ := runExport_standard.1 hplain
    obtain ⟨-, rfl⟩ := runExport_standard.1 hmerged
    rw [Batch.result_merging, Batch.result_merging]
    generalize batch.result settings = result
    exact ⟨rfl, rfl, rfl, rfl, rfl, result.intake.length_plain, result.intake.length_merged⟩

/-- Two policies of one application, a policy of another one, and a variable of a flow. -/
def ownedDocuments : Batch where
  documents :=
    [(.variable,
      [("id", .str "v"), ("name", .str "counter"), ("context", .str "flow"),
       ("dataType", .str "number"), ("flow", .obj [("id", .str "f")])]),
     (.flowPolicy, policy "p" "a"), (.flowPolicy, policy "q" "a"), (.flowPolicy, policy "r" "b")]
where
  policy (id owner : String) : Members :=
    [("id", .str id), ("name", .str id), ("applicationId", .str owner),
     ("flowDistributions", .arr [.obj [("id", .str "f")]])]

theorem runExport_merging_ownedDocuments : ∃ plain merged,
    runExport .standard (ExportSettings.plain.merging false) ownedDocuments = .ok plain ∧
    runExport .standard (ExportSettings.plain.merging true) ownedDocuments = .ok merged ∧
    merged.hcl = plain.hcl ∧ plain.metrics.ownershipRecords = 4 ∧
    merged.metrics.ownershipRecords = 3 := by
  have h : (runExport .standard (ExportSettings.plain.merging false) ownedDocuments).toOption.any
      (fun plain => plain.intake.namedApplications == ["a", "a", "b"] &&
        plain.intake.namedFlows == ["f"]) = true := by
    decide +kernel
  obtain ⟨plain, hplain, hnamed⟩ := exists_ok_of_any h
  obtain ⟨happlications, hflows⟩ := Bool.and_eq_true_iff.1 hnamed
  obtain ⟨hends, hall⟩ := runExport_merging ExportSettings.plain ownedDocuments
  obtain ⟨merged, hmerged⟩ := hends.1 ⟨plain, hplain⟩
  obtain ⟨hhcl, -, -, -, -, hlength, hcard⟩ := hall plain merged hplain hmerged
  rw [eq_of_beq happlications, eq_of_beq hflows] at hlength hcard
  exact ⟨plain, merged, hplain, hmerged, hhcl, hlength, hcard.trans (by decide)⟩

end HclExport
