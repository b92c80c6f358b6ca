import HclExport.Proofs.Export.Admission
import HclExport.Proofs.Export.Run

/-!
# What an export comes to

An export with the standard converters as a function of its settings and its batch: which
documents end it, and its result if none does.

## Main definitions

* `Intake.linked`, `Batch.intake` — what an export takes in of a batch.
* `Batch.Completes` — no document of a batch ends the export.
* `Batch.result` — the result of an export that no document ends.

## Main results

* `Intake.ofBatch_standard` — when a batch is taken in, and what that comes to.
* `runExport_standard` — when an export comes to an end, and its result.
* `Batch.accounts_intake`, `Batch.complete_intake` — what is known of what is taken in.
* `Intake.Accounts.entries_by_kind` — the documents that take part, kind by kind.
-/

namespace HclExport

namespace Intake

variable {settings : ExportSettings}

/-! ### Recording references -/

/-- The references of a document that takes part are recorded, unless one of its required paths
is unmet and that is not tolerated. -/
theorem exists_link_eq_ok {intake : Intake} {entry : Entry} (hs : intake.graph.isSealed = false)
    (hfound : (intake.graph.find? entry.ref).isSome)
    (hmet : (intake.graph.unmet? entry).isSome → settings.toleratesUnmetPaths = true) :
    ∃ next, link settings intake entry = .ok next := by
  obtain ⟨r, hf⟩ := Option.isSome_iff_exists.1 hfound
  have hsource : (⟨entry.ref, r.name⟩ : Resource) = r := by
    rw [← Graph.ref_of_find? hf]
  have hparse : intake.graph.parse entry = parseReferences r (.obj entry.document) := by
    rw [Graph.parse, Graph.sourceOf_of_find? hf]
  unfold link
  simp only [Graph.lookup, hf, orFail, Except.mapError, bind, Except.bind, hsource]
  cases hresult : parseReferences r (.obj entry.document) with
  | error unmet =>
    have htolerates : settings.toleratesUnmetPaths = true := by
      refine hmet ?_
      rw [Graph.unmet?, hparse, hresult]
      rfl
    exact ⟨_, if_pos htolerates⟩
  | ok edges =>
    dsimp only
    rw [Graph.addEdges_of_registered hs]
    · exact ⟨_, rfl⟩
    · intro e he
      rw [source_mem_parseReferences hresult e he, Graph.ref_of_find? hf, hf]

theorem exists_foldlM_link_eq_ok {entries : List Entry} {intake : Intake}
    (hs : intake.graph.isSealed = false)
    (hfound : ∀ entry ∈ entries, (intake.graph.find? entry.ref).isSome)
    (hmet : ∀ entry ∈ entries, (intake.graph.unmet? entry).isSome →
      settings.toleratesUnmetPaths = true) :
    ∃ final, entries.foldlM (link settings) intake = .ok final := by
  induction entries generalizing intake with
  | nil => exact ⟨intake, rfl⟩
  | cons entry rest ih =>
    obtain ⟨next, hlink⟩ := exists_link_eq_ok hs (hfound entry List.mem_cons_self)
      (hmet entry List.mem_cons_self)
    -- the graph only gains references, which neither hide a resource nor unmet paths
    obtain ⟨rfl, -⟩ := link_eq_ok hs hlink
    have hs' : (intake.withReferences (intake.graph.edgesOf entry)
        (intake.graph.unmet? entry).toList).graph.isSealed = false := hs
    obtain ⟨final, hrest⟩ := ih hs'
      (fun other hother => hfound other (List.mem_cons_of_mem _ hother))
      (fun other hother => hmet other (List.mem_cons_of_mem _ hother))
    refine ⟨final, ?_⟩
    rw [List.foldlM_cons, hlink]
    exact hrest

/-- What was taken in, with the references of all documents that take part. -/
def linked (intake : Intake) : Intake :=
  intake.withReferences (intake.entries.flatMap intake.graph.edgesOf)
    (intake.entries.filterMap intake.graph.unmet?)

theorem Accounts.linked {scope : Scope} {seen : List (Kind × Members)} {intake : Intake}
    (h : intake.Accounts scope seen) : intake.linked.Accounts scope seen :=
  ⟨h.refs, h.entries, h.duplicates, h.problems, h.excluded, h.outOfScope⟩

end Intake

/-! ### Taking in a batch -/

/-- The documents that take part, kind by kind: of the candidates of each kind the first of each
identity, in the order of the batch. -/
theorem Intake.Accounts.entries_by_kind {scope : Scope} {batch : Batch} {intake : Intake}
    (h : intake.Accounts scope batch.inOrder) :
    intake.entries = Kind.all.flatMap fun kind =>
      firstsBy Entry.ref (batch.candidates scope kind) := by
  rw [h.entries]
  show firstsBy Entry.ref (batch.allCandidates scope) = _
  rw [Batch.allCandidates_eq]
  refine firstsBy_flatMap (Kind.nodup_all.imp ?_)
  -- candidates of different kinds have different identities
  intro kind other hne x hx y hy href
  refine hne ?_
  rw [← Batch.kind_of_mem_candidates hx, ← Batch.kind_of_mem_candidates hy, href]

namespace Batch

/-- The documents that an export takes in of a batch. -/
def accepted (settings : ExportSettings) (batch : Batch) : Intake :=
  batch.inOrder.foldl (Intake.take settings.scope)
    { ownership := { merges := settings.mergesOwnership } }

/-- What an export takes in of a batch. -/
def intake (settings : ExportSettings) (batch : Batch) : Intake :=
  (batch.accepted settings).linked

/-- What was taken in of a batch, read off its documents. -/
theorem accounts_intake (settings : ExportSettings) (batch : Batch) :
    (batch.intake settings).Accounts settings.scope batch.inOrder := by
  refine Intake.Accounts.linked ?_
  exact Intake.accounts_foldl_take (Intake.accounts_empty _ _) batch.inOrder

/-- No document ends an export while the batch is taken in: a strict export can identify every
document, and an export that does not tolerate unmet paths finds all required paths met. -/
structure Admissible (settings : ExportSettings) (batch : Batch) : Prop where
  identified : settings.isStrict = true → ∀ document ∈ batch.inOrder,
    (settings.scope.fate document.1 document.2).fault? = none
  met : ∀ entry ∈ (batch.intake settings).entries,
    ((batch.intake settings).graph.unmet? entry).isSome → settings.toleratesUnmetPaths = true

end Batch

namespace Intake

variable {settings : ExportSettings} {batch : Batch}

theorem acceptBatch_eq_ok_iff {intake : Intake} :
    acceptBatch .standard settings batch = .ok intake ↔
      (settings.isStrict = true → ∀ document ∈ batch.inOrder,
        (settings.scope.fate document.1 document.2).fault? = none) ∧
      intake = batch.accepted settings := by
  have hnone : batch.inOrder.findSome? (refusal? settings) = none ↔
      (settings.isStrict = true → ∀ document ∈ batch.inOrder,
        (settings.scope.fate document.1 document.2).fault? = none) := by
    rw [List.findSome?_eq_none_iff]
    unfold refusal?
    by_cases hstrict : settings.isStrict = true
    · simp [hstrict]
    · simp [hstrict]
  rw [acceptBatch_standard, ← hnone]
  cases batch.inOrder.findSome? (refusal? settings) with
  | some failure => simp
  | none => simp [Batch.accepted, eq_comm]

/-- When a batch is taken in, and what that comes to. -/
theorem ofBatch_standard {intake : Intake} :
    ofBatch .standard settings batch = .ok intake ↔
      batch.Admissible settings ∧ intake = batch.intake settings := by
  unfold ofBatch
  constructor
  · intro h
    cases haccept : acceptBatch .standard settings batch with
    | error failure =>
      rw [haccept] at h
      cases h
    | ok accepted =>
      rw [haccept] at h
      have hsound := sound_acceptBatch haccept
      obtain ⟨hidentified, rfl⟩ := acceptBatch_eq_ok_iff.1 haccept
      obtain ⟨rfl, hmet⟩ := foldlM_link_eq_ok hsound.isOpen h
      exact ⟨⟨hidentified, hmet⟩, rfl⟩
  · rintro ⟨hadmissible, rfl⟩
    have haccept := acceptBatch_eq_ok_iff.2 ⟨hadmissible.identified, rfl⟩
    have hsound := sound_acceptBatch haccept
    have hfound : ∀ entry ∈ (batch.accepted settings).entries,
        ((batch.accepted settings).graph.find? entry.ref).isSome := by
      intro entry hentry
      obtain ⟨r, -, hf⟩ := hsound.exists_find? hentry
      rw [hf]
      rfl
    obtain ⟨final, hlink⟩ := exists_foldlM_link_eq_ok hsound.isOpen hfound hadmissible.met
    rw [haccept]
    refine Eq.trans hlink ?_
    obtain ⟨rfl, -⟩ := foldlM_link_eq_ok hsound.isOpen hlink
    rfl

end Intake

/-- The same settings, but nothing ends the export while a batch is taken in. -/
def ExportSettings.lenient (settings : ExportSettings) : ExportSettings :=
  { settings with
    isStrict := false
    toleratesUnmetPaths := true }

/-- What is known of what is taken in, whether or not that ends the export. -/
theorem Batch.complete_intake (settings : ExportSettings) (batch : Batch) :
    (batch.intake settings).Complete settings.lenient := by
  have hadmissible : batch.Admissible settings.lenient :=
    ⟨fun hstrict => absurd hstrict (by simp [ExportSettings.lenient]), fun _ _ _ => rfl⟩
  exact Intake.complete_ofBatch (Intake.ofBatch_standard.2 ⟨hadmissible, rfl⟩)

/-! ### The whole export -/

namespace Batch

variable (settings : ExportSettings) (batch : Batch)

/-- The context in which the documents of a batch are converted. -/
def context : Context :=
  (batch.intake settings).context settings

/-- No document ends the export of a batch: it is taken in, and every document that takes part
settles when it is converted. -/
structure Completes : Prop extends Admissible settings batch where
  settles : ∀ entry ∈ (batch.intake settings).entries,
    entry.ref.kind.converter.Settles (batch.context settings) entry.document

/-- The result of an export that no document ends. -/
def result : ExportResult where
  settings := settings
  batch := batch
  intake := batch.intake settings
  outputs := Kind.all.map (Kind.output (batch.context settings) (batch.intake settings).documents)
  ledger := Emission.recordKinds (batch.context settings) (batch.intake settings).documents
    Kind.all {}

end Batch

theorem Intake.mem_documents_iff {intake : Intake} {kind : Kind} {document : Members} :
    document ∈ intake.documents kind ↔
      ∃ entry ∈ intake.entries, entry.ref.kind = kind ∧ entry.document = document := by
  simp [documents, and_assoc]

/-- **When an export comes to an end, and its result.** -/
theorem runExport_standard {settings : ExportSettings} {batch : Batch} {result : ExportResult} :
    runExport .standard settings batch = .ok result ↔
      batch.Completes settings ∧ result = batch.result settings := by
  unfold runExport
  -- when all documents settle, the outputs and the ledger are those of the result
  have hconvert (hsettles : ∀ entry ∈ (batch.intake settings).entries,
      entry.ref.kind.converter.Settles (batch.context settings) entry.document) :
      ∃ after, Emission.convertAll .standard (batch.context settings)
          (batch.intake settings).documents {} = (.ok (batch.result settings).outputs, after) ∧
        after.ledger = (batch.result settings).ledger := by
    refine Emission.convertKinds_of_settles ?_ {}
    intro kind _ document hdocument
    obtain ⟨entry, hentry, rfl, rfl⟩ := Intake.mem_documents_iff.1 hdocument
    exact hsettles entry hentry
  constructor
  · intro h
    cases hintake : Intake.ofBatch .standard settings batch with
    | error failure =>
      rw [hintake] at h
      cases h
    | ok intake =>
      rw [hintake] at h
      obtain ⟨hadmissible, rfl⟩ := Intake.ofBatch_standard.1 hintake
      cases hrun : Emission.convertAll .standard (batch.context settings)
          (batch.intake settings).documents {} with
      | mk outputs emission =>
        unfold Batch.context at hrun
        cases outputs with
        | error failure =>
          simp only [bind, Except.bind, hrun] at h
          cases h
        | ok outputs =>
          simp only [bind, Except.bind, hrun] at h
          obtain rfl := Except.ok.inj h
          obtain ⟨-, -, -, hsettles⟩ := Emission.convertKinds_eq_ok hrun
          have hall : ∀ entry ∈ (batch.intake settings).entries,
              entry.ref.kind.converter.Settles (batch.context settings) entry.document :=
            fun entry hentry =>
              hsettles _ (Kind.mem_all _) entry.document (Intake.mem_documents hentry)
          refine ⟨⟨hadmissible, hall⟩, ?_⟩
          obtain ⟨after, hafter, hledger⟩ := hconvert hall
          obtain ⟨houtputs, rfl⟩ := Prod.mk.inj (hrun.symm.trans hafter)
          rw [Except.ok.inj houtputs, hledger]
          rfl
  · rintro ⟨⟨hadmissible, hsettles⟩, rfl⟩
    obtain ⟨after, hafter, hledger⟩ := hconvert hsettles
    unfold Batch.context at hafter
    rw [Intake.ofBatch_standard.2 ⟨hadmissible, rfl⟩]
    simp only [bind, Except.bind, hafter, hledger]
    rfl

/-! ### The ledger -/

namespace Entry

variable (context : Context) (entry : Entry)

/-- The imports of a document. -/
def imported : List ImportBlock :=
  entry.ref.kind.converter.imported context entry.document

/-- The values that the block of a document takes from outside. -/
def taken : List InputVariable :=
  entry.ref.kind.converter.taken context entry.document

end Entry

namespace Batch

variable (settings : ExportSettings) (batch : Batch)

/-- The imports of an export are those of its documents. -/
theorem imports_perm : (batch.result settings).ledger.imports.Perm
    ((batch.intake settings).entries.flatMap (Entry.imported (batch.context settings))) := by
  have hledger := Emission.imports_recordKinds (batch.context settings)
    (batch.intake settings).documents Kind.all {}
  refine (List.Perm.of_eq hledger).trans ?_
  exact (batch.intake settings).flatMap_documents_perm fun kind => kind.converter.imported _

/-- The inputs of an export are those of its documents. -/
theorem inputs_perm : (batch.result settings).ledger.inputs.Perm
    ((batch.intake settings).entries.flatMap (Entry.taken (batch.context settings))) := by
  have hledger := Emission.inputs_recordKinds (batch.context settings)
    (batch.intake settings).documents Kind.all {}
  refine (List.Perm.of_eq hledger).trans ?_
  exact (batch.intake settings).flatMap_documents_perm fun kind => kind.converter.taken _

end Batch

end HclExport
