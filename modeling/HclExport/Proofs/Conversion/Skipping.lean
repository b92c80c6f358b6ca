import HclExport.Proofs.Conversion.Imports
import HclExport.Proofs.Conversion.Requests

/-!
# Documents that are skipped

A document is skipped when its conversion meets a fault, or when its block is written but cannot be
imported. A conversion meets its faults before it writes a reference, so in the first case nothing is
left behind. An import is refused where no environment is given, and for a policy without an owner.
By then the references of the block have been written, and what they left behind stays.

## Main definitions

* `Draft.FaultsFirst` — a draft that asks for nothing if it meets a fault.
* `Kind.Importable` — the import of a document can be written.
* `Kind.Refuses` — the block of a document is written, and its import is refused.
* `Converter.writes` — whether the block of a document is written.

## Main results

* `Kind.faultsFirst_draft` — every conversion meets its faults first.
* `Kind.imports_eq_ok_iff` — which imports can be written.
* `Emission.run_convertDocument_skipped` — what a document that is skipped leaves behind.
* `Emission.convertDocuments_filter_writes` — documents that meet a fault might as well not be there.
-/

namespace HclExport

/-- What the references of a draft leave behind. -/
theorem Context.foldl_note (context : Context) (requests : List Request) (ledger : Ledger) :
    requests.foldl context.note ledger =
      { ledger with
        missing := ledger.missing ++ requests.filterMap context.missing?
        unlinked := ledger.unlinked ++ requests.filterMap context.unlinked? } := by
  have hmissing := foldl_note_missing context requests ledger
  have hunlinked := foldl_note_unlinked context requests ledger
  have hinputs := foldl_note_inputs context requests ledger
  have himports := foldl_note_imports context requests ledger
  cases hnoted : requests.foldl context.note ledger with
  | mk missing unlinked inputs imports =>
    rw [hnoted] at hmissing hunlinked hinputs himports
    rw [← hmissing, ← hunlinked, ← hinputs, ← himports]

/-! ### Faults come first -/

/-- A draft that asks for nothing if it meets a fault. -/
def Draft.FaultsFirst {α : Type} (answer : Request → Hcl.Expression) (d : Draft α) : Prop :=
  ∀ fault, d.result answer = .error (.fault fault) → d.requests answer = []

namespace Draft.FaultsFirst

variable {α β : Type} {answer : Request → Hcl.Expression}

theorem of_steady {d : Draft α} {expected : List Request} (h : Steady answer d expected) :
    FaultsFirst answer d := by
  intro fault hfault
  exact absurd hfault (h.noFault fault)

/-- What is checked before asks for nothing. -/
theorem lift_bind {result : Except Failure α} {f : α → Draft β}
    (h : ∀ a, FaultsFirst answer (f a)) : FaultsFirst answer (liftM result >>= f) := by
  cases result with
  | error failure =>
    intro _ _
    rfl
  | ok a => exact h a

end Draft.FaultsFirst

/-- Every conversion meets its faults before it writes a reference. -/
theorem Kind.faultsFirst_draft (kind : Kind) (context : Context) (document : Members)
    (answer : Request → Hcl.Expression) :
    (kind.converter.draft context document).FaultsFirst answer := by
  cases kind with
  | «variable» =>
    exact .lift_bind fun _ => .lift_bind fun _ => .lift_bind fun _ => .lift_bind fun _ =>
      .lift_bind fun _ => .of_steady (.pure _)
  | connectorInstance =>
    exact .lift_bind fun _ => .lift_bind fun _ => .lift_bind fun _ => .lift_bind fun _ =>
      .of_steady (.pure _)
  | flow =>
    refine .lift_bind fun _ => .lift_bind fun id => .lift_bind fun _ => .lift_bind fun _ => ?_
    -- the diagram asks for references, and whatever comes with it or after it meets no fault
    obtain ⟨nodes, -, hdiagram⟩ :=
      @steady_diagramItems answer (context.sourceOf ⟨.flow, id⟩) document
    refine .of_steady (.lift_bind (noFault_settingsItems document) fun settings _ =>
      hdiagram.bind_silent fun diagram => ?_)
    exact .lift_bind (noFault_inputSchemaItems document) fun _ _ =>
      .lift_bind (noFault_flowTrigger document) fun _ _ =>
        .lift_bind (noFault_flowVersion context document _) fun _ _ => .pure _
  | application =>
    exact .lift_bind fun _ => .lift_bind fun _ => .lift_bind fun _ => .of_steady (.pure _)
  | flowPolicy =>
    refine .lift_bind fun _ => .lift_bind fun id => .lift_bind fun _ => .lift_bind fun owner => ?_
    have happlication := @steady_referencePair answer (context.sourceOf ⟨.flowPolicy, id⟩)
      "application_id" "davinci_application_id" (owner.getD "")
    exact .of_steady (happlication.bind fun application =>
      .lift_bind (noFault_policyTrigger document) fun trigger _ =>
        (steady_distributionItems _ document).bind_pure _)

/-! ### Imports that can be written -/

/-- The import of a document can be written: it has an id, the environment is given, and a policy
has an owner. -/
structure Kind.Importable (kind : Kind) (context : Context) (document : Members) : Prop where
  identified : ∃ id, resourceId kind document = .ok id
  environment : context.environmentId.isTruthy = true
  owned : kind = .flowPolicy →
    ∃ owner, owningApplication context document = .ok owner ∧ owner.getD "" ≠ ""

/-- Without an environment there is no id to import by. -/
theorem importId_ne_ok {kind : Kind} {environment id owner : Json} {imported : String}
    (h : environment.isTruthy = false) :
    importId (.str kind.type) environment id owner ≠ .ok imported := by
  unfold importId
  rw [isImportable_type, if_neg (by decide), if_pos (by rw [h]; rfl)]
  simp

/-- Which imports can be written. -/
theorem Kind.imports_eq_ok_iff {kind : Kind} {context : Context} {document : Members}
    {name : String} :
    (∃ imports, kind.converter.imports context document name = .ok imports) ↔
      kind.Importable context document := by
  constructor
  · rintro ⟨imports, h⟩
    obtain ⟨id, owner, hid, howner, hgiven, -⟩ := Kind.imports_eq_ok h
    refine ⟨⟨id, hid⟩, ?_, ?_⟩
    · by_contra henvironment
      unfold Converter.imports at h
      rw [Kind.kind_converter, hid, howner] at h
      cases himport : importId (.str kind.type) context.environmentId (.str id)
          (.ofText? owner) with
      | error fault =>
        simp only [bind, Except.bind, himport] at h
        cases h
      | ok imported => exact importId_ne_ok (Bool.eq_false_iff.2 henvironment) himport
    · rintro rfl
      exact ⟨owner, howner, hgiven rfl⟩
  · rintro ⟨⟨id, hid⟩, henvironment, howned⟩
    cases himports : kind.converter.imports context document name with
    | ok imports => exact ⟨imports, rfl⟩
    | error fault =>
      obtain ⟨rfl, owner, howner, hempty⟩ := Converter.imports_fault hid henvironment himports
      obtain ⟨other, hother, hgiven⟩ := howned rfl
      obtain rfl : owner = other := Except.ok.inj (howner.symm.trans hother)
      exact absurd hempty hgiven

/-! ### What is left behind -/

/-- The block of a document is written, and its import is refused. -/
structure Kind.Refuses (kind : Kind) (context : Context) (document : Members) : Prop where
  written : ∃ block, (kind.converter.draft context document).result context.answer = .ok block
  asked : context.writesImports = true
  refused : ¬ kind.Importable context document

/-- Whether the block of a document is written, with or without an import. -/
def Converter.writes (converter : Converter) (context : Context) (document : Members) : Bool :=
  ((converter.draft context document).result context.answer).isOk

namespace Kind

variable {kind : Kind} {context : Context} {document : Members} {fault : Fault}

/-- A document is skipped before it asks for anything, or else when its import is refused. -/
theorem requests_of_skipped (h : kind.converter.outcome context document = .error (.fault fault)) :
    kind.converter.writes context document = false ∧
        kind.converter.requests context document = [] ∨
      kind.converter.writes context document = true ∧ kind.Refuses context document := by
  unfold Converter.writes
  rcases Converter.result_of_outcome_fault h with hresult | ⟨block, hresult, hasked, himports⟩
  · refine Or.inl ⟨by rw [hresult]; rfl, ?_⟩
    exact kind.faultsFirst_draft context document context.answer fault hresult
  · refine Or.inr ⟨by rw [hresult]; rfl, ⟨block, hresult⟩, hasked, ?_⟩
    intro himportable
    obtain ⟨imports, hok⟩ := imports_eq_ok_iff.2 himportable
    rw [himports] at hok
    cases hok

/-- A document that meets a fault adds nothing. -/
theorem record_of_writes (hsettles : kind.converter.Settles context document)
    (hwrites : kind.converter.writes context document = false) (ledger : Ledger) :
    kind.converter.record context ledger document = ledger := by
  rcases hsettles with ⟨⟨block, imports⟩, houtcome⟩ | ⟨-, fault, hfault⟩
  · rw [Converter.writes, Converter.result_of_outcome_ok houtcome] at hwrites
    cases hwrites
  · rcases requests_of_skipped hfault with ⟨-, hnone⟩ | ⟨hwritten, -⟩
    · unfold Converter.record
      rw [hfault, hnone]
      rfl
    · rw [hwritten] at hwrites
      cases hwrites

theorem block?_of_writes (hwrites : kind.converter.writes context document = false) :
    kind.converter.block? context document = none := by
  unfold Converter.block?
  split
  next block imports houtcome =>
    rw [Converter.writes, Converter.result_of_outcome_ok houtcome] at hwrites
    cases hwrites
  next => rfl

end Kind

namespace Emission

variable {context : Context} {kind : Kind}

/-- **A document that is skipped leaves nothing behind**, except where its block was written and
its import refused: then what its references left behind stays. -/
theorem run_convertDocument_skipped {document : Members} {ledger left : Ledger} {fault : Fault}
    (h : (convertDocument context kind.converter document).run ledger =
      (.error (.fault fault), left)) :
    left.inputs = ledger.inputs ∧ left.imports = ledger.imports ∧
    (left = ledger ∨ kind.Refuses context document ∧
      left.missing = ledger.missing ++ kind.converter.missing context document ∧
      left.unlinked = ledger.unlinked ++ kind.converter.unlinked context document) := by
  rw [run_convertDocument] at h
  obtain ⟨hfault, hleft⟩ := Prod.mk.inj h
  rw [Context.foldl_note] at hleft
  subst hleft
  refine ⟨rfl, rfl, ?_⟩
  rcases Kind.requests_of_skipped hfault with ⟨-, hnone⟩ | ⟨-, hrefuses⟩
  · left
    rw [hnone]
    simp
  · exact Or.inr ⟨hrefuses, rfl, rfl⟩

theorem foldl_record_filter_writes {documents : List Members}
    (h : ∀ document ∈ documents, kind.converter.Settles context document) (ledger : Ledger) :
    (documents.filter (kind.converter.writes context)).foldl (kind.converter.record context) ledger =
      documents.foldl (kind.converter.record context) ledger := by
  induction documents generalizing ledger with
  | nil => rfl
  | cons document rest ih =>
    have hrest := ih fun other hother => h other (List.mem_cons_of_mem _ hother)
    by_cases hwrites : kind.converter.writes context document = true
    · rw [List.filter_cons_of_pos hwrites]
      exact hrest _
    · rw [List.filter_cons_of_neg hwrites, List.foldl_cons,
        Kind.record_of_writes (h document List.mem_cons_self) (Bool.eq_false_iff.2 hwrites)]
      exact hrest _

theorem filterMap_block?_filter_writes (documents : List Members) :
    (documents.filter (kind.converter.writes context)).filterMap (kind.converter.block? context) =
      documents.filterMap (kind.converter.block? context) := by
  induction documents with
  | nil => rfl
  | cons document rest ih =>
    by_cases hwrites : kind.converter.writes context document = true
    · rw [List.filter_cons_of_pos hwrites, List.filterMap_cons, List.filterMap_cons, ih]
    · rw [List.filter_cons_of_neg hwrites, List.filterMap_cons,
        Kind.block?_of_writes (Bool.eq_false_iff.2 hwrites), ih]

/-- **Documents that meet a fault might as well not be there**: without them a conversion keeps the
same blocks and leaves the same behind. -/
theorem convertDocuments_filter_writes {documents : List Members} {output final : KindOutput}
    {emission after : Emission}
    (h : convertDocuments context kind.converter output emission documents = (.ok final, after)) :
    ∃ final' after',
      convertDocuments context kind.converter output emission
        (documents.filter (kind.converter.writes context)) = (.ok final', after') ∧
      final'.blocks = final.blocks ∧ after'.ledger = after.ledger := by
  obtain ⟨rfl, hledger, hsettles⟩ := convertDocuments_eq_ok h
  obtain ⟨after', hrun, hafter⟩ := convertDocuments_of_settles
    (fun document hdocument => hsettles document (List.mem_filter.1 hdocument).1) output emission
  refine ⟨_, after', hrun, ?_, ?_⟩
  · rw [Converter.blocks_foldl_add, Converter.blocks_foldl_add, filterMap_block?_filter_writes]
  · rw [hafter, hledger, foldl_record_filter_writes hsettles]

end Emission

end HclExport
