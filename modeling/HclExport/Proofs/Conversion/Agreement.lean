import HclExport.Proofs.Conversion.Block
import HclExport.Proofs.Conversion.Emission

/-!
# Contexts that agree

A conversion learns from the graph only what is registered under an identity and which
reference backs a request. So contexts that agree in this, and in their options, convert a
document to the same, provided they agree on its owner.

## Main definitions

* `Context.Agrees` — contexts that find the same.
* `Context.SharesOwners` — contexts in which documents have the same owners.

## Main results

* `Context.Agrees.answer`, `Context.Agrees.note` — how a reference is written, and what that leaves
  behind.
* `Context.Agrees.outcome`, `Context.Agrees.record` — what a document comes to and leaves behind.
* `Context.Agrees.output`, `Context.Agrees.recordKinds` — what many documents come to and leave
  behind.
-/

namespace HclExport

/-- Contexts with the same options that find the same resources and the same references. -/
structure Context.Agrees (context other : Context) : Prop where
  environmentId : context.environmentId = other.environmentId
  skipsReferences : context.skipsReferences = other.skipsReferences
  writesImports : context.writesImports = other.writesImports
  usesVariables : context.usesVariables = other.usesVariables
  isStrict : context.isStrict = other.isStrict
  scope : context.scope = other.scope
  find? : context.graph.graph.find? = other.graph.graph.find?
  edge? : context.edge? = other.edge?

/-- Contexts in which documents, given by kind, have the same owners. -/
def Context.SharesOwners (context other : Context) (documents : Kind → List Members) : Prop :=
  ∀ document ∈ documents .flowPolicy,
    owningApplication context document = owningApplication other document

namespace Context.Agrees

variable {context other : Context}

theorem lookup (h : context.Agrees other) :
    context.graph.graph.lookup = other.graph.graph.lookup := by
  funext ref
  unfold Graph.lookup
  rw [h.find?]

theorem sourceOf (h : context.Agrees other) : context.sourceOf = other.sourceOf := by
  funext ref
  unfold Context.sourceOf
  rw [h.find?]

theorem environment (h : context.Agrees other) : context.environment = other.environment := by
  unfold Context.environment
  rw [h.skipsReferences, h.environmentId]

/-- References are written in the same way. -/
theorem answer (h : context.Agrees other) : context.answer = other.answer := by
  funext request
  have hlink : context.link = other.link := by
    funext e
    unfold link
    rw [h.find?, h.scope]
  unfold Context.answer
  rw [h.skipsReferences, h.edge?, hlink]

/-- What references leave behind is the same. -/
theorem note (h : context.Agrees other) : context.note = other.note := by
  funext ledger request
  unfold Context.note Context.missing? Context.unlinked?
  rw [h.skipsReferences, h.edge?, h.find?, h.scope]

/-- A document is drafted in the same way, if its owner is the same. -/
theorem draft (h : context.Agrees other) {kind : Kind} {document : Members}
    (howner : kind = .flowPolicy →
      owningApplication context document = owningApplication other document) :
    kind.converter.draft context document = kind.converter.draft other document := by
  cases kind with
  | «variable» =>
    show draftVariable context document = draftVariable other document
    unfold draftVariable
    rw [h.lookup, h.environment, h.usesVariables]
  | connectorInstance =>
    show draftConnectorInstance {} context document = draftConnectorInstance {} other document
    unfold draftConnectorInstance
    rw [h.lookup, h.environment, h.usesVariables]
  | flow =>
    show draftFlow context document = draftFlow other document
    unfold draftFlow flowVersion enableItem deployItem flowReference
    rw [h.lookup, h.sourceOf, h.environment, h.skipsReferences]
  | application =>
    show draftApplication context document = draftApplication other document
    unfold draftApplication
    rw [h.lookup, h.environment]
  | flowPolicy =>
    show draftFlowPolicy context document = draftFlowPolicy other document
    unfold draftFlowPolicy
    rw [h.lookup, h.sourceOf, h.environment, howner rfl]

/-- A document that has no owner is converted in the same way. -/
theorem run_convert (h : context.Agrees other) {kind : Kind} (hkind : kind ≠ .flowPolicy)
    (document : Members) (ledger : Ledger) :
    (kind.converter.convert context document).run ledger =
      (kind.converter.convert other document).run ledger := by
  unfold Converter.convert
  rw [Draft.run_write, Draft.run_write, h.draft fun howned => absurd howned hkind, h.answer, h.note]

theorem imports (h : context.Agrees other) {kind : Kind} {document : Members}
    (howner : kind = .flowPolicy →
      owningApplication context document = owningApplication other document) (name : String) :
    kind.converter.imports context document name = kind.converter.imports other document name := by
  have hparent : kind.converter.parentId context document =
      kind.converter.parentId other document := by
    by_cases hkind : kind = .flowPolicy
    · subst hkind
      exact howner rfl
    · rw [Kind.parentId_converter hkind, Kind.parentId_converter hkind]
  unfold Converter.imports
  rw [hparent, h.environmentId]

/-- A document comes to the same, if its owner is the same. -/
theorem outcome (h : context.Agrees other) {kind : Kind} {document : Members}
    (howner : kind = .flowPolicy →
      owningApplication context document = owningApplication other document) :
    kind.converter.outcome context document = kind.converter.outcome other document := by
  unfold Converter.outcome
  rw [h.draft howner, h.answer, h.writesImports]
  simp only [h.imports howner]

/-- A document asks for the same references, if its owner is the same. -/
theorem requests (h : context.Agrees other) {kind : Kind} {document : Members}
    (howner : kind = .flowPolicy →
      owningApplication context document = owningApplication other document) :
    kind.converter.requests context document = kind.converter.requests other document := by
  unfold Converter.requests
  rw [h.draft howner, h.answer]

/-- What a document leads to follows from what it comes to and asks for. -/
theorem record (h : context.Agrees other) {kind : Kind} {document : Members}
    (howner : kind = .flowPolicy →
      owningApplication context document = owningApplication other document) (ledger : Ledger) :
    kind.converter.record context ledger document =
      kind.converter.record other ledger document := by
  unfold Converter.record
  rw [h.outcome howner, h.requests howner, h.note]

theorem add (h : context.Agrees other) {kind : Kind} {document : Members}
    (howner : kind = .flowPolicy →
      owningApplication context document = owningApplication other document)
    (output : KindOutput) :
    kind.converter.add context output document = kind.converter.add other output document := by
  unfold Converter.add
  rw [h.outcome howner]

theorem settles_iff (h : context.Agrees other) {kind : Kind} {document : Members}
    (howner : kind = .flowPolicy →
      owningApplication context document = owningApplication other document) :
    kind.converter.Settles context document ↔ kind.converter.Settles other document := by
  unfold Converter.Settles
  rw [h.outcome howner, h.isStrict]

end Context.Agrees

/-! ### Many documents -/

section Documents

variable {context other : Context} {documents : Kind → List Members}

theorem Context.SharesOwners.owner_eq (h : context.SharesOwners other documents) {kind : Kind}
    {document : Members} (hdocument : document ∈ documents kind) (hkind : kind = .flowPolicy) :
    owningApplication context document = owningApplication other document :=
  h document (hkind ▸ hdocument)

namespace Context.Agrees

/-- Documents of a kind come to the same, if their owners are the same. -/
theorem output (h : context.Agrees other) (howners : context.SharesOwners other documents)
    (kind : Kind) : kind.output context documents = kind.output other documents :=
  List.foldl_ext _ _ _ fun output _ hdocument => h.add (howners.owner_eq hdocument) output

theorem recordKinds (h : context.Agrees other) (howners : context.SharesOwners other documents)
    (kinds : List Kind) (ledger : Ledger) :
    Emission.recordKinds context documents kinds ledger =
      Emission.recordKinds other documents kinds ledger := by
  refine List.foldl_ext _ _ _ fun ledger kind _ => ?_
  exact List.foldl_ext _ _ _ fun ledger _ hdocument =>
    h.record (howners.owner_eq hdocument) ledger

end Context.Agrees

end Documents

end HclExport
