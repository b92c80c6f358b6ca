import HclExport.Conversion.Emission
import HclExport.Proofs.Conversion.Draft

/-!
# What a conversion comes to

A document is converted by itself: what it comes to depends on the context alone, and what
it leaves behind is added to what others left. So the output of a kind, and the ledger at
the end, can be read off the documents.

## Main definitions

* `Converter.outcome`, `Converter.requests` — what a document comes to and asks for.
* `Converter.output`, `Converter.record` — the output of some documents, and what one of them
  adds to a ledger.
* `Converter.Settles` — a document that does not end the conversion.

## Main results

* `Emission.convertDocuments_eq_ok`, `Emission.convertAll_eq_ok` — conversions that come to
  an end.
* `Emission.convertKinds_of_settles` — conversions in which every document settles.
* `missing_record`, `unlinked_record`, `inputs_record`, `imports_record` — what a document leaves
  behind.
-/

namespace HclExport

/-- What a loop has listed, when each step lists something for what it meets. -/
theorem foldl_lists {σ α β : Type} {f : σ → α → σ} (listed : σ → List β) (adds : α → List β)
    (h : ∀ s x, listed (f s x) = listed s ++ adds x) (xs : List α) (s : σ) :
    listed (xs.foldl f s) = listed s ++ xs.flatMap adds := by
  induction xs generalizing s with
  | nil => simp
  | cons x xs ih => rw [List.foldl_cons, ih, h, List.flatMap_cons, List.append_assoc]

namespace Converter

variable (converter : Converter) (context : Context)

/-- What a document asks for. -/
def requests (document : Members) : List Request :=
  (converter.draft context document).requests context.answer

/-- What a document comes to: its block with its imports, or the way in which it fails. -/
def outcome (document : Members) : Except Failure (Block × List ImportBlock) :=
  match (converter.draft context document).result context.answer with
  | .error failure => .error failure
  | .ok block =>
    if context.writesImports then
      (orFail (converter.imports context document block.name)).map fun imports => (block, imports)
    else .ok (block, [])

/-- What a document adds to a ledger. -/
def record (ledger : Ledger) (document : Members) : Ledger :=
  let noted := (converter.requests context document).foldl context.note ledger
  match converter.outcome context document with
  | .ok (block, imports) => noted.addKept block.inputs imports
  | .error _ => noted

/-- The output after a further document. -/
def add (output : KindOutput) (document : Members) : KindOutput :=
  match converter.outcome context document with
  | .ok (block, imports) => output.keep block imports
  | .error (.fault fault) =>
    output.skip ⟨output.kind.type, Problem.resourceOf document, fault.text⟩
  | .error _ => output

/-- A document that does not end the conversion: it gives a block, or meets a fault outside
strict mode. -/
def Settles (document : Members) : Prop :=
  (∃ kept, converter.outcome context document = .ok kept) ∨
    context.isStrict = false ∧ ∃ fault, converter.outcome context document = .error (.fault fault)

variable {converter context}

theorem result_of_outcome_ok {document : Members} {block : Block} {imports : List ImportBlock}
    (h : converter.outcome context document = .ok (block, imports)) :
    (converter.draft context document).result context.answer = .ok block := by
  unfold outcome at h
  split at h
  next => cases h
  next found hresult =>
    rw [hresult]
    split at h
    next =>
      cases himports : orFail (converter.imports context document found.name) with
      | error failure =>
        rw [himports] at h
        cases h
      | ok all =>
        rw [himports] at h
        obtain ⟨rfl, -⟩ := Prod.mk.inj (Except.ok.inj h)
        rfl
    next =>
      obtain ⟨rfl, -⟩ := Prod.mk.inj (Except.ok.inj h)
      rfl

/-- A fault is met by the conversion, or else by the import. -/
theorem result_of_outcome_fault {document : Members} {fault : Fault}
    (h : converter.outcome context document = .error (.fault fault)) :
    (converter.draft context document).result context.answer = .error (.fault fault) ∨
      ∃ block, (converter.draft context document).result context.answer = .ok block ∧
        context.writesImports = true ∧
        converter.imports context document block.name = .error fault := by
  unfold outcome at h
  split at h
  next failure hresult =>
    obtain rfl := Except.error.inj h
    exact Or.inl hresult
  next block hresult =>
    refine Or.inr ⟨block, hresult, ?_⟩
    split at h
    next hwrites =>
      refine ⟨hwrites, ?_⟩
      cases himports : converter.imports context document block.name with
      | ok all =>
        rw [himports] at h
        cases h
      | error other =>
        rw [himports] at h
        obtain rfl : other = fault := by simpa [orFail, Except.mapError, Except.map] using h
        rfl
    next => cases h

end Converter

namespace Emission

theorem run_convertDocument (context : Context) (converter : Converter) (document : Members)
    (ledger : Ledger) :
    (convertDocument context converter document).run ledger =
      (converter.outcome context document,
        (converter.requests context document).foldl context.note ledger) := by
  unfold convertDocument Converter.convert
  rw [Conversion.run_bind, Draft.run_write]
  unfold Converter.outcome Converter.requests
  cases (converter.draft context document).result context.answer with
  | error failure => rfl
  | ok block =>
    cases context.writesImports with
    | false => rfl
    | true =>
      dsimp only
      cases converter.imports context document block.name with
      | error fault => rfl
      | ok imports => rfl

/-- Conversions that come to an end: their output, and what they leave behind. -/
theorem convertDocuments_eq_ok {context : Context} {converter : Converter}
    {documents : List Members} {output final : KindOutput} {emission after : Emission}
    (h : convertDocuments context converter output emission documents = (.ok final, after)) :
    final = documents.foldl (converter.add context) output ∧
      after.ledger = documents.foldl (converter.record context) emission.ledger ∧
      ∀ document ∈ documents, converter.Settles context document := by
  induction documents generalizing output emission with
  | nil =>
    obtain ⟨hfinal, rfl⟩ := Prod.mk.inj h
    exact ⟨(Except.ok.inj hfinal).symm, rfl, by simp⟩
  | cons document rest ih =>
    -- what the document comes to does not depend on what others left behind
    rw [convertDocuments, run_convertDocument] at h
    simp only [List.foldl_cons]
    rw [Converter.add, Converter.record]
    cases houtcome : converter.outcome context document with
    | ok kept =>
      obtain ⟨block, imports⟩ := kept
      simp only [houtcome] at h
      obtain ⟨hfinal, hledger, hall⟩ := ih h
      refine ⟨hfinal, hledger, ?_⟩
      intro other hother
      rcases List.mem_cons.1 hother with rfl | hother
      · exact Or.inl ⟨_, houtcome⟩
      · exact hall other hother
    | error failure =>
      cases failure with
      | fault fault =>
        simp only [houtcome] at h
        -- a fault ends a strict conversion, and any other failure every conversion
        by_cases hstrict : context.isStrict = true
        · rw [if_pos hstrict] at h
          cases h
        · rw [if_neg hstrict] at h
          obtain ⟨hfinal, hledger, hall⟩ := ih h
          refine ⟨hfinal, hledger, ?_⟩
          intro other hother
          rcases List.mem_cons.1 hother with rfl | hother
          · exact Or.inr ⟨by simpa using hstrict, fault, houtcome⟩
          · exact hall other hother
      | _ =>
        simp only [houtcome] at h
        cases h

/-- Documents that settle are converted to the end. -/
theorem convertDocuments_of_settles {context : Context} {converter : Converter}
    {documents : List Members}
    (h : ∀ document ∈ documents, converter.Settles context document) (output : KindOutput)
    (emission : Emission) :
    ∃ after,
      convertDocuments context converter output emission documents =
        (.ok (documents.foldl (converter.add context) output), after) ∧
      after.ledger = documents.foldl (converter.record context) emission.ledger := by
  induction documents generalizing output emission with
  | nil => exact ⟨emission.finish output, rfl, rfl⟩
  | cons document rest ih =>
    have hrest := ih fun other hother => h other (List.mem_cons_of_mem _ hother)
    rw [convertDocuments, run_convertDocument]
    simp only [List.foldl_cons]
    rw [Converter.add, Converter.record]
    rcases h document List.mem_cons_self with ⟨⟨block, imports⟩, houtcome⟩ | ⟨hstrict, fault, houtcome⟩
    · simp only [houtcome]
      exact hrest _ _
    · simp only [houtcome]
      rw [if_neg (by simp [hstrict])]
      exact hrest _ _

end Emission

/-! ### Reading the output off the documents -/

namespace Converter

variable (converter : Converter) (context : Context)

/-- The block of a document, if it gives one. -/
def block? (document : Members) : Option Block :=
  match converter.outcome context document with
  | .ok (block, _) => some block
  | .error _ => none

/-- The report on a document that meets a fault. -/
def problem? (document : Members) : Option Problem :=
  match converter.outcome context document with
  | .error (.fault fault) =>
    some ⟨converter.kind.type, Problem.resourceOf document, fault.text⟩
  | _ => none

/-- What the references of a document that lead nowhere are recorded as. -/
def missing (document : Members) : List MissingRecord :=
  (converter.requests context document).filterMap context.missing?

/-- What the references of a document that are written as ids are recorded as. -/
def unlinked (document : Members) : List UnlinkedReference :=
  (converter.requests context document).filterMap context.unlinked?

/-- The values that the block of a document takes from outside. -/
def taken (document : Members) : List InputVariable :=
  match converter.block? context document with
  | some block => block.inputs
  | none => []

/-- The imports of a document that gives a block. -/
def imported (document : Members) : List ImportBlock :=
  match converter.outcome context document with
  | .ok (_, imports) => imports
  | .error _ => []

variable {converter context}

@[simp] theorem kind_add (output : KindOutput) (document : Members) :
    (converter.add context output document).kind = output.kind := by
  unfold add
  split
  · rfl
  · rfl
  · rfl

@[simp] theorem kind_foldl_add (documents : List Members) (output : KindOutput) :
    (documents.foldl (converter.add context) output).kind = output.kind := by
  induction documents generalizing output with
  | nil => rfl
  | cons document rest ih => rw [List.foldl_cons, ih, kind_add]

@[simp] theorem blocks_foldl_add (documents : List Members) (output : KindOutput) :
    (documents.foldl (converter.add context) output).blocks =
      output.blocks ++ documents.filterMap (converter.block? context) := by
  induction documents generalizing output with
  | nil => simp
  | cons document rest ih =>
    rw [List.foldl_cons, ih, List.filterMap_cons, add, block?]
    cases converter.outcome context document with
    | ok kept => simp [KindOutput.keep]
    | error failure =>
      cases failure with
      | fault fault => simp [KindOutput.skip]
      | _ => rfl

theorem problems_foldl_add (documents : List Members) {output : KindOutput}
    (h : output.kind = converter.kind) :
    (documents.foldl (converter.add context) output).problems =
      output.problems ++ documents.filterMap (converter.problem? context) := by
  induction documents generalizing output with
  | nil => simp
  | cons document rest ih =>
    rw [List.foldl_cons, ih (by rw [kind_add, h]), List.filterMap_cons, add, problem?]
    cases converter.outcome context document with
    | ok kept => simp [KindOutput.keep]
    | error failure =>
      cases failure with
      | fault fault => simp [KindOutput.skip, h]
      | _ => rfl

theorem missing_record (ledger : Ledger) (document : Members) :
    (converter.record context ledger document).missing =
      ledger.missing ++ converter.missing context document := by
  unfold record
  dsimp only
  split
  · exact Context.foldl_note_missing context _ ledger
  · exact Context.foldl_note_missing context _ ledger

theorem unlinked_record (ledger : Ledger) (document : Members) :
    (converter.record context ledger document).unlinked =
      ledger.unlinked ++ converter.unlinked context document := by
  unfold record
  dsimp only
  split
  · exact Context.foldl_note_unlinked context _ ledger
  · exact Context.foldl_note_unlinked context _ ledger

theorem inputs_record (ledger : Ledger) (document : Members) :
    (converter.record context ledger document).inputs =
      ledger.inputs ++ converter.taken context document := by
  unfold record taken block?
  dsimp only
  split
  · simp [Ledger.addKept]
  · simp

theorem imports_record (ledger : Ledger) (document : Members) :
    (converter.record context ledger document).imports =
      ledger.imports ++ converter.imported context document := by
  unfold record imported
  dsimp only
  split
  · simp [Ledger.addKept]
  · simp

end Converter

/-! ### All kinds -/

theorem ConverterRegistry.converter?_standard (kind : Kind) :
    ConverterRegistry.standard.converter? kind = .ok (some kind.converter) := by
  cases kind <;> rfl

/-- The output of some documents of a kind. -/
def Kind.output (context : Context) (documents : Kind → List Members) (kind : Kind) : KindOutput :=
  (documents kind).foldl (kind.converter.add context) { kind := kind }

namespace Kind

variable (context : Context) (documents : Kind → List Members) (kind : Kind)

@[simp] theorem kind_output : (kind.output context documents).kind = kind :=
  Converter.kind_foldl_add _ _

@[simp] theorem blocks_output : (kind.output context documents).blocks =
    (documents kind).filterMap (kind.converter.block? context) := by
  rw [output, Converter.blocks_foldl_add, List.nil_append]

@[simp] theorem problems_output : (kind.output context documents).problems =
    (documents kind).filterMap (kind.converter.problem? context) := by
  rw [output, Converter.problems_foldl_add _ kind.kind_converter.symm, List.nil_append]

end Kind

namespace Emission

theorem convertKinds_eq_ok {context : Context} {documents : Kind → List Members}
    {kinds : List Kind} {emission after : Emission} {outputs : List KindOutput}
    (h : convertKinds .standard context documents emission kinds = (.ok outputs, after)) :
    outputs = kinds.map (Kind.output context documents) ∧
      after.ledger.missing = emission.ledger.missing ++
        kinds.flatMap (fun kind => (documents kind).flatMap (kind.converter.missing context)) ∧
      after.ledger.unlinked = emission.ledger.unlinked ++
        kinds.flatMap (fun kind => (documents kind).flatMap (kind.converter.unlinked context)) ∧
      ∀ kind ∈ kinds, ∀ document ∈ documents kind, kind.converter.Settles context document := by
  induction kinds generalizing emission outputs with
  | nil =>
    obtain ⟨houtputs, rfl⟩ := Prod.mk.inj h
    obtain rfl := Except.ok.inj houtputs
    simp
  | cons kind rest ih =>
    rw [convertKinds, convertKind, ConverterRegistry.converter?_standard] at h
    dsimp only at h
    split at h
    next => cases h
    next output middle hkind =>
      obtain ⟨hmore, rfl⟩ := Prod.mk.inj h
      obtain ⟨rfl, hledger, hsettles⟩ := convertDocuments_eq_ok hkind
      cases hrest : (convertKinds .standard context documents middle rest).1 with
      | error failure =>
        rw [hrest] at hmore
        cases hmore
      | ok found =>
        rw [hrest] at hmore
        obtain rfl := Except.ok.inj hmore
        obtain ⟨rfl, hmissing, hunlinked, hall⟩ := ih (Prod.ext hrest rfl)
        refine ⟨rfl, ?_, ?_, ?_⟩
        · rw [hmissing, hledger, foldl_lists _ _ Converter.missing_record, List.flatMap_cons,
            List.append_assoc]
        · rw [hunlinked, hledger, foldl_lists _ _ Converter.unlinked_record, List.flatMap_cons,
            List.append_assoc]
        · intro other hother
          rcases List.mem_cons.1 hother with rfl | hother
          · exact hsettles
          · exact hall other hother

/-- What the conversion of some kinds adds to a ledger. -/
def recordKinds (context : Context) (documents : Kind → List Members) (kinds : List Kind)
    (ledger : Ledger) : Ledger :=
  kinds.foldl (fun ledger kind => (documents kind).foldl (kind.converter.record context) ledger)
    ledger

/-- Kinds whose documents settle are converted to the end. -/
theorem convertKinds_of_settles {context : Context} {documents : Kind → List Members}
    {kinds : List Kind}
    (h : ∀ kind ∈ kinds, ∀ document ∈ documents kind, kind.converter.Settles context document)
    (emission : Emission) :
    ∃ after,
      convertKinds .standard context documents emission kinds =
        (.ok (kinds.map (Kind.output context documents)), after) ∧
      after.ledger = recordKinds context documents kinds emission.ledger := by
  induction kinds generalizing emission with
  | nil => exact ⟨emission, rfl, rfl⟩
  | cons kind rest ih =>
    obtain ⟨middle, hkind, hmiddle⟩ :=
      convertDocuments_of_settles (h kind List.mem_cons_self) { kind := kind } emission
    obtain ⟨after, hrest, hafter⟩ :=
      ih (fun other hother => h other (List.mem_cons_of_mem _ hother)) middle
    refine ⟨after, ?_, ?_⟩
    · rw [convertKinds, convertKind, ConverterRegistry.converter?_standard]
      simp only [hkind, hrest]
      rfl
    · rw [hafter, hmiddle]
      rfl

theorem missing_recordKinds (context : Context) (documents : Kind → List Members) (kinds : List Kind)
    (ledger : Ledger) :
    (recordKinds context documents kinds ledger).missing = ledger.missing ++
      kinds.flatMap fun kind => (documents kind).flatMap (kind.converter.missing context) := by
  refine foldl_lists Ledger.missing _ ?_ kinds ledger
  intro ledger kind
  exact foldl_lists _ _ Converter.missing_record _ ledger

theorem unlinked_recordKinds (context : Context) (documents : Kind → List Members)
    (kinds : List Kind) (ledger : Ledger) :
    (recordKinds context documents kinds ledger).unlinked = ledger.unlinked ++
      kinds.flatMap fun kind => (documents kind).flatMap (kind.converter.unlinked context) := by
  refine foldl_lists Ledger.unlinked _ ?_ kinds ledger
  intro ledger kind
  exact foldl_lists _ _ Converter.unlinked_record _ ledger

theorem imports_recordKinds (context : Context) (documents : Kind → List Members) (kinds : List Kind)
    (ledger : Ledger) :
    (recordKinds context documents kinds ledger).imports = ledger.imports ++
      kinds.flatMap fun kind => (documents kind).flatMap (kind.converter.imported context) := by
  refine foldl_lists Ledger.imports _ ?_ kinds ledger
  intro ledger kind
  exact foldl_lists _ _ Converter.imports_record _ ledger

theorem inputs_recordKinds (context : Context) (documents : Kind → List Members) (kinds : List Kind)
    (ledger : Ledger) :
    (recordKinds context documents kinds ledger).inputs = ledger.inputs ++
      kinds.flatMap fun kind => (documents kind).flatMap (kind.converter.taken context) := by
  refine foldl_lists Ledger.inputs _ ?_ kinds ledger
  intro ledger kind
  exact foldl_lists _ _ Converter.inputs_record _ ledger

end Emission

end HclExport
