import HclExport.Proofs.Conversion.Block
import HclExport.Proofs.Conversion.Emission
import HclExport.Proofs.Conversion.Usable

/-!
# Documents that end a conversion

Outside strict mode a fault is reported, and the conversion goes on. A value that is used without
a look, and cannot be used, leads to a failure that is no fault: it ends the conversion, and
nobody reports the document.

## Main definitions

* `Survives` — a computation that comes to a result or meets a fault.
* `Members.UsableAsFlow`, `Members.UsableAsPolicy` — all that is used without a look can be used.
* `Kind.Handles` — a document of a kind is at fault before anything of that sort is used, or all
  of it can be used.

## Main results

* `survives_draftFlow`, `survives_draftFlowPolicy` — the two kinds that use values without a look.
* `Kind.settles_iff` — **when a document does not end a conversion.**
* `Emission.noFault_convertKinds` — what ends a conversion outside strict mode is no fault.
-/

namespace HclExport

/-- A computation that comes to a result or meets a fault. -/
def Survives {α : Type} (result : Except Failure α) : Prop :=
  ∀ failure, result = .error failure → ∃ fault, failure = .fault fault

section Computations

variable {α β : Type} {answer : Request → Hcl.Expression}

@[simp] theorem survives_ok (a : α) : Survives (.ok a) := by
  intro failure h
  cases h

@[simp] theorem survives_fault (fault : Fault) :
    Survives (.error (.fault fault) : Except Failure α) := by
  intro failure h
  exact ⟨fault, (Except.error.inj h).symm⟩

/-- What may meet a fault comes first, and the rest only counts if it does not. -/
theorem Draft.survives_orFail_bind {result : Except Fault α} {f : α → Draft β} {p : Prop}
    (h : ∀ a, result = .ok a → (Survives ((f a).result answer) ↔ p)) :
    Survives ((liftM (orFail result) >>= f : Draft β).result answer) ↔
      ((∃ a, result = .ok a) → p) := by
  cases result with
  | error fault => exact iff_of_true (survives_fault fault) (by simp)
  | ok a => exact (h a rfl).trans (by simp)

/-- A part that meets no fault has to come to a result. -/
theorem Draft.survives_bind_iff {d : Draft α} {f : α → Draft β} {p q : Prop}
    (hfault : NoFault (d.result answer)) (hp : Returns (d.result answer) ↔ p)
    (hq : ∀ a, Survives ((f a).result answer) ↔ q) :
    Survives ((d >>= f).result answer) ↔ p ∧ q := by
  rw [Draft.result_bind, ← hp]
  cases hresult : d.result answer with
  | error failure =>
    refine iff_of_false (fun h => ?_) fun hboth => not_returns_error _ hboth.1
    obtain ⟨fault, rfl⟩ := h failure rfl
    exact hfault fault hresult
  | ok a => exact (hq a).trans (by simp)

end Computations

/-! ### Whole documents -/

/-- Every value of a flow that is used without a look can be used; the version only counts where
references are skipped. -/
structure Members.UsableAsFlow (skips : Bool) (document : Members) : Prop where
  settings : UsableSettings (document.inner "settings")
  zoom : ((document.inner "graphData").get "zoom").IsFinite
  schema : UsableSchema document
  trigger : UsableTrigger (document.inner "trigger")
  version : skips = true → (document.get "currentVersion").IsFinite

/-- Every value of a flow policy that is used without a look can be used. -/
structure Members.UsableAsPolicy (document : Members) : Prop where
  trigger : UsableTrigger (document.inner "trigger")
  distributions : UsableDistributions document

/-- A document of a kind gives a block or a fault: it is at fault for its name or its state, and
nothing else of it is used, or all that is used can be. -/
def Kind.Handles (skips : Bool) (document : Members) : Kind → Prop
  | .flow => document.text "name" ≠ "" → (∃ enabled, enabledState document = .ok enabled) →
      document.UsableAsFlow skips
  | .flowPolicy => document.text "name" ≠ "" → document.UsableAsPolicy
  | _ => True

section Kinds

variable {context : Context} {document : Members} {id : String}

theorem survives_draftFlow (hid : resourceId .flow document = .ok id)
    (hfound : (context.graph.graph.find? ⟨.flow, id⟩).isSome = true) :
    Survives ((draftFlow context document).result context.answer) ↔
      Kind.Handles context.skipsReferences document .flow := by
  have hsteps : Survives ((draftFlow context document).result context.answer) ↔
      ((∃ name, requireText .flow document "name" "flow name" = .ok name) →
        (∃ id, resourceId .flow document = .ok id) →
        (∃ enabled, enabledState document = .ok enabled) →
        (∃ unique, context.graph.graph.lookup ⟨.flow, id⟩ = .ok unique) →
          document.UsableAsFlow context.skipsReferences) := by
    unfold draftFlow
    refine Draft.survives_orFail_bind fun name _ => Draft.survives_orFail_bind fun id' hid' => ?_
    obtain rfl : id = id' := Except.ok.inj (hid.symm.trans hid')
    refine Draft.survives_orFail_bind fun enabled _ => Draft.survives_orFail_bind fun unique _ => ?_
    -- from here on no fault is met, so every part has to come to a result
    have husable : document.UsableAsFlow context.skipsReferences ↔
        UsableSettings (document.inner "settings") ∧
        ((document.inner "graphData").get "zoom").IsFinite ∧ UsableSchema document ∧
        UsableTrigger (document.inner "trigger") ∧
        (context.skipsReferences = true → (document.get "currentVersion").IsFinite) ∧ True :=
      ⟨fun h => ⟨h.settings, h.zoom, h.schema, h.trigger, h.version, trivial⟩,
        fun h => ⟨h.1, h.2.1, h.2.2.1, h.2.2.2.1, h.2.2.2.2.1⟩⟩
    obtain ⟨nodes, -, hsteady⟩ :=
      @steady_diagramItems context.answer (context.sourceOf ⟨.flow, id⟩) document
    rw [husable]
    exact Draft.survives_bind_iff (noFault_settingsItems _) (returns_settingsItems _) fun _ =>
      Draft.survives_bind_iff hsteady.noFault (returns_diagramItems _ _) fun _ =>
      Draft.survives_bind_iff (noFault_inputSchemaItems _) (returns_inputSchemaItems _) fun _ =>
      Draft.survives_bind_iff (noFault_flowTrigger _) (returns_flowTrigger _) fun _ =>
      Draft.survives_bind_iff (noFault_flowVersion _ _ _) (returns_flowVersion _ _ _) fun _ =>
        iff_of_true (survives_ok _) trivial
  rw [hsteps]
  simp [Kind.Handles, requireText_eq_ok_iff, hid, Graph.lookup_eq_ok_iff,
    Option.isSome_iff_exists.1 hfound]

theorem survives_draftFlowPolicy (hid : resourceId .flowPolicy document = .ok id)
    (hfound : (context.graph.graph.find? ⟨.flowPolicy, id⟩).isSome = true) :
    Survives ((draftFlowPolicy context document).result context.answer) ↔
      Kind.Handles context.skipsReferences document .flowPolicy := by
  have howner : ∃ owner, owningApplication context document = .ok owner := by
    cases howner : owningApplication context document with
    | error fault => exact absurd howner (owningApplication_ne_error hid fault)
    | ok owner => exact ⟨owner, rfl⟩
  have hsteps : Survives ((draftFlowPolicy context document).result context.answer) ↔
      ((∃ name, requireText .flowPolicy document "name" "flow policy name" = .ok name) →
        (∃ id, resourceId .flowPolicy document = .ok id) →
        (∃ unique, context.graph.graph.lookup ⟨.flowPolicy, id⟩ = .ok unique) →
        (∃ owner, owningApplication context document = .ok owner) →
          document.UsableAsPolicy) := by
    unfold draftFlowPolicy
    refine Draft.survives_orFail_bind fun name _ => Draft.survives_orFail_bind fun id' hid' => ?_
    obtain rfl : id = id' := Except.ok.inj (hid.symm.trans hid')
    refine Draft.survives_orFail_bind fun unique _ => Draft.survives_orFail_bind fun owner _ => ?_
    have husable : document.UsableAsPolicy ↔ True ∧ UsableTrigger (document.inner "trigger") ∧
        UsableDistributions document ∧ True :=
      ⟨fun h => ⟨trivial, h.trigger, h.distributions, trivial⟩, fun h => ⟨h.2.1, h.2.2.1⟩⟩
    rw [husable]
    exact Draft.survives_bind_iff (steady_referencePair _ _ _ _).noFault
        (iff_true_intro (returns_referencePair _ _ _ _)) fun _ =>
      Draft.survives_bind_iff (noFault_policyTrigger _) (returns_policyTrigger _) fun _ =>
      Draft.survives_bind_iff (steady_distributionItems _ _).noFault
        (returns_distributionItems _ _) fun _ =>
        iff_of_true (survives_ok _) trivial
  rw [hsteps]
  simp [Kind.Handles, requireText_eq_ok_iff, hid, howner, Graph.lookup_eq_ok_iff,
    Option.isSome_iff_exists.1 hfound]

/-- A document that is used no further than a few texts gives a block or a fault. -/
theorem survives_draft_of_ne {kind : Kind} (hflow : kind ≠ .flow) (hpolicy : kind ≠ .flowPolicy) :
    Survives ((kind.converter.draft context document).result context.answer) := by
  have hlift {α β : Type} {result : Except Fault α} {f : α → Draft β}
      (h : ∀ a, Survives ((f a).result context.answer)) :
      Survives ((liftM (orFail result) >>= f : Draft β).result context.answer) :=
    (Draft.survives_orFail_bind fun a _ => iff_true_intro (h a)).2 fun _ => trivial
  cases kind with
  | «variable» =>
    exact hlift fun _ => hlift fun _ => hlift fun _ => hlift fun _ => hlift fun _ => survives_ok _
  | connectorInstance =>
    exact hlift fun _ => hlift fun _ => hlift fun _ => hlift fun _ => survives_ok _
  | flow => exact absurd rfl hflow
  | application => exact hlift fun _ => hlift fun _ => hlift fun _ => survives_ok _
  | flowPolicy => exact absurd rfl hpolicy

/-- The imports of a block can only be at fault. -/
theorem Converter.settles_iff_survives (converter : Converter)
    (hstrict : context.isStrict = false) :
    converter.Settles context document ↔
      Survives ((converter.draft context document).result context.answer) := by
  unfold Converter.Settles Converter.outcome
  cases (converter.draft context document).result context.answer with
  | error failure =>
    constructor
    · rintro (⟨kept, h⟩ | ⟨-, fault, h⟩)
      · cases h
      · rw [Except.error.inj h]
        exact survives_fault fault
    · intro h
      obtain ⟨fault, rfl⟩ := h failure rfl
      exact Or.inr ⟨hstrict, fault, rfl⟩
  | ok block =>
    refine iff_of_true ?_ (survives_ok _)
    dsimp only
    split
    · cases converter.imports context document block.name with
      | error fault => exact Or.inr ⟨hstrict, fault, rfl⟩
      | ok imports => exact Or.inl ⟨_, rfl⟩
    · exact Or.inl ⟨_, rfl⟩

/-- **When a document does not end a conversion** outside strict mode: exactly when it is at
fault before anything else of it is used, or all that is used can be. -/
theorem Kind.settles_iff {kind : Kind} (hstrict : context.isStrict = false)
    (hid : resourceId kind document = .ok id)
    (hfound : (context.graph.graph.find? ⟨kind, id⟩).isSome = true) :
    kind.converter.Settles context document ↔ kind.Handles context.skipsReferences document := by
  rw [Converter.settles_iff_survives _ hstrict]
  by_cases hflow : kind = .flow
  · subst hflow
    exact survives_draftFlow hid hfound
  by_cases hpolicy : kind = .flowPolicy
  · subst hpolicy
    exact survives_draftFlowPolicy hid hfound
  · refine iff_of_true (survives_draft_of_ne hflow hpolicy) ?_
    cases kind with
    | flow => exact absurd rfl hflow
    | flowPolicy => exact absurd rfl hpolicy
    | _ => trivial

end Kinds

/-! ### Many documents -/

namespace Emission

variable {context : Context}

/-- Outside strict mode no fault ends the conversion of documents. -/
theorem noFault_convertDocuments (hstrict : context.isStrict = false) (converter : Converter)
    (output : KindOutput) (emission : Emission) (documents : List Members) :
    NoFault (convertDocuments context converter output emission documents).1 := by
  induction documents generalizing output emission with
  | nil => exact NoFault.ok output
  | cons document rest ih =>
    rw [convertDocuments, run_convertDocument]
    dsimp only
    split
    next => exact ih _ _
    next fault _ =>
      rw [if_neg (by simp [hstrict])]
      exact ih _ _
    next failure hother _ =>
      -- what is left over is no fault
      exact NoFault.error fun fault heq => hother fault heq

theorem noFault_convertKinds (hstrict : context.isStrict = false) (documents : Kind → List Members)
    (emission : Emission) (kinds : List Kind) :
    NoFault (convertKinds .standard context documents emission kinds).1 := by
  induction kinds generalizing emission with
  | nil => exact NoFault.ok []
  | cons kind rest ih =>
    have hkind := noFault_convertDocuments hstrict kind.converter { kind := kind } emission
      (documents kind)
    rw [convertKinds, convertKind, ConverterRegistry.converter?_standard]
    dsimp only
    split
    next failure after hrun =>
      rw [hrun] at hkind
      exact NoFault.error fun fault heq => hkind fault (congrArg _ heq)
    next output after hrun =>
      have hrest := ih after
      cases hmore : (convertKinds .standard context documents after rest).1 with
      | error failure =>
        rw [hmore] at hrest
        exact NoFault.error fun fault heq => hrest fault (congrArg _ heq)
      | ok outputs => exact NoFault.ok _

end Emission

end HclExport
