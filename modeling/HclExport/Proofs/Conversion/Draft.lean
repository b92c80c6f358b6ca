import HclExport.Proofs.Conversion.NoFault

/-!
# What a draft asks for

How a reference is written depends on the graph alone, so a draft comes to the same result
and asks for the same references whatever was left behind before.

## Main definitions

* `Context.answer`, `Context.note` — how a reference is written, and what that leaves behind.
* `Draft.result`, `Draft.requests` — what a draft comes to and asks for, for given answers.
* `Draft.Asks`, `Draft.Steady` — a draft asks for given references, and for none if it meets a
  fault, or it meets none.
* `Draft.Ensures` — what a draft comes to has a property.

## Main results

* `Draft.run_write` — a draft that is written in a context.
* `Draft.Steady.bind`, `Draft.Steady.mapM`, `Draft.Asks.lift_bind` — what drafts in a row ask
  for.
-/

namespace HclExport

/-- One conversion after another, unless the first fails; what was left behind stays. -/
theorem Conversion.run_bind {α β : Type} (first : Conversion α) (next : α → Conversion β)
    (ledger : Ledger) :
    (first >>= next).run ledger =
      match first.run ledger with
      | (.ok a, after) => (next a).run after
      | (.error failure, after) => (.error failure, after) := by
  unfold ExceptT.run
  simp only [bind, ExceptT.bind, ExceptT.mk, StateT.bind, ExceptT.bindCont]
  cases first ledger with
  | mk result after =>
    cases result
    · rfl
    · rfl

/-! ### Single references -/

namespace Context

/-- The record of a reference that leads nowhere. -/
def missing? (context : Context) (request : Request) : Option MissingRecord :=
  if context.skipsReferences then none
  else (context.edge? request.source.ref request.field request.targetId).bind fun e =>
    match context.graph.graph.find? e.target with
    | some _ => none
    | none => some (context.scope.missing request.source ⟨e.target, ""⟩ e.field e.location)

/-- The record of a reference that is written as an id. -/
def unlinked? (context : Context) (request : Request) : Option UnlinkedReference :=
  if context.skipsReferences then none
  else match context.edge? request.source.ref request.field request.targetId with
    | none => some ⟨request.source.ref.key, request.field, request.targetId⟩
    | some _ => none

/-- A reference to an edge's target: its address, or a placeholder. -/
def link (context : Context) (e : Edge) : Hcl.Expression :=
  match context.graph.graph.find? e.target with
  | some target => { text := attributeAddress e.target.kind.type target.name "id" }
  | none =>
    .ofText (placeholder e.target.kind e.target.id (context.scope.classify e.target).description)

/-- How a reference is written. -/
def answer (context : Context) (request : Request) : Hcl.Expression :=
  if context.skipsReferences then { text := Hcl.quote request.targetId }
  else match context.edge? request.source.ref request.field request.targetId with
    | none => { text := Hcl.quote request.targetId }
    | some e => context.link e

/-- What is left behind when a reference is written. -/
def note (context : Context) (ledger : Ledger) (request : Request) : Ledger :=
  { ledger with
    missing := ledger.missing ++ (context.missing? request).toList
    unlinked := ledger.unlinked ++ (context.unlinked? request).toList }

theorem run_referenceFor (context : Context) (request : Request) (ledger : Ledger) :
    (context.referenceFor request.source request.field request.targetId "id").run ledger =
      (.ok (context.answer request), context.note ledger request) := by
  -- all four follow the same cases: skipped, without an edge, to nowhere, to a resource
  unfold referenceFor answer note missing? unlinked?
  by_cases hs : context.skipsReferences = true
  · simp only [hs, if_true, Option.toList_none, List.append_nil]
    rfl
  · simp only [hs, Bool.false_eq_true, if_false]
    cases he : context.edge? request.source.ref request.field request.targetId with
    | none =>
      simp only [Option.bind_none, Option.toList_none, List.append_nil]
      rfl
    | some e =>
      unfold link
      cases hf : context.graph.graph.find? e.target with
      | none =>
        simp only [hf, Option.bind_some, Option.toList_none, List.append_nil]
        rfl
      | some target =>
        simp only [hf, Option.bind_some, Option.toList_none, List.append_nil]
        rfl

section Ledger

variable (context : Context) (requests : List Request) (ledger : Ledger)

@[simp] theorem foldl_note_missing :
    (requests.foldl context.note ledger).missing =
      ledger.missing ++ requests.filterMap context.missing? := by
  induction requests generalizing ledger with
  | nil => simp
  | cons request rest ih =>
    rw [List.foldl_cons, ih]
    cases h : context.missing? request <;> simp [note, h]

@[simp] theorem foldl_note_unlinked :
    (requests.foldl context.note ledger).unlinked =
      ledger.unlinked ++ requests.filterMap context.unlinked? := by
  induction requests generalizing ledger with
  | nil => simp
  | cons request rest ih =>
    rw [List.foldl_cons, ih]
    cases h : context.unlinked? request <;> simp [note, h]

@[simp] theorem foldl_note_inputs :
    (requests.foldl context.note ledger).inputs = ledger.inputs := by
  induction requests generalizing ledger with
  | nil => rfl
  | cons request rest ih => exact ih _

@[simp] theorem foldl_note_imports :
    (requests.foldl context.note ledger).imports = ledger.imports := by
  induction requests generalizing ledger with
  | nil => rfl
  | cons request rest ih => exact ih _

end Ledger

end Context

/-! ### Drafts -/

namespace Draft

variable {α β γ : Type}

theorem bind_assoc (d : Draft α) (f : α → Draft β) (g : β → Draft γ) :
    (d.bind f).bind g = d.bind fun a => (f a).bind g := by
  induction d with
  | done result => cases result <;> rfl
  | refer request next ih =>
    simp only [Draft.bind]
    congr 1
    funext reference
    exact ih reference

theorem bind_pure (d : Draft α) : (d.bind fun a => .done (.ok a)) = d := by
  induction d with
  | done result => cases result <;> rfl
  | refer request next ih =>
    simp only [Draft.bind]
    congr 1
    funext reference
    exact ih reference

instance : LawfulMonad Draft :=
  LawfulMonad.mk' Draft bind_pure (fun _ _ => rfl) bind_assoc

/-- What a draft comes to when its references are written by `answer`. -/
def result (answer : Request → Hcl.Expression) : Draft α → Except Failure α
  | .done result => result
  | .refer request next => (next (answer request)).result answer

/-- What a draft asks for, in order, when its references are written by `answer`. -/
def requests (answer : Request → Hcl.Expression) : Draft α → List Request
  | .done _ => []
  | .refer request next => request :: (next (answer request)).requests answer

variable {answer : Request → Hcl.Expression}

/-- A draft that is written in a context: its result, and what its references leave behind. -/
theorem run_write (d : Draft α) (context : Context) (ledger : Ledger) :
    (d.write context).run ledger =
      (d.result context.answer, (d.requests context.answer).foldl context.note ledger) := by
  induction d generalizing ledger with
  | done result => cases result <;> rfl
  | refer request next ih =>
    -- the answer is the same whatever the ledger holds, so the rest of the draft is known
    rw [write, Conversion.run_bind, Context.run_referenceFor]
    exact ih _ _

theorem result_bind (d : Draft α) (f : α → Draft β) :
    (d >>= f).result answer = d.result answer >>= fun a => (f a).result answer := by
  show (d.bind f).result answer = _
  induction d with
  | done result => cases result <;> rfl
  | refer request next ih => exact ih _

theorem requests_bind_of_ok {d : Draft α} {a : α} (h : d.result answer = .ok a)
    (f : α → Draft β) :
    (d >>= f).requests answer = d.requests answer ++ (f a).requests answer := by
  show (d.bind f).requests answer = _
  induction d with
  | done result =>
    obtain rfl : result = .ok a := h
    rfl
  | refer request next ih => exact congrArg (request :: ·) (ih _ h)

/-! ### What is asked for -/

/-- A draft asks for given references if it comes to a result, and for none if it meets a
fault. -/
structure Asks (answer : Request → Hcl.Expression) (d : Draft α) (expected : List Request) :
    Prop where
  of_ok : ∀ {a}, d.result answer = .ok a → d.requests answer = expected
  of_fault : ∀ {fault}, d.result answer = .error (.fault fault) → d.requests answer = []

/-- A draft that meets no fault, and asks for given references if it comes to a result. -/
structure Steady (answer : Request → Hcl.Expression) (d : Draft α) (expected : List Request) :
    Prop where
  of_ok : ∀ {a}, d.result answer = .ok a → d.requests answer = expected
  noFault : NoFault (d.result answer)

namespace Steady

theorem pure (a : α) : Steady answer (pure a) [] :=
  ⟨fun _ => rfl, .ok a⟩

theorem ask (request : Request) : Steady answer (Draft.ask request) [request] :=
  ⟨fun _ => rfl, .ok _⟩

theorem bind {d : Draft α} {f : α → Draft β} {first second : List Request}
    (hd : Steady answer d first) (hf : ∀ a, Steady answer (f a) second) :
    Steady answer (d >>= f) (first ++ second) := by
  constructor
  · intro b hok
    -- where the whole comes to a result, so does its first part
    cases h : d.result answer with
    | error failure =>
      rw [result_bind, h] at hok
      cases hok
    | ok a =>
      rw [result_bind, h] at hok
      rw [requests_bind_of_ok h, hd.of_ok h, (hf a).of_ok hok]
  · rw [result_bind]
    exact hd.noFault.bind fun a => (hf a).noFault

theorem lift_bind {result : Except Failure α} {f : α → Draft β} {expected : List Request}
    (h : NoFault result) (hf : ∀ a, result = .ok a → Steady answer (f a) expected) :
    Steady answer (liftM result >>= f) expected := by
  cases result with
  | error failure =>
    constructor
    · intro b hok
      cases hok
    · intro fault heq
      obtain rfl : failure = .fault fault := Except.error.inj heq
      exact h fault rfl
  | ok a => exact hf a rfl

theorem bind_silent {d : Draft α} {f : α → Draft β} {expected : List Request}
    (hd : Steady answer d expected) (hf : ∀ a, Steady answer (f a) []) :
    Steady answer (d >>= f) expected := by
  have h := hd.bind hf
  rwa [List.append_nil] at h

theorem bind_pure {d : Draft α} {expected : List Request} (hd : Steady answer d expected)
    (g : α → β) : Steady answer (do return g (← d)) expected :=
  hd.bind_silent fun a => pure (g a)

theorem mapM {f : α → Draft β} {expected : α → List Request}
    (h : ∀ a, Steady answer (f a) (expected a)) (xs : List α) :
    Steady answer (xs.mapM f) (xs.flatMap expected) := by
  induction xs with
  | nil => exact pure []
  | cons x xs ih =>
    rw [List.mapM_cons, List.flatMap_cons]
    exact (h x).bind fun y => ih.bind_pure (y :: ·)

theorem asks {d : Draft α} {expected : List Request} (h : Steady answer d expected) :
    Asks answer d expected :=
  ⟨h.of_ok, fun herror => absurd herror (h.noFault _)⟩

end Steady

/-- What comes first may meet a fault, since it asks for nothing. -/
theorem Asks.lift_bind {result : Except Failure α} {f : α → Draft β} {expected : List Request}
    (h : ∀ a, result = .ok a → Asks answer (f a) expected) :
    Asks answer (liftM result >>= f) expected := by
  cases result with
  | error failure =>
    refine ⟨fun hok => ?_, fun _ => rfl⟩
    cases hok
  | ok a => exact h a rfl

/-! ### Results -/

/-- What a draft comes to, if it does, has a property. -/
def Ensures (answer : Request → Hcl.Expression) (d : Draft α) (p : α → Prop) : Prop :=
  ∀ a, d.result answer = .ok a → p a

theorem Ensures.pure {p : α → Prop} {a : α} (h : p a) : Ensures answer (pure a) p := by
  intro b hb
  obtain rfl : a = b := Except.ok.inj hb
  exact h

theorem Ensures.bind {d : Draft α} {f : α → Draft β} {p : β → Prop}
    (h : ∀ a, d.result answer = .ok a → Ensures answer (f a) p) :
    Ensures answer (d >>= f) p := by
  intro b hb
  rw [result_bind] at hb
  cases hd : d.result answer with
  | error failure =>
    rw [hd] at hb
    cases hb
  | ok a =>
    rw [hd] at hb
    exact h a hd b hb

end Draft

/-- What the draft of a document ensures is true of the block that the document is converted to. -/
theorem Converter.of_run_convert {converter : Converter} {context : Context} {document : Members}
    {ledger after : Ledger} {block : Block} {p : Block → Prop}
    (h : (converter.convert context document).run ledger = (.ok block, after))
    (hdraft : (converter.draft context document).Ensures context.answer p) : p block := by
  unfold convert at h
  rw [Draft.run_write] at h
  exact hdraft block (congrArg Prod.fst h)

end HclExport
