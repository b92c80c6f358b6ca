import HclExport.Proofs.Conversion.ComposedBlock
import HclExport.Proofs.Export.Headers
import HclExport.Proofs.Export.Skipping

/-!
# Unfinished places are counted

The resources of an export are marked once for each reference that leads nowhere and once for each
variable without a value. Beyond that they are marked as often as the texts are that come from the
documents and from the settings, wherever these end up: in a quoted literal, in the name of an
input or in the remark on an unfinished place. So what is counted is the number of unfinished places
if and only if none of these texts holds a mark.

## Main definitions

* `ExportResult.Tells` — a text comes from a document whose block is kept, or from the settings.
* `ExportResult.placeholders` — the references of kept blocks that are written as placeholders.
* `ExportResult.lackingValue` — the variables whose blocks are kept without a value.
* `ExportResult.todos` — the unfinished places of an export.

## Main results

* `Context.accounts` — how references are written.
* `ExportResult.Follows.length_placeholders` — every placeholder is recorded.
* `ExportResult.composed_resources` — what the resources are put together of.
* `ExportResult.todos_counted` — **what is counted as unfinished.**
-/

namespace HclExport

/-! ### References -/

section References

variable {T : String → Prop} {context : Context}

/-- A reference is written as a placeholder. -/
def Context.WritesPlaceholder (context : Context) (request : Request) : Prop :=
  ∃ kind id cause, context.answer request = .ofText (placeholder kind id cause)

/-- What is recorded as missing are the references that are written as placeholders. -/
theorem Context.isSome_missing?_iff {request : Request} :
    (context.missing? request).isSome = true ↔ context.WritesPlaceholder request := by
  -- whatever is no placeholder has no comment
  have hplain : ∀ text : String, ¬ ∃ kind id cause,
      ({ text := text } : Hcl.Expression) = .ofText (placeholder kind id cause) := by
    rintro text ⟨kind, id, cause, h⟩
    rw [ofText_placeholder] at h
    have hcomment := congrArg (fun expression => expression.comment.toList) h
    simp [todoMark] at hcomment
  unfold WritesPlaceholder missing? answer
  split
  next => simp [hplain]
  next =>
    cases context.edge? request.source.ref request.field request.targetId with
    | none => simp [hplain]
    | some e =>
      dsimp only [Option.bind_some]
      unfold link
      cases context.graph.graph.find? e.target with
      | some target => simp [hplain]
      | none => exact iff_of_true rfl ⟨_, _, _, rfl⟩

instance (request : Request) : Decidable (context.WritesPlaceholder request) :=
  decidable_of_iff _ Context.isSome_missing?_iff

/-- How a reference is written is put together of its id if it is written as an id or leads nowhere,
and otherwise of none. -/
theorem Context.accounts (hwords : context.graph.graph.HasWords) : context.Accounts T := by
  intro request htold
  have hquote : Remarked T (Hcl.quote request.targetId)
      (Hcl.Expression.remark { text := Hcl.quote request.targetId }) [] :=
    .of_text (.quote htold)
  unfold answer todo? missing?
  split
  next => exact hquote
  next =>
    cases hedge : context.edge? request.source.ref request.field request.targetId with
    | none => exact hquote
    | some e =>
      have hid : e.target.id = request.targetId := by
        have hfound := List.find?_some hedge
        simp only [Bool.and_eq_true, decide_eq_true_eq] at hfound
        exact hfound.2
      dsimp only [Option.bind_some]
      unfold link
      cases hfind : context.graph.graph.find? e.target with
      | some target =>
        have hword : IsWord (attributeAddress e.target.kind.type target.name "id") :=
          isWord_attributeAddress (Kind.isWord_type _) (hwords target (Graph.mem_of_find? hfind))
            (by decide)
        exact .of_text (.word hword)
      | none =>
        set record := context.scope.missing request.source ⟨e.target, ""⟩ e.field e.location
        have hgiven : ∀ s ∈ (Todo.reference record).given, T s :=
          List.forall_mem_singleton.2 (hid ▸ htold)
        have hremark : (Hcl.Expression.ofText (placeholder e.target.kind e.target.id
            (context.scope.classify e.target).description)).remark =
              " " ++ (Todo.reference record).text := by
          rw [ofText_placeholder]
          exact if_neg (by simp [String.append_eq_empty_iff, todoMark])
        dsimp only
        rw [hremark, ofText_placeholder]
        intro separator hseparator
        have hfront : Composed T ("\"\"" ++ separator ++ " ") [] :=
          .plain (by simp [hseparator])
        have hall := hfront.front (Composed.todo hgiven)
        show Composed T _ [.reference record]
        simpa only [String.append_assoc] using hall

end References

/-! ### Lists -/

theorem flatMap_filter_of_nil {α β : Type} {p : α → Bool} {f : α → List β} {xs : List α}
    (h : ∀ x ∈ xs, p x = false → f x = []) : (xs.filter p).flatMap f = xs.flatMap f := by
  induction xs with
  | nil => rfl
  | cons x rest ih =>
    obtain ⟨hx, hrest⟩ := List.forall_mem_cons.1 h
    rw [List.filter_cons, List.flatMap_cons]
    cases hp : p x with
    | true => rw [if_pos rfl, List.flatMap_cons, ih hrest]
    | false => rw [if_neg Bool.false_ne_true, ih hrest, hx hp, List.nil_append]

theorem flatMap_ite_singleton {α β : Type} (p : α → Prop) [DecidablePred p] (f : α → β)
    (xs : List α) :
    (xs.flatMap fun x => if p x then [f x] else []) = (xs.filter fun x => p x).map f := by
  induction xs with
  | nil => rfl
  | cons x rest ih =>
    rw [List.flatMap_cons, ih, List.filter_cons]
    by_cases h : p x
    · simp [h]
    · simp [h]

namespace ExportResult

/-! ### The unfinished places of an export -/

/-- A text comes from a document whose block is kept, or is told by the environment. -/
def Tells (result : ExportResult) (s : String) : Prop :=
  result.settings.environmentId.Tells s ∨
    ∃ entry ∈ result.intake.entries, result.keeps entry.ref = true ∧
      (Json.obj entry.document).Tells s

/-- The references of kept blocks that are written as placeholders. -/
def placeholders (result : ExportResult) : List Request :=
  (result.intake.entries.filter fun entry => result.keeps entry.ref).flatMap fun entry =>
    (entry.requests (result.intake.context result.settings)).filter
      (result.intake.context result.settings).WritesPlaceholder

/-- A document whose block is kept without a value. -/
def LacksValue (result : ExportResult) (entry : Entry) : Prop :=
  ∃ block ∈ entry.block? (result.intake.context result.settings),
    block.LacksValue result.settings.usesVariables entry.document

instance (result : ExportResult) (entry : Entry) : Decidable (result.LacksValue entry) :=
  inferInstanceAs (Decidable (∃ block ∈ entry.block? (result.intake.context result.settings),
    block.LacksValue result.settings.usesVariables entry.document))

/-- The variables whose blocks are kept without a value. -/
def lackingValue (result : ExportResult) : List Entry :=
  result.intake.entries.filter fun entry => result.LacksValue entry

/-- The unfinished places of an export. -/
def todos (result : ExportResult) : List Todo :=
  result.ledger.missing.map .reference ++
    result.lackingValue.map fun entry => .value (entry.document.text "dataType")

variable {settings : ExportSettings} {batch : Batch} {result : ExportResult}

/-- The unfinished places that a document leaves. -/
def todosOf (result : ExportResult) (entry : Entry) : List Todo :=
  (entry.missing (result.intake.context result.settings)).map .reference ++
    if result.LacksValue entry then [.value (entry.document.text "dataType")] else []

namespace Follows

/-- A document without a block leaves nothing. -/
theorem missing_eq_nil (h : result.Follows settings) {entry : Entry}
    (hentry : entry ∈ result.intake.entries)
    (hnone : entry.block? (result.intake.context settings) = none) :
    entry.missing (result.intake.context settings) = [] := by
  rcases h.settles entry hentry with ⟨⟨block, imports⟩, houtcome⟩ | ⟨-, fault, hfault⟩
  · rw [Entry.block?_eq_some_iff.2 ⟨imports, houtcome⟩] at hnone
    cases hnone
  · by_cases hskip : settings.skipsReferences = true
    · exact List.filterMap_eq_nil_iff.2 fun request _ => if_pos hskip
    · exact h.complete.missing_of_fault (Bool.eq_false_iff.2 hskip) hentry hfault

/-- Every placeholder is recorded, and nothing else. -/
theorem length_placeholders (h : result.Follows settings) :
    result.placeholders.length = result.ledger.missing.length := by
  obtain rfl := h.settings_eq
  have hkept : ∀ entry ∈ result.intake.entries, result.keeps entry.ref = false →
      entry.missing (result.intake.context result.settings) = [] := by
    intro entry hentry hkeeps
    refine h.missing_eq_nil hentry (Option.not_isSome_iff_eq_none.1 fun hsome => ?_)
    rw [(h.keeps_iff hentry).2 hsome] at hkeeps
    cases hkeeps
  rw [h.missing_perm.length_eq, ← flatMap_filter_of_nil hkept, placeholders, List.length_flatMap,
    List.length_flatMap]
  refine congrArg List.sum (List.map_congr_left fun entry _ => ?_)
  -- a document has one record for each of its placeholders
  show _ = (List.filterMap _ (entry.requests _)).length
  rw [List.length_filterMap_eq_countP, List.countP_eq_length_filter]
  refine congrArg List.length (List.filter_congr fun request _ => ?_)
  rw [Bool.eq_iff_iff, decide_eq_true_eq, Context.isSome_missing?_iff]

/-- The unfinished places of an export are those that its documents leave. -/
theorem todos_perm (h : result.Follows settings) :
    (result.intake.entries.flatMap result.todosOf).Perm result.todos := by
  obtain rfl := h.settings_eq
  have hvalues : (result.intake.entries.flatMap fun entry =>
      if result.LacksValue entry then [Todo.value (entry.document.text "dataType")] else []) =
      result.lackingValue.map fun entry => .value (entry.document.text "dataType") :=
    flatMap_ite_singleton _ _ _
  have hmissing : (result.intake.entries.flatMap fun entry =>
      (entry.missing (result.intake.context result.settings)).map Todo.reference).Perm
      (result.ledger.missing.map .reference) := by
    rw [← List.map_flatMap]
    exact (h.missing_perm.map _).symm
  refine (List.flatMap_append_perm _ _ _).symm.trans ?_
  rw [hvalues]
  exact hmissing.append_right _

theorem told_document (h : result.Follows settings) {entry : Entry}
    (hentry : entry ∈ result.intake.entries) {block : Block}
    (hblock : entry.block? (result.intake.context settings) = some block) :
    Told result.Tells (.obj entry.document) := by
  have hkeeps : result.keeps entry.ref = true := by
    rw [h.keeps_iff hentry, hblock]
    rfl
  exact fun s hs => Or.inr ⟨entry, hentry, hkeeps, hs⟩

/-- The text of a block that is kept. -/
theorem composes_block (h : result.Follows settings) (hwords : result.intake.HasWords)
    {entry : Entry} (hentry : entry ∈ result.intake.entries)
    (hnames : entry.ref.kind = .flow → HasDistinctProperties entry.document) {block : Block}
    (hblock : entry.block? (result.intake.context settings) = some block) :
    block.Composes result.Tells (result.todosOf entry) := by
  have htold := h.told_document hentry hblock
  obtain rfl := h.settings_eq
  obtain ⟨imports, houtcome⟩ := Entry.block?_eq_some_iff.1 hblock
  have hgraph : (result.intake.context result.settings).graph.graph.HasWords := hwords
  have henvironment : Told result.Tells (result.intake.context result.settings).environmentId :=
    fun s hs => Or.inl hs
  have hcomposes := entry.ref.kind.leaves_draft (Context.accounts hgraph) henvironment hgraph htold
    (h.complete.knowsOwner hentry) hnames block (Entry.result_of_outcome_ok houtcome)
  have hmissing : ((entry.ref.kind.converter.draft (result.intake.context result.settings)
      entry.document).requests (result.intake.context result.settings).answer).filterMap
        (result.intake.context result.settings).todo? =
      (entry.missing (result.intake.context result.settings)).map .reference :=
    List.map_filterMap.symm
  have hlacks : block.LacksValue result.settings.usesVariables entry.document ↔
      result.LacksValue entry := by
    simp [ExportResult.LacksValue, hblock]
  have hvalue : block.valueTodos (result.intake.context result.settings).usesVariables
      entry.document =
      if result.LacksValue entry then [Todo.value (entry.document.text "dataType")] else [] :=
    if_congr hlacks rfl rfl
  rw [hmissing, hvalue] at hcomposes
  exact hcomposes

end Follows

/-- What the resources are put together of. -/
theorem composed_resources (hrun : runExport .standard settings batch = .ok result)
    (hnames : ∀ entry ∈ result.intake.entries, entry.ref.kind = .flow →
      HasDistinctProperties entry.document) :
    Composed result.Tells result.resources result.todos := by
  have h := follows_of_runExport hrun
  have hwords : result.intake.HasWords := Intake.hasWords_ofBatch (ofBatch_of_runExport hrun)
  have hrow : InRow (Block.Composes result.Tells) result.ordered result.todos := by
    refine InRow.perm_left (InRow.perm_right (InRow.filterMap ?_ ?_) h.todos_perm)
      (result.ordered_perm.trans h.blocks_perm)
    · exact fun entry hentry block hblock =>
        h.composes_block hwords hentry (hnames entry hentry) hblock
    · intro entry hentry hnone
      obtain rfl := h.settings_eq
      have hlacks : ¬ result.LacksValue entry := by
        simp [LacksValue, hnone]
      rw [todosOf, h.missing_eq_nil hentry hnone, if_neg hlacks]
      rfl
  rw [resources_eq hrun]
  have htexts : InRow (fun text => Composed result.Tells (text ++ "\n"))
      (result.ordered.map fun block => trimRight block.hcl) result.todos :=
    hrow.map fun _ _ hblock => hblock
  split
  next hnone =>
    rw [hnone] at htexts
    obtain ⟨each, hall, hflat⟩ := htexts
    cases hall
    exact Composed.empty.perm hflat
  next hsome => exact .paragraphs htexts hsome

/-- **What is counted as unfinished**: each placeholder in a block that is kept and each variable
that is kept without a value, once, and beyond that every mark in a text that the resources take
from the documents and from the settings. -/
theorem todos_counted (hrun : runExport .standard settings batch = .ok result)
    (hnames : ∀ entry ∈ result.intake.entries, entry.ref.kind = .flow →
      HasDistinctProperties entry.document) :
    (∃ parts : List Part, result.resources = String.join (parts.map Part.text) ∧
      (∀ part ∈ parts, part.Sound result.Tells) ∧
      (parts.filterMap Part.todo?).Perm result.todos ∧
      result.metrics.todos = result.placeholders.length + result.lackingValue.length +
        ((parts.flatMap Part.given).map countTodos).sum ∧
      (result.metrics.todos = result.placeholders.length + result.lackingValue.length ↔
        ∀ s ∈ parts.flatMap Part.given, countTodos s = 0)) ∧
    ((∀ s, result.Tells s → countTodos s = 0) →
      result.metrics.todos = result.placeholders.length + result.lackingValue.length) := by
  have h := follows_of_runExport hrun
  obtain ⟨parts, htext, hsound, htodos⟩ := composed_resources hrun hnames
  have hlength : result.todos.length =
      result.placeholders.length + result.lackingValue.length := by
    rw [todos, List.length_append, List.length_map, List.length_map, h.length_placeholders]
  have hcount : result.metrics.todos = result.placeholders.length + result.lackingValue.length +
      ((parts.flatMap Part.given).map countTodos).sum := by
    have hmarks := countTodos_parts hsound
    rw [← htext, htodos.length_eq, hlength] at hmarks
    exact hmarks
  have hexact : result.metrics.todos =
      result.placeholders.length + result.lackingValue.length ↔
        ∀ s ∈ parts.flatMap Part.given, countTodos s = 0 := by
    rw [hcount, Nat.add_eq_left, List.sum_eq_zero_iff, List.forall_mem_map]
  refine ⟨⟨parts, htext, hsound, htodos, hcount, hexact⟩, fun hclean => hexact.2 ?_⟩
  intro s hs
  obtain ⟨part, hpart, hgiven⟩ := List.mem_flatMap.1 hs
  exact hclean s ((hsound part hpart).of_mem_given hgiven)

/-- A flow with a mark in its name and a connector instance that is nowhere, and a variable without
a value. -/
def unfinished : Batch where
  documents :=
    [(.flow, flowWithNodes "f" "# TODO: rename" [[("id", .str "n"), ("connectionId", .str "c")]]),
     (.variable, [("id", .str "v"), ("name", .str "pin"), ("context", .str "flow"),
       ("dataType", .str "string")])]

/-- Two places are unfinished, and what is counted beyond them are the marks in other texts. -/
theorem todos_counted_unfinished : ∃ result, runExport .standard .plain unfinished = .ok result ∧
    (∀ entry ∈ result.intake.entries, entry.ref.kind = .flow →
      HasDistinctProperties entry.document) ∧
    result.placeholders.length = 1 ∧ result.lackingValue.length = 1 ∧
    ∃ parts : List Part, result.resources = String.join (parts.map Part.text) ∧
      (∀ part ∈ parts, part.Sound result.Tells) ∧
      (parts.filterMap Part.todo?).Perm result.todos ∧
      result.metrics.todos = 2 + ((parts.flatMap Part.given).map countTodos).sum := by
  have h : (runExport .standard .plain unfinished).toOption.any (fun result =>
      result.intake.entries.all (fun entry =>
        decide (entry.ref.kind = .flow → HasDistinctProperties entry.document)) &&
      (result.placeholders.length == 1 && result.lackingValue.length == 1)) = true := by
    decide +kernel
  obtain ⟨result, hrun, htest⟩ := exists_ok_of_any h
  simp only [Bool.and_eq_true, List.all_eq_true, decide_eq_true_eq, beq_iff_eq] at htest
  obtain ⟨hnames, hplaceholders, hlacking⟩ := htest
  obtain ⟨⟨parts, htext, hsound, htodos, hcount, -⟩, -⟩ := todos_counted hrun hnames
  rw [hplaceholders, hlacking] at hcount
  exact ⟨result, hrun, hnames, hplaceholders, hlacking, parts, htext, hsound, htodos, hcount⟩

/-- An application with a mark in its name. -/
def markedApplication : Batch where
  documents := [(.application, [("id", .str "a"), ("name", .str "# TODO: x")])]

/-- A mark is counted although nothing is unfinished. -/
theorem todos_markedApplication : ∃ result,
    runExport .standard .plain markedApplication = .ok result ∧ result.placeholders = [] ∧
      result.lackingValue = [] ∧ result.metrics.todos = 1 := by
  have h : (runExport .standard .plain markedApplication).toOption.any (fun result =>
      result.placeholders.isEmpty && (result.lackingValue.isEmpty &&
        result.metrics.todos == 1)) = true := by
    decide +kernel
  obtain ⟨result, hrun, htest⟩ := exists_ok_of_any h
  simp only [Bool.and_eq_true, List.isEmpty_iff, beq_iff_eq] at htest
  exact ⟨result, hrun, htest.1, htest.2.1, htest.2.2⟩

end ExportResult

end HclExport
