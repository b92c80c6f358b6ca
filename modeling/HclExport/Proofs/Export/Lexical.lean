import HclExport.Proofs.Conversion.TidyBlock
import HclExport.Proofs.Export.Backing
import HclExport.Proofs.Export.Naming

/-!
# What is exported reads as well formed

Texts of documents are quoted or escaped wherever they are written, except at three places: the
remark on the data type of a variable without a value, the remark on a reference that leads
nowhere, and the name of the input that takes the place of a property. As long as nothing there
ends the line or the literal, every literal of the resources is closed on its line and every
bracket is closed in its turn.

## Main definitions

* `Intake.HasWords` — the resources that were taken in are named by words.
* `ExportResult.Clean` — nothing ends a remark or the literal around a name.

## Main results

* `Intake.hasWords_ofBatch` — resources are named by words.
* `Context.tidy_answer` — how a reference is written is tidy.
* `Kind.tidies_draft`, `ExportResult.isTidy_of_mem` — the block of a document is tidy.
* `ExportResult.neutral_hcl` — so it is neutral.
* `ExportResult.resources_wellFormed` — **the resources read as well formed.**
-/

namespace HclExport

open Hcl (Neutral)

/-! ### Names -/

namespace Intake

/-- The resources that were taken in are named by words. -/
def HasWords (intake : Intake) : Prop :=
  intake.graph.HasWords

/-- The resources of a batch are named by words. -/
theorem hasWords_ofBatch {settings : ExportSettings} {batch : Batch} {intake : Intake}
    (h : ofBatch .standard settings batch = .ok intake) : intake.HasWords := by
  obtain ⟨-, rfl⟩ := ofBatch_standard.1 h
  exact fun r hr => (Batch.isName_intake r hr).isWord

end Intake

/-! ### References -/

/-- The remark of a placeholder keeps to its line if the id does. -/
theorem tidy_placeholder (kind : Kind) {id : String} (hid : '\n' ∉ id.toList)
    (reason : MissingReason) :
    (Hcl.Expression.ofText (placeholder kind id reason.description)).Tidy := by
  have htype : '\n' ∉ kind.type.toList := by
    cases kind <;> decide
  have hcause : '\n' ∉ reason.description.toList := by
    cases reason <;> decide
  have hempty : Neutral "\"\"" := Hcl.neutral_quotedWord (s := "") (by decide)
  rw [ofText_placeholder]
  refine Hcl.Expression.tidy_of_comment hempty ?_ ?_
  · simp [todoMark]
  · simp [todoMark, hid, htype, hcause]

/-- How a reference is written is tidy, unless an id that leads nowhere ends the line. -/
theorem Context.tidy_answer {context : Context} (hwords : context.graph.graph.HasWords)
    {request : Request}
    (hmissing : ∀ record ∈ context.missing? request, '\n' ∉ record.target.ref.id.toList) :
    (context.answer request).Tidy := by
  unfold answer
  split
  · exact Hcl.Expression.tidy_of_neutral (Hcl.neutral_quote _)
  next hskip =>
    split
    · exact Hcl.Expression.tidy_of_neutral (Hcl.neutral_quote _)
    next e hedge =>
      unfold missing? at hmissing
      rw [if_neg hskip, hedge, Option.bind_some] at hmissing
      unfold link
      split
      next target hfind =>
        exact Hcl.Expression.tidy_of_neutral (Hcl.neutral_of_isWord (isWord_attributeAddress
          (Kind.isWord_type _) (hwords target (Graph.mem_of_find? hfind)) (by decide)))
      next hfind =>
        rw [hfind] at hmissing
        exact tidy_placeholder _ (hmissing _ rfl) _

/-! ### Blocks -/

/-- The block of a document is tidy, with the exceptions that its kind makes. -/
theorem Kind.tidies_draft (kind : Kind) {answer : Request → Hcl.Expression} {context : Context}
    (hwords : context.graph.graph.HasWords) (document : Members)
    (htype : kind = .variable → valueKey? (document.get "value") = none →
      '\n' ∉ (document.text "dataType").toList) :
    Draft.Tidies answer (kind.converter.draft context document) fun block =>
      block.Quotable context.usesVariables → block.IsTidy := by
  have hplain : ∀ {draft : Draft Block}, Draft.Tidies answer draft Block.IsTidy →
      Draft.Tidies answer draft fun block =>
        block.Quotable context.usesVariables → block.IsTidy :=
    fun h hasked block hblock _ => h hasked block hblock
  cases kind with
  | «variable» => exact hplain (tidies_draftVariable document hwords (htype rfl))
  | connectorInstance => exact tidies_draftConnectorInstance document _
  | flow => exact hplain (tidies_draftFlow document hwords)
  | application => exact hplain (tidies_draftApplication document)
  | flowPolicy => exact hplain (tidies_draftFlowPolicy document)

namespace ExportResult

/-- Nothing ends a remark before its line does, or the literal around the name of an input. -/
structure Clean (result : ExportResult) : Prop where
  missing : ∀ record ∈ result.ledger.missing, '\n' ∉ record.target.ref.id.toList
  dataTypes : ∀ entry ∈ result.intake.entries, entry.ref.kind = .variable →
    valueKey? (entry.document.get "value") = none →
      '\n' ∉ (entry.document.text "dataType").toList
  inputs : ∀ output ∈ result.outputs, ∀ block ∈ output.blocks,
    block.Quotable result.settings.usesVariables

instance (result : ExportResult) : Decidable result.Clean :=
  decidable_of_iff
    ((∀ record ∈ result.ledger.missing, '\n' ∉ record.target.ref.id.toList) ∧
      (∀ entry ∈ result.intake.entries, entry.ref.kind = .variable →
        valueKey? (entry.document.get "value") = none →
          '\n' ∉ (entry.document.text "dataType").toList) ∧
      ∀ output ∈ result.outputs, ∀ block ∈ output.blocks,
        block.Quotable result.settings.usesVariables)
    ⟨fun h => ⟨h.1, h.2.1, h.2.2⟩, fun h => ⟨h.missing, h.dataTypes, h.inputs⟩⟩

variable {settings : ExportSettings} {batch : Batch} {result : ExportResult}

theorem ofBatch_of_runExport {registry : ConverterRegistry}
    (h : runExport registry settings batch = .ok result) :
    Intake.ofBatch registry settings batch = .ok result.intake := by
  unfold runExport at h
  cases hintake : Intake.ofBatch registry settings batch with
  | error failure =>
    rw [hintake] at h
    cases h
  | ok intake =>
    rw [hintake] at h
    cases houtputs :
        (Emission.convertAll registry (intake.context settings) intake.documents {}).1 with
    | error failure =>
      simp only [bind, Except.bind, houtputs] at h
      cases h
    | ok outputs =>
      simp only [bind, Except.bind, houtputs] at h
      rw [← Except.ok.inj h]

/-- Every block is tidy, and has a word for its name. -/
theorem isTidy_of_mem (h : runExport .standard settings batch = .ok result) (hclean : result.Clean)
    {output : KindOutput} (houtput : output ∈ result.outputs) {block : Block}
    (hblock : block ∈ output.blocks) : block.IsTidy ∧ IsWord block.name := by
  have hfollows := follows_of_runExport h
  have hwords : (result.intake.context settings).graph.graph.HasWords :=
    Intake.hasWords_ofBatch (ofBatch_of_runExport h)
  obtain ⟨entry, hentry, hgiven⟩ := hfollows.mem_blocks_iff.1 ⟨output, houtput, hblock⟩
  obtain ⟨imports, houtcome⟩ := Entry.block?_eq_some_iff.1 hgiven
  obtain ⟨r, hr, hname⟩ := (hfollows.complete.isFor_of_block? hentry hgiven).registered
  refine ⟨?_, hname ▸ hwords r (Graph.mem_of_find? hr)⟩
  refine entry.ref.kind.tidies_draft hwords entry.document (hclean.dataTypes entry hentry) ?_ block
    (Entry.result_of_outcome_ok houtcome) ?_
  · intro request hrequest
    refine Context.tidy_answer hwords fun record hrecord => hclean.missing record ?_
    refine hfollows.missing_perm.mem_iff.2 (List.mem_flatMap.2 ⟨entry, hentry, ?_⟩)
    exact List.mem_filterMap.2 ⟨request, hrequest, hrecord⟩
  · have hinputs := hclean.inputs output houtput block hblock
    rw [hfollows.settings_eq] at hinputs
    exact hinputs

/-- Every block is neutral. -/
theorem neutral_hcl (h : runExport .standard settings batch = .ok result) (hclean : result.Clean)
    {output : KindOutput} (houtput : output ∈ result.outputs) {block : Block}
    (hblock : block ∈ output.blocks) : Neutral block.hcl := by
  obtain ⟨htidy, hword⟩ := isTidy_of_mem h hclean houtput hblock
  exact htidy.neutral hword

/-- **The resources read as well formed**, whatever names, ids, values and settings are, as long
as the export is clean: every literal is closed on its line, and every bracket in its turn. -/
theorem resources_wellFormed (h : runExport .standard settings batch = .ok result)
    (hclean : result.Clean) : Hcl.isWellFormed result.resources = true := by
  have hkinds : ∀ text ∈ (result.outputs.map KindOutput.hcl).filter (· != ""), Hcl.IsLine text := by
    intro text htext
    obtain ⟨output, houtput, rfl⟩ := List.mem_map.1 (List.mem_filter.1 htext).1
    exact Hcl.isLine_sortBlocks (List.forall_mem_map.2 fun block hblock =>
      neutral_hcl h hclean houtput hblock)
  unfold resources
  split
  · exact Hcl.neutral_empty.isWellFormed
  · exact Neutral.isWellFormed (Hcl.isLine_intercalate hkinds)

/-- A variable without a value, a masked property, and a reference that leads nowhere. -/
def remarked : Batch where
  documents :=
    [(.variable,
      [("id", .str "v"), ("name", .str "a \"b\" \x7b"), ("context", .str "flow\n"),
       ("dataType", .str "list[")]),
     (.connectorInstance,
      [("id", .str "c"), ("name", .str "Form"), ("connector", .obj [("id", .str "f")]),
       ("properties", .obj [("pass-word\\", .str mask)])]),
     (.flow, flowWithNodes "f" "Login" [[("id", .str "\n"), ("connectionId", .str "\"]")]])]

/-- Quotes, brackets and line feeds do no harm elsewhere, nor brackets in remarks. -/
theorem resources_wellFormed_remarked :
    ∃ result, runExport .standard .plain remarked = .ok result ∧
      result.Clean ∧ result.ledger.missing ≠ [] ∧
      Hcl.isWellFormed result.resources = true := by
  have h : (runExport .standard .plain remarked).toOption.any
      (fun result => decide (result.Clean ∧ result.ledger.missing ≠ [])) = true := by
    decide +kernel
  obtain ⟨result, hresult, htest⟩ := exists_ok_of_any h
  obtain ⟨hclean, hmissing⟩ := of_decide_eq_true htest
  exact ⟨result, hresult, hclean, hmissing, resources_wellFormed hresult hclean⟩

/-- A connector instance with a masked property. -/
def maskedProperty (property : String) : Batch where
  documents :=
    [(.connectorInstance,
      [("id", .str "c"), ("name", .str "F"), ("connector", .obj [("id", .str "f")]),
       ("properties", .obj [(property, .str mask)])])]

/-- A quote in the name of a property ends the literal around the input too soon. -/
theorem resources_illFormed_maskedProperty :
    ∃ result, runExport .standard .skipping (maskedProperty "\"") = .ok result ∧
      Hcl.isWellFormed result.resources = false := by
  have h : (runExport .standard .skipping (maskedProperty "\"")).toOption.any
      (fun result => !Hcl.isWellFormed result.resources) = true := by
    decide +kernel
  obtain ⟨result, hresult, htest⟩ := exists_ok_of_any h
  exact ⟨result, hresult, by simpa using htest⟩

end ExportResult

end HclExport
