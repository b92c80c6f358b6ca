import HclExport.Proofs.Export.Backing

/-!
# References name what is declared

A reference is written as soon as its target is registered, which is before anything is
converted. So the target is declared by a block of the same result, unless its own document
met a fault later on; and that is reported.

## Main results

* `Context.exists_resource_of_answer` — an address names a registered resource.
* `ExportResult.Follows.header_infix` — the header of a kept block stands in the result.
* `ExportResult.references_declared` — **which references name a declared resource.**
-/

namespace HclExport

/-- An address that is written for a request names a registered resource. -/
theorem Context.exists_resource_of_answer {context : Context} {request : Request} {kind : Kind}
    {name : String}
    (h : (context.answer request).text = attributeAddress kind.type name "id") :
    ∃ r ∈ context.graph.graph.resources, r.ref.kind = kind ∧ r.name = name := by
  unfold answer at h
  split at h
  · exact absurd h.symm (attributeAddress_ne_quote _ _ _ _)
  · split at h
    · exact absurd h.symm (attributeAddress_ne_quote _ _ _ _)
    next e _ =>
      rcases context.link_cases e with ⟨r, hr, href, hlink⟩ | ⟨-, cause, hlink⟩
      · rw [hlink] at h
        obtain ⟨hkind, hname⟩ := attributeAddress_inj h
        exact ⟨r, hr, by rw [href, hkind], hname⟩
      · rw [hlink, ofText_placeholder] at h
        -- the text of a placeholder is an empty literal, which is the quoted empty text
        exact absurd h.symm (attributeAddress_ne_quote kind name "id" "")

namespace ExportResult

variable {settings : ExportSettings}

/-- The header of a kept block stands in the result. -/
theorem header_infix {result : ExportResult} {output : KindOutput} {block : Block}
    {type name : String} (houtput : output ∈ result.outputs) (hblock : block ∈ output.blocks)
    (hheader : (Hcl.resourceHeader type name).toList <+: block.hcl.toList) :
    (Hcl.resourceHeader type name).toList <:+: result.resources.toList := by
  have hhcl : (Hcl.resourceHeader type name).toList <:+: output.hcl.toList :=
    Hcl.infix_sortBlocks (List.mem_map_of_mem hblock) hheader
  -- outputs without text are left out, but this one holds a header
  have hgiven : output.hcl ≠ "" := by
    intro hempty
    rw [hempty] at hhcl
    have hnone : Hcl.resourceHeader type name = "" :=
      String.toList_inj.1 (List.infix_nil.1 hhcl)
    exact Hcl.resourceHeader_ne_empty type name hnone
  have hfound : output.hcl ∈ (result.outputs.map KindOutput.hcl).filter (· != "") :=
    List.mem_filter.2 ⟨List.mem_map_of_mem houtput, by simpa using hgiven⟩
  unfold resources
  split
  next hnone =>
    rw [hnone] at hfound
    cases hfound
  next found _ =>
    rw [String.toList_append]
    have htexts := hhcl.trans (Hcl.infix_intercalate "\n\n" hfound)
    exact htexts.trans (List.prefix_append _ _).isInfix

/-- A document that met a fault is reported. -/
theorem Follows.mem_problems {result : ExportResult} (h : result.Follows settings)
    {entry : Entry} (hentry : entry ∈ result.intake.entries) {fault : Fault}
    (hfault : entry.outcome (result.intake.context settings) = .error (.fault fault)) :
    ⟨entry.ref.kind.type, Problem.resourceOf entry.document, fault.text⟩ ∈
      result.metrics.problems := by
  let output := Kind.output (result.intake.context settings) result.intake.documents entry.ref.kind
  have houtput : output ∈ result.outputs := by
    rw [h.outputs]
    exact List.mem_map_of_mem (Kind.mem_all _)
  have houtcome : entry.ref.kind.converter.outcome (result.intake.context settings)
      entry.document = .error (.fault fault) := hfault
  have hproblem : entry.ref.kind.converter.problem? (result.intake.context settings)
      entry.document = some ⟨entry.ref.kind.type, Problem.resourceOf entry.document, fault.text⟩ := by
    unfold Converter.problem?
    rw [houtcome, Kind.kind_converter]
  have hlisted : ⟨entry.ref.kind.type, Problem.resourceOf entry.document, fault.text⟩ ∈
      output.problems := by
    show _ ∈ (Kind.output _ _ _).problems
    rw [Kind.problems_output, List.mem_filterMap]
    exact ⟨entry.document, Intake.mem_documents hentry, hproblem⟩
  -- what the conversion reports follows what had no identity
  exact List.mem_append_right _ (List.mem_flatMap.2 ⟨output, houtput, hlisted⟩)

/-- A block that is kept is declared in the result under its registered name. -/
theorem Follows.declared_of_block? {result : ExportResult} (h : result.Follows settings)
    {entry : Entry} (hentry : entry ∈ result.intake.entries) {block : Block}
    (hblock : entry.block? (result.intake.context settings) = some block) {name : String}
    (hname : result.graph.graph.lookup entry.ref = .ok name) :
    ∃ output ∈ result.outputs, ∃ block ∈ output.blocks, block.ref = entry.ref ∧
      block.name = name ∧
      (Hcl.resourceHeader entry.ref.kind.type name).toList <:+: result.resources.toList := by
  have hfor := h.complete.isFor_of_block? hentry hblock
  obtain ⟨output, houtput, hmem⟩ := h.mem_blocks_iff.2 ⟨entry, hentry, hblock⟩
  have hsame : block.name = name := by
    have hblockName := Graph.lookup_eq_ok_iff.2 hfor.registered
    exact Except.ok.inj (hblockName.symm.trans hname)
  refine ⟨output, houtput, block, hmem, hfor.ref_eq, hsame, ?_⟩
  rw [← hsame]
  exact header_infix houtput hmem hfor.header

/-- **Which references name a declared resource.** Whatever reference is written in an export
names a registered resource; and a kept block of that kind and name is in the result, header
and all, unless the document of that resource was skipped, outside strict mode, and
reported. -/
theorem references_declared {batch : Batch} {result : ExportResult}
    (h : runExport .standard settings batch = .ok result) {request : Request} {kind : Kind}
    {name : String}
    (hreference : ((result.intake.context settings).answer request).text =
      attributeAddress kind.type name "id") :
    ∃ target ∈ result.intake.entries, target.ref.kind = kind ∧
      result.graph.graph.lookup target.ref = .ok name ∧
      ((∃ output ∈ result.outputs, ∃ block ∈ output.blocks, block.ref = target.ref ∧
          block.name = name ∧
          (Hcl.resourceHeader kind.type name).toList <:+: result.resources.toList) ∨
        settings.isStrict = false ∧ ∃ fault,
          target.outcome (result.intake.context settings) = .error (.fault fault) ∧
          ⟨kind.type, Problem.resourceOf target.document, fault.text⟩ ∈
            result.metrics.problems) := by
  have hfollows := follows_of_runExport h
  obtain ⟨r, hr, rfl, rfl⟩ := Context.exists_resource_of_answer hreference
  -- whatever is registered was taken in, and therefore converted or skipped
  have hmem : r.ref ∈ result.intake.entries.map Entry.ref := by
    rw [← hfollows.complete.refs]
    exact List.mem_map_of_mem hr
  obtain ⟨target, htarget, href⟩ := List.mem_map.1 hmem
  have hlookup : result.graph.graph.lookup target.ref = .ok r.name := by
    rw [Graph.lookup_eq_ok_iff, href]
    exact ⟨r, hfollows.complete.wellFormed.find?_ref hr, rfl⟩
  refine ⟨target, htarget, by rw [href], hlookup, ?_⟩
  rw [← href]
  rcases hfollows.settles target htarget with ⟨⟨block, imports⟩, houtcome⟩ | ⟨hstrict, fault, hfault⟩
  · exact Or.inl (hfollows.declared_of_block? htarget
      (Entry.block?_eq_some_iff.2 ⟨imports, houtcome⟩) hlookup)
  · exact Or.inr ⟨hstrict, fault, hfault, hfollows.mem_problems htarget hfault⟩

/-- In a strict export, a connector instance that is referred to is declared. -/
theorem references_declared_connectedFlow :
    ∃ result, runExport .standard { ExportSettings.plain with isStrict := true } connectedFlow =
        .ok result ∧
      (Hcl.resourceHeader Kind.connectorInstance.type "pingcli__Form").toList <:+:
        result.resources.toList := by
  have h : (runExport .standard { ExportSettings.plain with isStrict := true }
      connectedFlow).toOption.any (fun result =>
        ((result.intake.context { ExportSettings.plain with isStrict := true }).answer
            ⟨⟨⟨.flow, "f"⟩, "pingcli__Login"⟩, "connection_id", "c"⟩).text ==
          attributeAddress Kind.connectorInstance.type "pingcli__Form" "id") = true := by
    decide +kernel
  obtain ⟨result, hresult, htest⟩ := exists_ok_of_any h
  obtain ⟨target, -, -, -, hcase⟩ := references_declared hresult (eq_of_beq htest)
  rcases hcase with ⟨output, -, block, -, -, -, hheader⟩ | ⟨hstrict, -⟩
  · exact ⟨result, hresult, hheader⟩
  · cases hstrict

/-- A connector instance without a name, which cannot be converted, and a flow that uses it. -/
def namelessConnector : Batch where
  documents :=
    [(.connectorInstance, [("id", .str "c")]),
     (.flow, flowWithNodes "f" "Login" [[("id", .str "n"), ("connectionId", .str "c")]])]

/-- The address of the connector instance is written, but no block declares it. -/
theorem reference_to_skipped :
    ∃ result, runExport .standard .plain namelessConnector = .ok result ∧
      (∃ entry ∈ result.intake.entries, result.keeps entry.ref = true ∧
        ∃ request ∈ entry.requests (result.intake.context .plain),
          ((result.intake.context .plain).answer request).text =
            attributeAddress Kind.connectorInstance.type "pingcli__c" "id") ∧
      ∀ output ∈ result.outputs, ∀ block ∈ output.blocks,
        block.ref.kind ≠ .connectorInstance := by
  have h : (runExport .standard .plain namelessConnector).toOption.any (fun result =>
      (result.intake.entries.any fun entry => result.keeps entry.ref &&
        (entry.requests (result.intake.context .plain)).any fun request =>
          ((result.intake.context .plain).answer request).text ==
            attributeAddress Kind.connectorInstance.type "pingcli__c" "id") &&
      result.outputs.all fun output => output.blocks.all fun block =>
        block.ref.kind != .connectorInstance) = true := by
    decide +kernel
  obtain ⟨result, hresult, htest⟩ := exists_ok_of_any h
  refine ⟨result, hresult, ?_⟩
  simpa using htest

end ExportResult

end HclExport
