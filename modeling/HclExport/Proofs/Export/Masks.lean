import HclExport.Proofs.Conversion.Masks
import HclExport.Proofs.Export.Inputs

/-!
# The masks of an export

What becomes of the masked values of a batch in its export: which of them are written, and which
become defaults.

## Main results

* `ExportResult.masked_default` — where a masked default comes from.
* `ExportResult.masks_written` — **which masks are written, and which are taken from outside.**
-/

namespace HclExport

namespace ExportResult

variable {settings : ExportSettings} {batch : Batch} {result : ExportResult}

/-- A masked default is the value of a variable that is not a secret. -/
theorem masked_default (h : runExport .standard settings batch = .ok result) {v : InputVariable}
    (hv : v ∈ result.ledger.inputs) {default : Json} (hdefault : v.default? = some default)
    (hmasked : isMasked default = true) :
    ∃ document ∈ batch.of .variable, document.get "value" = default ∧
      lower (document.text "dataType") ≠ "secret" := by
  obtain ⟨kind, document, hdocument, block, hresult, hv⟩ := exists_document_of_mem_inputs h hv
  have hlisted := hv
  rw [Kind.ensures_inputs _ _ _ _ block hresult] at hlisted
  cases kind with
  | «variable» =>
    have hvalue : document.get "value" = default :=
      get_value_of_masked_default hlisted hdefault hmasked
    refine ⟨document, hdocument, hvalue, ?_⟩
    intro hsecret
    -- for a secret the default would be empty
    obtain ⟨w, hinputs, -, -, -, hempty, -⟩ :=
      (ensures_maskedValue _ (hvalue ▸ hmasked) _ block hresult).secret hsecret
    rw [hinputs] at hv
    obtain rfl := List.mem_singleton.1 hv
    rw [hdefault] at hempty
    rw [Option.some.inj hempty] at hmasked
    cases hmasked
  | connectorInstance =>
    obtain ⟨_, _, hfrom⟩ := comesFrom_of_mem_connectorInputs hlisted
    exact absurd hmasked (hfrom.not_isMasked_default hdefault)
  | flow => cases hlisted
  | application => cases hlisted
  | flowPolicy => cases hlisted

/-- **Which masks are written, and which are taken from outside.** A block of an export is what a
document of the batch comes to. Of a connector instance, a property that is masked, or holds a
masked value, is taken from outside without a value; the masks inside of a list or an object, and
that of a type, are written as they are, and no others. The masked value of a variable is taken from
outside without a value if the variable is a secret; otherwise it is the default of an input that is
not sensitive, and it is written as it is, too, unless variables are asked for. No other default is
masked. -/
theorem masks_written (h : runExport .standard settings batch = .ok result) :
    (∀ output ∈ result.outputs, ∀ block ∈ output.blocks, ∃ document ∈ batch.of output.kind,
      (output.kind.converter.draft (result.intake.context settings) document).result
        (result.intake.context settings).answer = .ok block ∧
      (output.kind = .connectorInstance →
        ((document.inner "properties").map Prod.fst).Nodup →
          block.MasksProperties (result.intake.context settings) document) ∧
      (output.kind = .variable → isMasked (document.get "value") = true →
        block.MasksValue (result.intake.context settings) document)) ∧
    (∀ v ∈ result.declared, v ∈ result.ledger.inputs) ∧
    ∀ v ∈ result.ledger.inputs, ∀ default, v.default? = some default →
      isMasked default = true → ∃ document ∈ batch.of .variable,
        document.get "value" = default ∧ lower (document.text "dataType") ≠ "secret" := by
  refine ⟨?_, ?_, ?_⟩
  · intro output houtput block hblock
    obtain ⟨document, hdocument, hresult⟩ := exists_document h houtput hblock
    refine ⟨document, hdocument, hresult, ?_, ?_⟩
    · intro hkind hkeys
      rw [hkind] at hresult
      exact ensures_masks {} _ hkeys _ block hresult
    · intro hkind hmasked
      rw [hkind] at hresult
      exact ensures_maskedValue _ hmasked _ block hresult
  · intro v hv
    exact mem_of_mem_declared hv
  · intro v hv default hdefault hmasked
    exact masked_default h hv hdefault hmasked

/-- A variable that is not a secret, with a masked value, and a connector instance with a mask
inside of a property. -/
def exposedDocuments : Batch where
  documents :=
    [(.variable,
      [("id", .str "v"), ("name", .str "pin"), ("context", .str "flow"),
       ("dataType", .str "string"), ("value", .str "******")]),
     (.connectorInstance,
      [("id", .str "c"), ("name", .str "F"), ("connector", .obj [("id", .str "f")]),
       ("properties", .obj [("auth", .obj [("type", .str "object"),
         ("value", .obj [("clientSecret", .str "******")])])])])]

/-- One mask is written of the connector instance; that of the variable is a default. -/
theorem masks_written_exposedDocuments :
    ∃ result, runExport .standard .plain exposedDocuments = .ok result ∧
      (∃ output ∈ result.outputs, ∃ block ∈ output.blocks, ∃ context document written,
        block.hcl = connectorText context document block.name written ∧
        (Hcl.Value.object written).masks = [mask]) ∧
      ∃ v ∈ result.ledger.inputs, ∃ default, v.default? = some default ∧
        isMasked default = true ∧ ∃ document ∈ exposedDocuments.of .variable,
          document.get "value" = default ∧ lower (document.text "dataType") ≠ "secret" := by
  have h : (runExport .standard .plain exposedDocuments).toOption.any (fun result =>
      (result.outputs.any fun output =>
        output.kind == .connectorInstance && output.blocks.length == 1) &&
      result.ledger.inputs.any fun v => v.default?.any isMasked) = true := by
    decide +kernel
  obtain ⟨result, hresult, htest⟩ := exists_ok_of_any h
  obtain ⟨hblocks, hdefaults⟩ := Bool.and_eq_true_iff.1 htest
  obtain ⟨hwritten, -, horigin⟩ := masks_written hresult
  refine ⟨result, hresult, ?_, ?_⟩
  · obtain ⟨output, houtput, hone⟩ := List.any_eq_true.1 hblocks
    obtain ⟨hkind, hlength⟩ := Bool.and_eq_true_iff.1 hone
    obtain ⟨block, hblock⟩ := List.length_eq_one_iff.1 (eq_of_beq hlength)
    have hmem : block ∈ output.blocks := by
      rw [hblock]
      exact List.mem_singleton_self block
    obtain ⟨document, hdocument, -, hconnector, -⟩ := hwritten output houtput block hmem
    rw [eq_of_beq hkind] at hdocument
    obtain rfl := List.mem_singleton.1 hdocument
    obtain ⟨written, hhcl, -, hmasks⟩ := (hconnector (eq_of_beq hkind) (by decide)).written
    refine ⟨output, houtput, block, hmem, _, _, written, hhcl, hmasks.trans ?_⟩
    decide +kernel
  · obtain ⟨v, hv, hany⟩ := List.any_eq_true.1 hdefaults
    obtain ⟨default, hdefault, hmasked⟩ := (Option.any_eq_true _ _).1 hany
    exact ⟨v, hv, default, hdefault, hmasked, horigin v hv default hdefault hmasked⟩

/-- **Masks are written, and become defaults.** The mask of the variable is written, and it is the
default of an input that is not sensitive; so is the mask inside of the property written, and no
input is declared for it. -/
theorem texts_exposedDocuments :
    (runExport .standard .plain exposedDocuments).toOption.map (fun result =>
      (result.ledger.inputs.map InputVariable.attributes,
       result.outputs.flatMap fun output => output.blocks.map Block.hcl)) =
    some
      ([[("type", "string"), ("description", "\"Value for pin DaVinci variable\""),
         ("default", "\"******\"")]],
       ["resource \"pingone_davinci_variable\" \"pingcli__pin_flow\" \x7b\n" ++
        "  environment_id = var.pingone_environment_id\n\n" ++
        "  name      = \"pin\"\n  context   = \"flow\"\n  data_type = \"string\"\n" ++
        "  mutable   = false\n\n  value = \x7b\n    string = \"******\"\n  \x7d\n\x7d\n",
        "resource \"pingone_davinci_connector_instance\" \"pingcli__F\" \x7b\n" ++
        "  environment_id = var.pingone_environment_id\n\n  name = \"F\"\n\n" ++
        "  connector = \x7b\n    id = \"f\"\n  \x7d\n\n  properties = jsonencode(\x7b\n" ++
        "    \"auth\" = \x7b\n      \"type\" = \"object\",\n      \"value\" = \x7b\n" ++
        "        \"clientSecret\" = \"******\"\n      \x7d\n    \x7d\n  \x7d)\n\x7d\n"]) := by
  decide +kernel

end ExportResult

end HclExport
