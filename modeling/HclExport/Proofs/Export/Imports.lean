import HclExport.Proofs.Export.Headers
import HclExport.Proofs.Export.Inputs
import HclExport.Proofs.Export.Permutation

/-!
# The imports of an export

When imports are asked for, every block that is kept comes with those of its document: names tell
blocks apart, and types tell apart the imports of one block, so no two imports have one address.
Each is the address of a resource that its block declares, and all of them come out once, in the
order in which their types are created and by name.

## Main definitions

* `Block.importsOf` — the imports of a block that comes from a given document.

## Main results

* `address_inj` — an address determines type and name.
* `Intake.Registered.imported_eq` — the imports of a document that gives a block.
* `Intake.Registered.nodup_addresses` — no two imports have one address.
* `ExportResult.filter_imports` — the imports with the name of a block.
* `ExportResult.imports_match` — **the imports of an export match its resources.**
-/

namespace HclExport

open Hcl (resourceHeader)

/-! ### Addresses -/

theorem dot_not_mem_of_importable {type : String} (h : type ∈ importableTypes) :
    '.' ∉ type.toList := by
  have hall : ∀ type ∈ importableTypes, '.' ∉ type.toList := by
    decide
  exact hall type h

/-- Whatever the names are, the address of an import determines type and name. -/
theorem address_inj {type type' name name' : String} (htype : type ∈ importableTypes)
    (htype' : type' ∈ importableTypes) (h : address type name = address type' name') :
    type = type' ∧ name = name' := by
  have hl := congrArg String.toList h
  have hdot : ".".toList = ['.'] := by decide
  simp only [address, String.toList_append, hdot, List.append_assoc, List.singleton_append] at hl
  obtain ⟨hfront, hback⟩ := append_cons_inj (dot_not_mem_of_importable htype)
    (dot_not_mem_of_importable htype') hl
  exact ⟨String.toList_inj.1 hfront, String.toList_inj.1 hback⟩

/-! ### Imports of documents -/

/-- The imports of a document that gives a block. -/
theorem Intake.Registered.imported_eq {intake : Intake} (h : intake.Registered)
    {settings : ExportSettings} (hwrites : settings.writesImports = true) {entry : Entry}
    (hentry : entry ∈ intake.entries) {block : Block}
    (hblock : entry.block? (intake.context settings) = some block) :
    entry.imported (intake.context settings) = entry.ref.kind.importedTypes.map (fun type =>
      ⟨type, block.name, .str (importedId settings.environmentId entry.ref.kind
        (entry.document.text "applicationId") entry.ref.id)⟩) ∧
    (entry.ref.kind = .flowPolicy → entry.document.text "applicationId" ≠ "") := by
  obtain ⟨imports, houtcome⟩ := Entry.block?_eq_some_iff.1 hblock
  have himported : entry.imported (intake.context settings) = imports := by
    unfold Entry.imported Converter.imported
    unfold Entry.outcome at houtcome
    rw [houtcome]
  have himports := Converter.imports_of_outcome houtcome
  have hasked : (intake.context settings).writesImports = true := hwrites
  rw [if_pos hasked] at himports
  obtain ⟨id, owner, hid, howner, hgiven, rfl⟩ := Kind.imports_eq_ok himports
  obtain rfl : entry.ref.id = id := Except.ok.inj ((h.identified entry hentry).symm.trans hid)
  rw [himported]
  by_cases hkind : entry.ref.kind = .flowPolicy
  · -- the owner of a policy is the application that its document names
    have happlication : owner.getD "" = entry.document.text "applicationId" := by
      rw [hkind] at howner
      have hnamed : owningApplication (intake.context settings) entry.document = _ :=
        h.owningApplication_eq hentry hkind
      obtain rfl := Except.ok.inj (howner.symm.trans hnamed)
      split
      next hempty => exact hempty.symm
      next => rfl
    rw [happlication] at hgiven ⊢
    exact ⟨rfl, hgiven⟩
  · refine ⟨?_, fun hpolicy => absurd hpolicy hkind⟩
    unfold importedId
    simp only [if_neg hkind]
    rfl

/-- The imports of a document belong to its block. -/
theorem Intake.Registered.of_mem_imported {intake : Intake} (h : intake.Registered)
    {settings : ExportSettings} (hwrites : settings.writesImports = true) {entry : Entry}
    (hentry : entry ∈ intake.entries) {item : ImportBlock}
    (hitem : item ∈ entry.imported (intake.context settings)) :
    ∃ block, entry.block? (intake.context settings) = some block ∧ item.name = block.name ∧
      item.type ∈ entry.ref.kind.importedTypes := by
  obtain ⟨block, imports, houtcome, -⟩ := Entry.exists_of_mem_imported hitem
  have hblock := Entry.block?_eq_some_iff.2 ⟨imports, houtcome⟩
  rw [(h.imported_eq hwrites hentry hblock).1] at hitem
  obtain ⟨type, htype, rfl⟩ := List.mem_map.1 hitem
  exact ⟨block, hblock, rfl, htype⟩

/-- No two imports of documents that take part have one address. -/
theorem Intake.Registered.nodup_addresses {intake : Intake} (h : intake.Registered)
    {settings : ExportSettings} (hwrites : settings.writesImports = true) :
    ((intake.entries.flatMap (Entry.imported (intake.context settings))).map fun item =>
      address item.type item.name).Nodup := by
  have hentries : intake.entries.Nodup := h.nodup_refs.of_map Entry.ref
  rw [List.map_flatMap, List.nodup_flatMap]
  constructor
  · -- the imports of one document are told apart by their types
    intro entry hentry
    cases hblock : entry.block? (intake.context settings) with
    | none =>
      have hnone : entry.imported (intake.context settings) = [] := by
        rw [List.eq_nil_iff_forall_not_mem]
        intro item hitem
        obtain ⟨block, hsome, -⟩ := h.of_mem_imported hwrites hentry hitem
        rw [hblock] at hsome
        cases hsome
      rw [hnone]
      exact List.nodup_nil
    | some block =>
      rw [(h.imported_eq hwrites hentry hblock).1, List.map_map]
      apply entry.ref.kind.nodup_importedTypes.map_on
      intro type htype type' htype' heq
      exact (address_inj (Kind.mem_importableTypes htype) (Kind.mem_importableTypes htype') heq).1
  · -- and those of two documents by the names of their blocks
    apply hentries.imp_of_mem
    intro entry other hentry hother hne text htext htext'
    obtain ⟨item, hitem, rfl⟩ := List.mem_map.1 htext
    obtain ⟨found, hfound, heq⟩ := List.mem_map.1 htext'
    obtain ⟨block, hblock, hname, htype⟩ := h.of_mem_imported hwrites hentry hitem
    obtain ⟨other', hother', hname', htype'⟩ := h.of_mem_imported hwrites hother hfound
    have hsame := (address_inj (Kind.mem_importableTypes htype') (Kind.mem_importableTypes htype)
      heq).2
    apply hne
    apply h.entry_eq_of_name hentry hother hblock hother'
    rw [← hname, ← hname', hsame]

/-! ### Imports of an export -/

/-- The imports of a block that comes from a given document: one of each type, under the name of
the block and the id of the document. -/
def Block.importsOf (environmentId : Json) (document : Members) (block : Block) :
    List ImportBlock :=
  block.ref.kind.importedTypes.map fun type =>
    ⟨type, block.name, .str (importedId environmentId block.ref.kind
      (document.text "applicationId") block.ref.id)⟩

namespace ExportResult

variable {settings : ExportSettings} {batch : Batch} {result : ExportResult}

/-- The imports of an export are those of its documents. -/
theorem imports_perm (h : runExport .standard settings batch = .ok result) :
    result.ledger.imports.Perm
      (result.intake.entries.flatMap (Entry.imported (result.intake.context settings))) := by
  obtain ⟨-, rfl⟩ := runExport_standard.1 h
  exact batch.imports_perm settings

/-- The imports with the name of a block are the imports of its document. -/
theorem filter_imports (h : runExport .standard settings batch = .ok result)
    (hwrites : settings.writesImports = true) {entry : Entry}
    (hentry : entry ∈ result.intake.entries) {block : Block}
    (hblock : entry.block? (result.intake.context settings) = some block) :
    (result.ledger.imports.filter fun item => item.name = block.name).Perm
      (entry.imported (result.intake.context settings)) := by
  have hcomplete := (follows_of_runExport h).complete
  have hperm := imports_perm h
  have hall : (result.intake.entries.flatMap
      (Entry.imported (result.intake.context settings))).Nodup :=
    (hcomplete.nodup_addresses hwrites).of_map _
  have himported : (entry.imported (result.intake.context settings)).Nodup :=
    (List.nodup_flatMap.1 hall).1 entry hentry
  rw [List.perm_ext_iff_of_nodup ((hperm.nodup_iff.2 hall).filter _) himported]
  intro item
  rw [List.mem_filter, hperm.mem_iff, List.mem_flatMap, decide_eq_true_iff]
  constructor
  · rintro ⟨⟨other, hother, hitem⟩, hname⟩
    -- the name belongs to one document only
    obtain ⟨found, hfound, hfoundName, -⟩ := hcomplete.of_mem_imported hwrites hother hitem
    obtain rfl := hcomplete.entry_eq_of_name hentry hother hblock hfound (hname.symm.trans hfoundName)
    exact hitem
  · intro hitem
    obtain ⟨found, hfound, hname, -⟩ := hcomplete.of_mem_imported hwrites hentry hitem
    obtain rfl : block = found := Option.some.inj (hblock.symm.trans hfound)
    exact ⟨⟨entry, hentry, hitem⟩, hname⟩

/-- The import blocks are those of the export, each once, an empty line apart and in order. -/
theorem imports_eq (result : ExportResult) :
    result.imports = match (sortImports result.ledger.imports).map ImportBlock.render with
      | [] => ""
      | texts => "\n\n".intercalate texts ++ "\n" := by
  have hlength := (sortImports_perm result.ledger.imports).length_eq
  unfold imports renderImports
  cases hsorted : sortImports result.ledger.imports with
  | nil =>
    rw [hsorted, List.length_nil, eq_comm, List.length_eq_zero_iff] at hlength
    rw [hlength]
    rfl
  | cons first rest =>
    have hgiven : result.ledger.imports.isEmpty = false := by
      rw [List.isEmpty_eq_false_iff, ← List.length_pos_iff, ← hlength, hsorted]
      simp
    rw [hgiven]
    rfl

/-- **The imports of an export match its resources.** When imports are asked for, no two have one
address, and each is the address of a resource that a kept block declares. A block that is kept has
those of its document and no others: one for its resource, and for a flow another one for the
resource that switches it on, under one id, which is made of the environment, the application of a
policy, and the id of the resource. All imports come out once, in the order in which their types
are created, and those of a type by name. -/
theorem imports_match (h : runExport .standard settings batch = .ok result)
    (hwrites : settings.writesImports = true) :
    (result.ledger.imports.map fun item => address item.type item.name).Nodup ∧
    (∀ item ∈ result.ledger.imports, ∃ output ∈ result.outputs, ∃ block ∈ output.blocks,
      item.name = block.name ∧ resourceHeader item.type item.name ∈ block.headers ∧
      (resourceHeader item.type item.name).toList <:+: block.hcl.toList) ∧
    (∀ output ∈ result.outputs, ∀ block ∈ output.blocks,
      ∃ document ∈ batch.of output.kind, resourceId output.kind document = .ok block.ref.id ∧
        (output.kind = .flowPolicy → document.text "applicationId" ≠ "") ∧
        (result.ledger.imports.filter fun item => item.name = block.name).Perm
          (block.importsOf settings.environmentId document)) ∧
    (sortImports result.ledger.imports).Perm result.ledger.imports ∧
    ((sortImports result.ledger.imports).Pairwise fun a b =>
      importRank a.type < importRank b.type ∨
        importRank a.type = importRank b.type ∧ lower a.name ≤ lower b.name) ∧
    (result.imports = match (sortImports result.ledger.imports).map ImportBlock.render with
      | [] => ""
      | texts => "\n\n".intercalate texts ++ "\n") := by
  have hfollows := follows_of_runExport h
  have hcomplete := hfollows.complete
  have hperm := imports_perm h
  refine ⟨(hperm.map _).nodup_iff.2 (hcomplete.nodup_addresses hwrites), ?_, ?_,
    sortImports_perm _, ?_, result.imports_eq⟩
  · intro item hitem
    obtain ⟨entry, hentry, himported⟩ := List.mem_flatMap.1 (hperm.mem_iff.1 hitem)
    obtain ⟨block, hblock, hname, htype⟩ := hcomplete.of_mem_imported hwrites hentry himported
    obtain ⟨output, houtput, hmem⟩ := hfollows.mem_blocks_iff.2 ⟨entry, hentry, hblock⟩
    have hwritten : item.type ∈ block.ref.kind.converter.types := by
      rw [(hcomplete.isFor_of_block? hentry hblock).ref_eq]
      exact entry.ref.kind.importedTypes_sublist.subset htype
    obtain ⟨imports, houtcome⟩ := Entry.block?_eq_some_iff.1 hblock
    obtain ⟨parts, hmade⟩ := Kind.ensures_isMadeOf _ _ _ _ block
      (Entry.result_of_outcome_ok houtcome)
    refine ⟨output, houtput, block, hmem, hname, ?_, ?_⟩
    · rw [hname]
      exact List.mem_map_of_mem hwritten
    · rw [hname]
      exact hmade.header_infix hwritten
  · intro output houtput block hblock
    obtain ⟨entry, hentry, hkind, hgiven⟩ := hfollows.exists_entry houtput hblock
    have href := (hcomplete.isFor_of_block? hentry hgiven).ref_eq
    obtain ⟨himported, happlication⟩ := hcomplete.imported_eq hwrites hentry hgiven
    have hfilter := filter_imports h hwrites hentry hgiven
    rw [himported, ← href] at hfilter
    refine ⟨entry.document, ?_, ?_, ?_, hfilter⟩
    · rw [← hkind]
      exact document_mem h hentry
    · rw [href, ← hkind]
      exact hcomplete.identified entry hentry
    · rw [← hkind]
      exact happlication
  · apply (sortImports_pairwise _).imp
    intro a b hab
    rw [ImportBlock.le_iff] at hab
    rcases hab.1 with hrank | ⟨hrank, htext⟩
    · exact Or.inl hrank
    · exact Or.inr ⟨hrank, of_decide_eq_true htext⟩

/-- A flow, an application, and a policy of that application. -/
def ownedPolicy : Batch where
  documents :=
    [(.flow, flowWithNodes "f" "Login" [[("id", .str "n"), ("connectionId", .str "c")]]),
     (.application, [("id", .str "a"), ("name", .str "Portal")]),
     (.flowPolicy,
      [("id", .str "p"), ("name", .str "Default"), ("applicationId", .str "a"),
       ("flowDistributions", .arr [.obj [("id", .str "f")]])])]

theorem imports_match_ownedPolicy :
    ExportSettings.importing.writesImports = true ∧
    ∃ result, runExport .standard .importing ownedPolicy = .ok result ∧
      (result.ledger.imports.map fun item => address item.type item.name).Nodup ∧
      result.ledger.imports.map (fun item => (address item.type item.name, item.id.display)) =
        [("pingone_davinci_flow.pingcli__Login", "e/f"),
         ("pingone_davinci_flow_enable.pingcli__Login", "e/f"),
         ("pingone_davinci_application.pingcli__Portal", "e/a"),
         ("pingone_davinci_application_flow_policy.pingcli__Default", "e/a/p")] := by
  have h : (runExport .standard .importing ownedPolicy).toOption.any (fun result =>
      result.ledger.imports.map (fun item => (address item.type item.name, item.id.display)) ==
        [("pingone_davinci_flow.pingcli__Login", "e/f"),
         ("pingone_davinci_flow_enable.pingcli__Login", "e/f"),
         ("pingone_davinci_application.pingcli__Portal", "e/a"),
         ("pingone_davinci_application_flow_policy.pingcli__Default", "e/a/p")]) = true := by
    decide +kernel
  obtain ⟨result, hresult, hrows⟩ := exists_ok_of_any h
  exact ⟨rfl, result, hresult, (imports_match hresult rfl).1, eq_of_beq hrows⟩

end ExportResult

end HclExport
