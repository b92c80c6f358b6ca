import HclExport.Proofs.Conversion.Agreement
import HclExport.Proofs.Conversion.Imports
import HclExport.Proofs.Export.Naming
import HclExport.Proofs.Export.Reference
import HclExport.Proofs.Hcl.Order

/-!
# The order of documents does not matter

Where no two documents of a kind have one id, and no two labels are the same without regard to
case, every document takes part and every resource is named by its label. So the graph answers
alike however the documents stand, every document comes to the same, and what is put out is
sorted by names that tell blocks apart.

## Main definitions

* `Batch.ids` — the ids of the documents of a kind.
* `Batch.Distinct` — no two documents have one identity, and no two have one label.
* `ExportResult.texts` — the texts that an export puts out.

## Main results

* `Batch.Distinct.agrees_of_perm` — the contexts in which permuted documents are converted.
* `Batch.Distinct.completes_of_perm`, `Batch.Distinct.texts_of_perm` — permuted documents come to
  an end alike, and to the same texts.
* `runExport_texts_of_perm` — **permuting documents changes nothing that is put out.**
-/

namespace HclExport

/-! ### Permuted lists -/

/-- What is found first does not depend on the order where only one element gives anything. -/
theorem findSome?_eq_of_perm {α β : Type} {f : α → Option β} {xs ys : List α} (h : xs.Perm ys)
    (hunique : ∀ x ∈ xs, ∀ y ∈ xs, (f x).isSome → (f y).isSome → x = y) :
    xs.findSome? f = ys.findSome? f := by
  cases hx : xs.findSome? f with
  | none =>
    rw [List.findSome?_eq_none_iff] at hx
    rw [eq_comm, List.findSome?_eq_none_iff]
    exact fun y hy => hx y (h.mem_iff.2 hy)
  | some b =>
    obtain ⟨x, hmem, hfx⟩ := List.exists_of_findSome?_eq_some hx
    cases hy : ys.findSome? f with
    | none =>
      have hnone := List.findSome?_eq_none_iff.1 hy x (h.mem_iff.1 hmem)
      rw [hfx] at hnone
      cases hnone
    | some c =>
      obtain ⟨y, hymem, hfy⟩ := List.exists_of_findSome?_eq_some hy
      obtain rfl := hunique x hmem y (h.mem_iff.2 hymem) (by simp [hfx]) (by simp [hfy])
      rw [← hfx, hfy]

/-- A well-formed graph finds the resource of an identity, wherever it stands. -/
theorem Graph.WellFormed.find?_eq_some_iff {g : Graph} (h : g.WellFormed) {ref : Ref} {r : Resource} :
    g.find? ref = some r ↔ r ∈ g.resources ∧ r.ref = ref := by
  constructor
  · exact fun hf => ⟨mem_of_find? hf, ref_of_find? hf⟩
  · rintro ⟨hr, rfl⟩
    exact h.find?_ref hr

theorem Graph.find?_eq_of_perm {g other : Graph} (hg : g.WellFormed) (hother : other.WellFormed)
    (h : g.resources.Perm other.resources) : g.find? = other.find? := by
  funext ref
  refine Option.ext fun r => ?_
  rw [hg.find?_eq_some_iff, hother.find?_eq_some_iff, h.mem_iff]

namespace Batch

variable {settings : ExportSettings} {batch other : Batch}

/-- The ids of the documents of a kind. -/
def ids (batch : Batch) (kind : Kind) : List String :=
  (batch.of kind).filterMap fun document => (resourceId kind document).toOption

/-- No two candidates have one identity, or one label without regard to case. -/
structure Distinct (scope : Scope) (batch : Batch) : Prop where
  refs : ((batch.allCandidates scope).map Entry.ref).Nodup
  labels : ((batch.allCandidates scope).map fun entry => lower entry.label).Nodup

theorem Distinct.perm {scope : Scope} (h : batch.Distinct scope)
    (hperm : (batch.allCandidates scope).Perm (other.allCandidates scope)) : other.Distinct scope :=
  ⟨(hperm.map _).nodup_iff.1 h.refs, (hperm.map _).nodup_iff.1 h.labels⟩

/-- Every candidate takes part. -/
theorem Distinct.entries_eq (h : batch.Distinct settings.scope) :
    (batch.intake settings).entries = batch.allCandidates settings.scope := by
  rw [(batch.accounts_intake settings).entries]
  exact firstsBy_of_nodup h.refs

/-- Every resource is named by the label of its document. -/
theorem Distinct.resources_eq (h : batch.Distinct settings.scope) :
    (batch.intake settings).graph.resources =
      (batch.intake settings).entries.map Entry.resource := by
  refine resources_intake ?_
  have hlabels : (((batch.allCandidates settings.scope).map Entry.label).map lower).Nodup := by
    rw [List.map_map]
    exact h.labels
  exact hlabels.of_map lower

/-- Documents that take part are told apart by their labels. -/
theorem Distinct.entry_eq (h : batch.Distinct settings.scope) {entry found : Entry}
    (hentry : entry ∈ (batch.intake settings).entries)
    (hfound : found ∈ (batch.intake settings).entries)
    (hlabel : lower entry.label = lower found.label) : entry = found := by
  rw [h.entries_eq] at hentry hfound
  exact List.inj_on_of_nodup_map h.labels hentry hfound hlabel

/-! ### What the graph answers -/

theorem inOrder_perm (h : ∀ kind, (batch.of kind).Perm (other.of kind)) :
    batch.inOrder.Perm other.inOrder :=
  List.Perm.flatMap_left _ fun kind _ => (h kind).map _

theorem Distinct.entries_perm (h : batch.Distinct settings.scope)
    (hperm : batch.inOrder.Perm other.inOrder) :
    (batch.intake settings).entries.Perm (other.intake settings).entries := by
  have hcandidates : (batch.allCandidates settings.scope).Perm (other.allCandidates settings.scope) :=
    hperm.filterMap _
  rw [h.entries_eq, (h.perm hcandidates).entries_eq]
  exact hcandidates

theorem Distinct.find?_of_perm (h : batch.Distinct settings.scope)
    (hperm : batch.inOrder.Perm other.inOrder) :
    (batch.intake settings).graph.find? = (other.intake settings).graph.find? := by
  refine Graph.find?_eq_of_perm (complete_intake settings batch).wellFormed
    (complete_intake settings other).wellFormed ?_
  rw [h.resources_eq, (h.perm (hperm.filterMap _)).resources_eq]
  exact (h.entries_perm hperm).map _

/-- The references of a document, and what is unmet in it, are the same. -/
theorem Distinct.parse_of_perm (h : batch.Distinct settings.scope)
    (hperm : batch.inOrder.Perm other.inOrder) :
    (batch.intake settings).graph.parse = (other.intake settings).graph.parse := by
  funext entry
  unfold Graph.parse Graph.sourceOf
  rw [h.find?_of_perm hperm]

/-- The contexts in which permuted documents are converted find the same. -/
theorem Distinct.agrees_of_perm (h : batch.Distinct settings.scope)
    (hperm : batch.inOrder.Perm other.inOrder) :
    (batch.context settings).Agrees (other.context settings) := by
  refine ⟨rfl, rfl, rfl, rfl, rfl, rfl, h.find?_of_perm hperm, ?_⟩
  funext source field targetId
  have hedges : (batch.intake settings).graph.edgesOf = (other.intake settings).graph.edgesOf := by
    funext entry
    unfold Graph.edgesOf
    rw [h.parse_of_perm hperm]
  show (batch.intake settings).graph.edges.find? _ = (other.intake settings).graph.edges.find? _
  rw [(complete_intake settings batch).edges, (complete_intake settings other).edges,
    List.find?_flatMap, List.find?_flatMap, ← hedges]
  refine findSome?_eq_of_perm (h.entries_perm hperm) ?_
  -- only the document of the source gives a reference that starts there
  have hsource : ∀ entry : Entry, ((List.find? (fun e : Edge => e.source.ref = source &&
      e.field = field && e.target.id = targetId)
      ((batch.intake settings).graph.edgesOf entry)).isSome) → entry.ref = source := by
    intro entry hsome
    obtain ⟨e, he⟩ := Option.isSome_iff_exists.1 hsome
    have hmatch := List.find?_some he
    simp only [Bool.and_eq_true, decide_eq_true_eq] at hmatch
    rw [← hmatch.1.1, Graph.source_of_mem_edgesOf (List.mem_of_find?_eq_some he),
      Graph.ref_sourceOf]
  intro x hx y hy hxsome hysome
  exact (complete_intake settings batch).entry_injective hx hy
    ((hsource x hxsome).trans (hsource y hysome).symm)

/-- Every policy that takes part has the same owner. -/
theorem Distinct.owner_of_perm (h : batch.Distinct settings.scope)
    (hperm : batch.inOrder.Perm other.inOrder) {entry : Entry}
    (hentry : entry ∈ (batch.intake settings).entries) (hkind : entry.ref.kind = .flowPolicy) :
    owningApplication (batch.context settings) entry.document =
      owningApplication (other.context settings) entry.document :=
  (complete_intake settings batch).owningApplication_congr
    (complete_intake settings other).toRegistered settings hentry
    ((h.entries_perm hperm).mem_iff.1 hentry) hkind

/-- Every document that takes part comes to the same. -/
theorem Distinct.outcome_of_perm (h : batch.Distinct settings.scope)
    (hperm : batch.inOrder.Perm other.inOrder) {entry : Entry}
    (hentry : entry ∈ (batch.intake settings).entries) :
    entry.outcome (batch.context settings) = entry.outcome (other.context settings) :=
  (h.agrees_of_perm hperm).outcome (h.owner_of_perm hperm hentry)

/-- Permuted documents come to an end alike. -/
theorem Distinct.completes_of_perm (h : batch.Distinct settings.scope)
    (hperm : batch.inOrder.Perm other.inOrder) (hcompletes : batch.Completes settings) :
    other.Completes settings := by
  have hentries := h.entries_perm hperm
  refine ⟨⟨?_, ?_⟩, ?_⟩
  · intro hstrict document hdocument
    exact hcompletes.identified hstrict document (hperm.mem_iff.2 hdocument)
  · intro entry hentry hunmet
    refine hcompletes.met entry (hentries.mem_iff.2 hentry) ?_
    unfold Graph.unmet? at hunmet ⊢
    rwa [h.parse_of_perm hperm]
  · intro entry hentry
    have hmem := hentries.mem_iff.2 hentry
    have hsettles := (h.agrees_of_perm hperm).settles_iff (h.owner_of_perm hperm hmem)
    exact hsettles.1 (hcompletes.settles entry hmem)

/-! ### Blocks -/

/-- The block of a document is sorted by the label of the document. -/
theorem Distinct.sortName_of_block? (h : batch.Distinct settings.scope) {entry : Entry}
    (hentry : entry ∈ (batch.intake settings).entries) {block : Block}
    (hblock : entry.block? (batch.context settings) = some block) :
    block.name = entry.label ∧ Hcl.sortName block.hcl = lower entry.label := by
  have hcomplete := complete_intake settings batch
  have hfor := hcomplete.isFor_of_block? hentry hblock
  -- the resource of the document is registered under its label
  have hresource : entry.resource ∈ (batch.intake settings).graph.resources := by
    rw [h.resources_eq]
    exact List.mem_map_of_mem hentry
  obtain ⟨r, hr, hname⟩ := hfor.registered
  have hfound : (batch.intake settings).graph.find? entry.ref = some entry.resource :=
    hcomplete.wellFormed.find?_ref hresource
  obtain rfl : entry.resource = r := Option.some.inj (hfound.symm.trans hr)
  have hisName : IsName block.name := by
    rw [← hname]
    exact isName_intake _ hresource
  refine ⟨hname.symm, ?_⟩
  rw [Hcl.sortName_of_header (Kind.isWord_type _) hisName.isWord (by cases entry.ref.kind <;> decide)
    hisName.ne_empty hfor.header, ← hname]
  rfl

theorem Distinct.blocks_perm (h : batch.Distinct settings.scope)
    (hperm : batch.inOrder.Perm other.inOrder) (kind : Kind) :
    (kind.output (batch.context settings) (batch.intake settings).documents).blocks.Perm
      (kind.output (other.context settings) (other.intake settings).documents).blocks := by
  rw [Kind.blocks_output, Kind.blocks_output, Intake.filterMap_documents, Intake.filterMap_documents]
  have hentries := (h.entries_perm hperm).filter fun entry => entry.ref.kind = kind
  refine (List.Perm.of_eq (List.filterMap_congr ?_)).trans (hentries.filterMap _)
  intro entry hentry
  have houtcome := h.outcome_of_perm hperm (List.mem_filter.1 hentry).1
  unfold Entry.block? Converter.block?
  unfold Entry.outcome at houtcome
  rw [houtcome]

/-- The blocks of each kind come out in one order. -/
theorem Distinct.hcl_of_perm (h : batch.Distinct settings.scope)
    (hperm : batch.inOrder.Perm other.inOrder) (kind : Kind) :
    (kind.output (batch.context settings) (batch.intake settings).documents).hcl =
      (kind.output (other.context settings) (other.intake settings).documents).hcl := by
  refine Hcl.sortBlocks_eq_of_perm ((h.blocks_perm hperm kind).map Block.hcl) ?_
  have hgiven : ∀ block ∈ (kind.output (batch.context settings) (batch.intake settings).documents).blocks,
      ∃ entry ∈ (batch.intake settings).entries,
        entry.block? (batch.context settings) = some block := by
    intro block hblock
    rw [Kind.blocks_output, Intake.filterMap_documents] at hblock
    obtain ⟨entry, hentry, hblock⟩ := List.mem_filterMap.1 hblock
    exact ⟨entry, (List.mem_filter.1 hentry).1, hblock⟩
  intro a ha b hb hsame
  obtain ⟨block, hblock, rfl⟩ := List.mem_map.1 ha
  obtain ⟨found, hfound, rfl⟩ := List.mem_map.1 hb
  obtain ⟨x, hx, hxblock⟩ := hgiven block hblock
  obtain ⟨y, hy, hyblock⟩ := hgiven found hfound
  rw [(h.sortName_of_block? hx hxblock).2, (h.sortName_of_block? hy hyblock).2] at hsame
  obtain rfl := h.entry_eq hx hy hsame
  rw [Option.some.inj (hxblock.symm.trans hyblock)]

end Batch

/-! ### What is put out -/

/-- An import of a document, and its block. -/
theorem Entry.exists_of_mem_imported {context : Context} {entry : Entry} {item : ImportBlock}
    (h : item ∈ entry.imported context) :
    ∃ block imports, entry.outcome context = .ok (block, imports) ∧ item ∈ imports := by
  unfold Entry.imported Converter.imported at h
  split at h
  next block imports houtcome => exact ⟨block, imports, houtcome, h⟩
  next => cases h

namespace Batch

variable {settings : ExportSettings} {batch other : Batch}

theorem Distinct.renderImports_of_perm (h : batch.Distinct settings.scope)
    (hperm : batch.inOrder.Perm other.inOrder) :
    renderImports (batch.result settings).ledger.imports =
      renderImports (other.result settings).ledger.imports := by
  have hentries := h.entries_perm hperm
  have himported : (batch.result settings).ledger.imports.Perm
      (other.result settings).ledger.imports := by
    refine (batch.imports_perm settings).trans (List.Perm.trans ?_ (other.imports_perm settings).symm)
    refine hentries.flatMap fun entry hentry => List.Perm.of_eq ?_
    have houtcome := h.outcome_of_perm hperm hentry
    unfold Entry.outcome at houtcome
    unfold Entry.imported Converter.imported
    rw [houtcome]
  refine renderImports_eq_of_perm himported ?_
  -- an import is told apart by the document it comes from and by its type
  have hgiven : ∀ item ∈ (batch.result settings).ledger.imports,
      ∃ entry ∈ (batch.intake settings).entries,
        item ∈ entry.imported (batch.context settings) ∧ item.name = entry.label := by
    intro item hitem
    obtain ⟨entry, hentry, hitem⟩ := List.mem_flatMap.1 ((batch.imports_perm settings).mem_iff.1 hitem)
    obtain ⟨block, imports, houtcome, hmem⟩ := Entry.exists_of_mem_imported hitem
    obtain ⟨id, hall⟩ := Kind.imports_of_outcome houtcome
    have hblock := Entry.block?_eq_some_iff.2 ⟨imports, houtcome⟩
    exact ⟨entry, hentry, hitem, (hall item hmem).2.1.trans (h.sortName_of_block? hentry hblock).1⟩
  intro a ha b hb hrank hname
  obtain ⟨entry, hentry, haImported, haName⟩ := hgiven a ha
  obtain ⟨found, hfound, hbImported, hbName⟩ := hgiven b hb
  rw [haName, hbName] at hname
  obtain rfl := h.entry_eq hentry hfound hname
  obtain ⟨block, imports, houtcome, haMem⟩ := Entry.exists_of_mem_imported haImported
  obtain ⟨_, _, houtcome', hbMem⟩ := Entry.exists_of_mem_imported hbImported
  obtain ⟨rfl, rfl⟩ := Prod.mk.inj (Except.ok.inj (houtcome.symm.trans houtcome'))
  obtain ⟨id, hall⟩ := Kind.imports_of_outcome houtcome
  obtain ⟨haType, -, haId⟩ := hall a haMem
  obtain ⟨-, -, hbId⟩ := hall b hbMem
  have htype : a.type = b.type := (List.idxOf_inj haType).1 hrank
  have hsame : a.name = b.name := haName.trans hbName.symm
  have hid : a.id = b.id := haId.trans hbId.symm
  cases a
  cases b
  simp_all

end Batch

namespace ExportResult

/-- The texts that an export puts out: the configuration, the resources, and the imports. -/
def texts (result : ExportResult) : String × String × String :=
  (result.hcl, result.resources, result.imports)

end ExportResult

namespace Batch

variable {settings : ExportSettings} {batch other : Batch}

/-- Permuted documents come to the same texts. -/
theorem Distinct.texts_of_perm (h : batch.Distinct settings.scope)
    (hperm : batch.inOrder.Perm other.inOrder) :
    (batch.result settings).texts = (other.result settings).texts := by
  have houtputs : (batch.result settings).outputs.map KindOutput.hcl =
      (other.result settings).outputs.map KindOutput.hcl := by
    simp only [result, List.map_map]
    refine List.map_congr_left ?_
    intro kind _
    rw [Function.comp_apply, Function.comp_apply, h.hcl_of_perm hperm kind]
  have hresources : (batch.result settings).resources = (other.result settings).resources := by
    unfold ExportResult.resources
    rw [houtputs]
  have hhcl : (batch.result settings).hcl = (other.result settings).hcl := by
    unfold ExportResult.hcl
    rw [hresources]
    rfl
  unfold ExportResult.texts
  rw [hhcl, hresources]
  exact congrArg _ (congrArg _ (h.renderImports_of_perm hperm))

/-- Where no two documents of a kind have one id, and no two registered documents one label
without regard to case, no two candidates have an identity or a label in common. -/
theorem distinct_of_ids (hids : ∀ kind, (batch.ids kind).Nodup)
    (hlabels : ((batch.intake settings).entries.map fun entry => lower entry.label).Nodup) :
    batch.Distinct settings.scope := by
  have hkind : ∀ kind, ((batch.candidates settings.scope kind).map Entry.ref).Nodup := by
    intro kind
    have hsublist : (((batch.candidates settings.scope kind).map Entry.ref).map Ref.id).Sublist
        (batch.ids kind) := by
      unfold candidates ids
      rw [List.map_map, List.map_filterMap]
      refine filterMap_sublist_filterMap ?_ _
      intro document id hcandidate
      obtain ⟨entry, hentry, rfl⟩ := Option.map_eq_some_iff.1 hcandidate
      obtain ⟨label, hfate⟩ := Scope.candidate?_eq_some_iff.1 hentry
      obtain ⟨rfl, hkind, -, -, hidentify⟩ := Scope.fate_eq_candidate hfate
      have hid := Intake.identify_eq_ok hidentify
      rw [hkind] at hid
      rw [hid]
      rfl
    exact ((hids kind).sublist hsublist).of_map Ref.id
  have hrefs : ((batch.allCandidates settings.scope).map Entry.ref).Nodup := by
    rw [allCandidates_eq, List.map_flatMap, List.nodup_flatMap]
    refine ⟨fun kind _ => hkind kind, Kind.nodup_all.imp ?_⟩
    intro kind kind' hne ref hmem hmem'
    obtain ⟨entry, hentry, rfl⟩ := List.mem_map.1 hmem
    obtain ⟨found, hfound, href⟩ := List.mem_map.1 hmem'
    refine hne ?_
    rw [← kind_of_mem_candidates hentry, ← kind_of_mem_candidates hfound, href]
  refine ⟨hrefs, ?_⟩
  rw [(batch.accounts_intake settings).entries] at hlabels
  have hfirsts := firstsBy_of_nodup hrefs
  unfold allCandidates at hfirsts ⊢
  rwa [hfirsts] at hlabels

end Batch

/-- **Permuting the documents of each kind changes nothing that is put out**, nor whether anything
is, where no two documents of a kind have one id and no two registered documents have one label
without regard to case. -/
theorem runExport_texts_of_perm {settings : ExportSettings} {batch other : Batch}
    (hids : ∀ kind, (batch.ids kind).Nodup)
    (hlabels : ((batch.intake settings).entries.map fun entry => lower entry.label).Nodup)
    (hperm : ∀ kind, (batch.of kind).Perm (other.of kind)) :
    (runExport .standard settings batch).toOption.map ExportResult.texts =
      (runExport .standard settings other).toOption.map ExportResult.texts := by
  have hdistinct := Batch.distinct_of_ids hids hlabels
  have horder := Batch.inOrder_perm hperm
  by_cases hcompletes : batch.Completes settings
  · have hother := hdistinct.completes_of_perm horder hcompletes
    rw [runExport_standard.2 ⟨hcompletes, rfl⟩, runExport_standard.2 ⟨hother, rfl⟩]
    exact congrArg some (hdistinct.texts_of_perm horder)
  · have hother : ¬other.Completes settings := by
      intro hother
      have hback := hdistinct.perm (horder.filterMap settings.scope.candidate?)
      exact hcompletes (hback.completes_of_perm horder.symm hother)
    have hnone : ∀ {b : Batch}, ¬b.Completes settings →
        (runExport .standard settings b).toOption = none := by
      intro b hb
      cases hrun : runExport .standard settings b with
      | error failure => rfl
      | ok result => exact absurd (runExport_standard.1 hrun).1 hb
    rw [hnone hcompletes, hnone hother]

/-- Two connector instances and two flows, each with its own connector. -/
def twoFlows : Batch where
  documents :=
    [(.connectorInstance, connector "c" "Form"), (.connectorInstance, connector "d" "Mail"),
     (.flow, flowWithNodes "f" "Login" [[("id", .str "n"), ("connectionId", .str "c")]]),
     (.flow, flowWithNodes "g" "Recover" [[("id", .str "n"), ("connectionId", .str "d")]])]
where
  connector (id name : String) : Members :=
    [("id", .str id), ("name", .str name), ("connector", .obj [("id", .str "formConnector")])]

/-- Settings that ask for import blocks. -/
def ExportSettings.importing : ExportSettings :=
  { ExportSettings.plain with
    environmentId := .str "e"
    writesImports := true
    environment_given := fun h => absurd h (by decide) }

theorem runExport_texts_of_perm_twoFlows :
    (∀ kind, (twoFlows.ids kind).Nodup) ∧
    ((twoFlows.intake .importing).entries.map fun entry => lower entry.label).Nodup ∧
    (∀ kind, (twoFlows.of kind).Perm ((⟨twoFlows.documents.reverse⟩ : Batch).of kind)) ∧
    (runExport .standard .importing twoFlows).toOption.isSome = true ∧
    (runExport .standard .importing twoFlows).toOption.map ExportResult.texts =
      (runExport .standard .importing ⟨twoFlows.documents.reverse⟩).toOption.map
        ExportResult.texts := by
  have hids : ∀ kind, (twoFlows.ids kind).Nodup := by
    intro kind
    cases kind <;> decide +kernel
  have hlabels : ((twoFlows.intake .importing).entries.map fun entry => lower entry.label).Nodup := by
    decide +kernel
  have hperm : ∀ kind, (twoFlows.of kind).Perm ((⟨twoFlows.documents.reverse⟩ : Batch).of kind) := by
    intro kind
    unfold Batch.of
    exact ((List.reverse_perm twoFlows.documents).symm.filter _).map _
  have hends : (runExport .standard .importing twoFlows).toOption.isSome = true := by
    decide +kernel
  exact ⟨hids, hlabels, hperm, hends, runExport_texts_of_perm hids hlabels hperm⟩

end HclExport
