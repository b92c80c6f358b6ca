import HclExport.Proofs.Export.Census
import HclExport.Proofs.Export.Lexical
import HclExport.Proofs.Hcl.Order
import HclExport.Proofs.Hcl.Outline

/-!
# What the resources declare

No two blocks of an export have one name, and every block declares its own. The blocks of a kind
come out in the order of their names, kind by kind. So as long as nothing ends a remark or a literal
too soon, the headers that can be read off the resources are those of the blocks, and no two are the
same.

## Main definitions

* `Block.headers` — the headers of the resources that a block is made of.
* `KindOutput.ordered`, `ExportResult.ordered` — blocks in the order in which they come out.
* `KindOutput.Lists` — the blocks of a kind come from documents, and come out in order.

## Main results

* `ExportResult.Follows.nodup_names` — no two blocks have one name.
* `ExportResult.lists_of_runExport` — the blocks of a kind.
* `ExportResult.resources_eq` — the resources, read off the blocks.
* `ExportResult.topHeaders_resources` — the headers of the resources.
* `ExportResult.names_and_headers` — **what the blocks are named, and what they declare.**
-/

namespace HclExport

open Hcl (Item resourceHeader topHeaders Outlines)

/-! ### Names of blocks -/

/-- Documents whose blocks have one name are the same. -/
theorem Intake.Registered.entry_eq_of_name {intake : Intake} (h : intake.Registered)
    {settings : ExportSettings} {entry other : Entry} (hentry : entry ∈ intake.entries)
    (hother : other ∈ intake.entries) {block found : Block}
    (hblock : entry.block? (intake.context settings) = some block)
    (hfound : other.block? (intake.context settings) = some found)
    (hname : block.name = found.name) : entry = other := by
  obtain ⟨r, hr, hrName⟩ := (h.isFor_of_block? hentry hblock).registered
  obtain ⟨s, hs, hsName⟩ := (h.isFor_of_block? hother hfound).registered
  -- a name is registered once, so it belongs to one resource
  have hsame : r = s := by
    refine List.inj_on_of_nodup_map h.wellFormed.names_nodup (Graph.mem_of_find? hr)
      (Graph.mem_of_find? hs) ?_
    rw [hrName, hsName, hname]
  refine h.entry_injective hentry hother ?_
  rw [← Graph.ref_of_find? hr, ← Graph.ref_of_find? hs, hsame]

namespace ExportResult.Follows

variable {settings : ExportSettings} {result : ExportResult}

/-- The blocks of a result are those that the documents give. -/
theorem blocks_perm (h : result.Follows settings) :
    (result.outputs.flatMap KindOutput.blocks).Perm
      (result.intake.entries.filterMap (Entry.block? (result.intake.context settings))) := by
  have hlisted := result.intake.flatMap_documents_perm fun kind document =>
    (kind.converter.block? (result.intake.context settings) document).toList
  have houtputs : result.outputs.flatMap KindOutput.blocks =
      Kind.all.flatMap fun kind => (result.intake.documents kind).flatMap fun document =>
        (kind.converter.block? (result.intake.context settings) document).toList := by
    rw [h.outputs, List.flatMap_map]
    refine List.flatMap_congr fun kind _ => ?_
    rw [Kind.blocks_output, List.filterMap_eq_flatMap_toList]
  rw [houtputs, List.filterMap_eq_flatMap_toList]
  exact hlisted

/-- A block comes from a document of its kind. -/
theorem exists_entry (h : result.Follows settings) {output : KindOutput}
    (houtput : output ∈ result.outputs) {block : Block} (hblock : block ∈ output.blocks) :
    ∃ entry ∈ result.intake.entries, entry.ref.kind = output.kind ∧
      entry.block? (result.intake.context settings) = some block := by
  rw [h.outputs] at houtput
  obtain ⟨kind, -, rfl⟩ := List.mem_map.1 houtput
  rw [Kind.blocks_output, Intake.filterMap_documents] at hblock
  obtain ⟨entry, hentry, hgiven⟩ := List.mem_filterMap.1 hblock
  obtain ⟨hmem, hkind⟩ := List.mem_filter.1 hentry
  rw [Kind.kind_output]
  exact ⟨entry, hmem, of_decide_eq_true hkind, hgiven⟩

theorem kinds (h : result.Follows settings) : result.outputs.map KindOutput.kind = Kind.all := by
  rw [h.outputs, List.map_map]
  exact (List.map_congr_left fun kind _ => Kind.kind_output _ _ kind).trans (List.map_id _)

/-- No two blocks have one name. -/
theorem nodup_names (h : result.Follows settings) :
    ((result.outputs.flatMap KindOutput.blocks).map Block.name).Nodup := by
  refine (h.blocks_perm.map Block.name).nodup_iff.2 ?_
  have hentries : result.intake.entries.Nodup := h.complete.nodup_refs.of_map Entry.ref
  rw [List.Nodup, List.pairwise_map, List.pairwise_filterMap]
  refine hentries.imp_of_mem ?_
  intro entry other hentry hother hne block hblock found hfound hname
  exact hne (h.complete.entry_eq_of_name hentry hother hblock hfound hname)

/-- A block is named by a name, which is the one that it declares and by which it is sorted. -/
theorem isName_of_mem (h : result.Follows settings)
    (hnames : ∀ r ∈ result.intake.graph.resources, IsName r.name) {output : KindOutput}
    (houtput : output ∈ result.outputs) {block : Block} (hblock : block ∈ output.blocks) :
    IsName block.name ∧ Hcl.declaredName? block.hcl = some block.name ∧
      Hcl.sortName block.hcl = lower block.name := by
  obtain ⟨entry, hentry, -, hgiven⟩ := h.exists_entry houtput hblock
  have hfor := h.complete.isFor_of_block? hentry hgiven
  obtain ⟨r, hr, hname⟩ := hfor.registered
  have hisName : IsName block.name := hname ▸ hnames r (Graph.mem_of_find? hr)
  have htype : entry.ref.kind.type ≠ "" := by
    cases entry.ref.kind <;> decide
  exact ⟨hisName,
    Hcl.declaredName?_of_header (Kind.isWord_type _) hisName.isWord htype hisName.ne_empty hfor.header,
    Hcl.sortName_of_header (Kind.isWord_type _) hisName.isWord htype hisName.ne_empty hfor.header⟩

end ExportResult.Follows

/-! ### Blocks in order -/

namespace KindOutput

/-- The blocks in the order of their names without regard to case. -/
def ordered (output : KindOutput) : List Block :=
  sortOn (fun block => lower block.name) output.blocks

/-- The blocks come from documents of the batch, as they stand there. All of them come out, an
empty line apart, in the order of their names without regard to case; where this does not tell
names apart, as they stood. -/
structure Lists (batch : Batch) (context : Context) (output : KindOutput) : Prop where
  documents : ∃ documents : List Members, documents.Sublist (batch.of output.kind) ∧
    output.blocks = documents.filterMap (output.kind.converter.block? context)
  perm : output.ordered.Perm output.blocks
  sorted : output.ordered.Pairwise fun a b => lower a.name ≤ lower b.name ∧
    (lower a.name = lower b.name → [a, b].Sublist output.blocks)
  hcl : output.hcl = "\n\n".intercalate (output.ordered.map fun block => trimRight block.hcl)

/-- Blocks that are sorted by their names come out in the order of these. -/
theorem hcl_eq_intercalate {output : KindOutput}
    (h : ∀ block ∈ output.blocks, Hcl.sortName block.hcl = lower block.name ∧
      trim block.hcl ≠ "") :
    output.hcl = "\n\n".intercalate (output.ordered.map fun block => trimRight block.hcl) := by
  have hgiven : (output.blocks.map Block.hcl).filter (fun text => trim text != "") =
      output.blocks.map Block.hcl := by
    refine List.filter_eq_self.2 (List.forall_mem_map.2 fun block hblock => ?_)
    simpa using (h block hblock).2
  have hsorted : sortOn (fun block => Hcl.sortName block.hcl) output.blocks = output.ordered :=
    sortOn_congr fun block hblock => (h block hblock).1
  unfold hcl Hcl.sortBlocks
  dsimp only
  rw [hgiven, sortOn_map, hsorted, List.map_map]
  rfl

end KindOutput

/-- The documents of a kind that take part stand in the batch in the same order. -/
theorem Batch.documents_sublist (settings : ExportSettings) (batch : Batch) (kind : Kind) :
    ((batch.intake settings).documents kind).Sublist (batch.of kind) := by
  rw [(batch.accounts_intake settings).documents kind]
  refine ((firstsBy_sublist Entry.ref _).map Entry.document).trans ?_
  have hchosen : ((batch.candidates settings.scope kind).map Entry.document).Sublist
      ((batch.of kind).filterMap some) := by
    unfold candidates
    rw [List.map_filterMap]
    refine filterMap_sublist_filterMap ?_ _
    intro document found hfound
    obtain ⟨entry, hentry, rfl⟩ := Option.map_eq_some_iff.1 hfound
    obtain ⟨label, hfate⟩ := Scope.candidate?_eq_some_iff.1 hentry
    rw [(Scope.fate_eq_candidate hfate).1]
  rwa [List.filterMap_some] at hchosen

namespace ExportResult

variable {settings : ExportSettings} {batch : Batch} {result : ExportResult}

theorem isName_of_runExport (h : runExport .standard settings batch = .ok result) :
    ∀ r ∈ result.intake.graph.resources, IsName r.name := by
  obtain ⟨-, rfl⟩ := runExport_standard.1 h
  exact Batch.isName_intake

/-- A document that takes part is one of the batch. -/
theorem document_mem (h : runExport .standard settings batch = .ok result) {entry : Entry}
    (hentry : entry ∈ result.intake.entries) : entry.document ∈ batch.of entry.ref.kind := by
  have hdocument := Intake.mem_documents hentry
  rw [congrArg ExportResult.intake (runExport_standard.1 h).2] at hdocument
  exact (batch.documents_sublist settings entry.ref.kind).subset hdocument

/-- The blocks of a kind come from documents, and come out in order. -/
theorem lists_of_runExport (hrun : runExport .standard settings batch = .ok result)
    {output : KindOutput} (houtput : output ∈ result.outputs) :
    output.Lists batch (result.intake.context settings) := by
  have h := follows_of_runExport hrun
  have hintake : result.intake = batch.intake settings :=
    congrArg ExportResult.intake (runExport_standard.1 hrun).2
  refine ⟨?_, sortOn_perm _ _, sortOn_stable _ _, KindOutput.hcl_eq_intercalate ?_⟩
  · rw [h.outputs] at houtput
    obtain ⟨kind, -, rfl⟩ := List.mem_map.1 houtput
    refine ⟨result.intake.documents kind, ?_, ?_⟩
    · rw [Kind.kind_output, hintake]
      exact batch.documents_sublist settings kind
    · rw [Kind.blocks_output, Kind.kind_output]
  · intro block hblock
    obtain ⟨entry, hentry, -, hgiven⟩ := h.exists_entry houtput hblock
    exact ⟨(h.isName_of_mem (isName_of_runExport hrun) houtput hblock).2.2,
      Hcl.trim_ne_empty_of_header (h.complete.isFor_of_block? hentry hgiven).header⟩

/-- The blocks of all kinds in the order in which they come out. -/
def ordered (result : ExportResult) : List Block :=
  result.outputs.flatMap KindOutput.ordered

theorem ordered_perm (result : ExportResult) :
    result.ordered.Perm (result.outputs.flatMap KindOutput.blocks) :=
  List.Perm.flatMap_left _ fun _ _ => sortOn_perm _ _

theorem mem_ordered {block : Block} :
    block ∈ result.ordered ↔ ∃ output ∈ result.outputs, block ∈ output.blocks := by
  rw [result.ordered_perm.mem_iff, List.mem_flatMap]

end ExportResult

/-- Texts of which each is put together from parts, put together in the same way. -/
theorem intercalate_flatMap {α : Type} (separator : String) {parts : α → List String}
    {xs : List α} (h : ∀ x ∈ xs, ∀ part ∈ parts x, part ≠ "") :
    let given := (xs.map fun x => separator.intercalate (parts x)).filter (· != "")
    (given = [] ↔ xs.flatMap parts = []) ∧
      separator.intercalate given = separator.intercalate (xs.flatMap parts) := by
  induction xs with
  | nil => exact ⟨Iff.rfl, rfl⟩
  | cons x rest ih =>
    obtain ⟨hx, hrest⟩ := List.forall_mem_cons.1 h
    obtain ⟨hempty, hsame⟩ := ih hrest
    cases hparts : parts x with
    | nil =>
      -- what has no parts is left out
      rw [List.map_cons, List.flatMap_cons, hparts, String.intercalate_nil,
        List.filter_cons_of_neg (by simp), List.nil_append]
      exact ⟨hempty, hsame⟩
    | cons first more =>
      have hne : separator.intercalate (first :: more) ≠ "" := by
        intro hnone
        have hprefix := Hcl.prefix_intercalate separator first more
        rw [hnone] at hprefix
        refine hx first (by rw [hparts]; exact List.mem_cons_self) (String.toList_inj.1 ?_)
        exact List.prefix_nil.1 hprefix
      rw [List.map_cons, List.flatMap_cons, hparts, List.filter_cons_of_pos (by simpa using hne)]
      refine ⟨by simp, ?_⟩
      by_cases hnil : rest.flatMap parts = []
      · rw [hempty.2 hnil, hnil, String.intercalate_singleton, List.append_nil]
      · rw [String.intercalate_cons_of_ne_nil (fun hnone => hnil (hempty.1 hnone)), hsame,
          String.intercalate_append_of_ne_nil (by simp) hnil]

namespace ExportResult

variable {settings : ExportSettings} {batch : Batch} {result : ExportResult}

/-- The resources are the blocks of all kinds, an empty line apart. -/
theorem resources_eq (hrun : runExport .standard settings batch = .ok result) :
    result.resources = match result.ordered.map fun block => trimRight block.hcl with
      | [] => ""
      | texts => "\n\n".intercalate texts ++ "\n" := by
  have h := follows_of_runExport hrun
  have htexts : result.outputs.map KindOutput.hcl = result.outputs.map fun output =>
      "\n\n".intercalate (output.ordered.map fun block => trimRight block.hcl) :=
    List.map_congr_left fun output houtput => (lists_of_runExport hrun houtput).hcl
  have hne : ∀ output ∈ result.outputs, ∀ text ∈ output.ordered.map fun block => trimRight block.hcl,
      text ≠ "" := by
    intro output houtput
    refine List.forall_mem_map.2 fun block hblock hnone => ?_
    obtain ⟨entry, hentry, -, hgiven⟩ := h.exists_entry houtput (mem_sortOn.1 hblock)
    have hheader :=
      Hcl.header_prefix_trimRight (h.complete.isFor_of_block? hentry hgiven).header
    rw [hnone] at hheader
    exact Hcl.resourceHeader_ne_empty _ _ (String.toList_inj.1 (List.prefix_nil.1 hheader))
  obtain ⟨hempty, hsame⟩ := intercalate_flatMap "\n\n" hne
  unfold resources
  rw [htexts, ordered, List.map_flatMap]
  split
  next hnone => rw [hempty.1 hnone]
  next given hsome =>
    rw [hsame]
    split
    next hnone => exact absurd (hempty.2 hnone) hsome
    next => rfl

end ExportResult

/-! ### Headers -/

theorem Kind.types_ne_nil (kind : Kind) : kind.converter.types ≠ [] := by
  cases kind <;> decide

theorem Kind.nodup_types (kind : Kind) : kind.converter.types.Nodup := by
  cases kind <;> decide

theorem Kind.ne_empty_of_mem_types {kind : Kind} {type : String}
    (h : type ∈ kind.converter.types) : type ≠ "" := by
  have hall : ∀ type ∈ kind.converter.types, type ≠ "" := by
    cases kind <;> decide
  exact hall type h

/-- The headers of the resources that a block is made of. -/
def Block.headers (block : Block) : List String :=
  block.ref.kind.converter.types.map fun type => resourceHeader type block.name

/-- A tidy block has the headers of the resources that it is made of. -/
theorem Block.IsTidy.outlines {block : Block} (h : block.IsTidy) (hname : IsWord block.name) :
    Outlines (trimRight block.hcl ++ "\n") block.headers := by
  obtain ⟨parts, hmade, htidy⟩ := h
  have hne : parts.map (fun part => (resourceHeader part.1 block.name, part.2)) ≠ [] := by
    intro hnil
    have htypes := hmade.types
    rw [List.map_eq_nil_iff.1 hnil] at htypes
    exact block.ref.kind.types_ne_nil htypes.symm
  have houtlines := Item.outlines_renderAll_blocks hne ?_
  · rw [Block.headers, hmade.hcl, ← hmade.types, List.map_map]
    rwa [List.map_map] at houtlines
  · refine List.forall_mem_map.2 fun part hpart => ?_
    have htype := List.mem_map_of_mem (f := Prod.fst) hpart
    rw [hmade.types] at htype
    exact ⟨Hcl.isHeader_resource (Kind.isWord_of_mem_types htype) hname, htidy part hpart⟩

/-- The header of a resource that some kind writes determines the type and the name in it. -/
theorem resourceHeader_inj {kind kind' : Kind} {type type' name name' : String}
    (htype : type ∈ kind.converter.types) (htype' : type' ∈ kind'.converter.types)
    (hname : IsName name) (hname' : IsName name')
    (h : resourceHeader type name = resourceHeader type' name') : type = type' ∧ name = name' := by
  have hread : Hcl.declaredName? (resourceHeader type name) = some name :=
    Hcl.declaredName?_of_header (Kind.isWord_of_mem_types htype) hname.isWord
      (Kind.ne_empty_of_mem_types htype) hname.ne_empty (List.prefix_refl _)
  have hread' : Hcl.declaredName? (resourceHeader type' name') = some name' :=
    Hcl.declaredName?_of_header (Kind.isWord_of_mem_types htype') hname'.isWord
      (Kind.ne_empty_of_mem_types htype') hname'.ne_empty (List.prefix_refl _)
  rw [h, hread'] at hread
  obtain rfl : name' = name := Option.some.inj hread
  refine ⟨?_, rfl⟩
  unfold resourceHeader at h
  simpa using h

/-- Blocks of different names have different headers. -/
theorem nodup_flatMap_headers {blocks : List Block} (hnames : (blocks.map Block.name).Nodup)
    (hisName : ∀ block ∈ blocks, IsName block.name) : (blocks.flatMap Block.headers).Nodup := by
  rw [List.Nodup, List.pairwise_map] at hnames
  refine List.nodup_flatMap.2 ⟨?_, hnames.imp_of_mem ?_⟩
  · intro block hblock
    refine block.ref.kind.nodup_types.map_on ?_
    intro type htype type' htype' heq
    exact (resourceHeader_inj htype htype' (hisName block hblock) (hisName block hblock) heq).1
  · intro block found hblock hfound hne header hheader hheader'
    obtain ⟨type, htype, rfl⟩ := List.mem_map.1 hheader
    obtain ⟨type', htype', heq⟩ := List.mem_map.1 hheader'
    exact hne (resourceHeader_inj htype' htype (hisName found hfound) (hisName block hblock) heq).2.symm

namespace ExportResult

variable {settings : ExportSettings} {batch : Batch} {result : ExportResult}

/-- The headers of the resources that all blocks are made of. -/
def headers (result : ExportResult) : List String :=
  result.ordered.flatMap Block.headers

/-- The headers of a clean export can be read off its resources. -/
theorem topHeaders_resources (hrun : runExport .standard settings batch = .ok result)
    (hclean : result.Clean) : topHeaders result.resources = result.headers := by
  have houtlines : ∀ block ∈ result.ordered,
      Outlines (trimRight block.hcl ++ "\n") block.headers := by
    intro block hblock
    obtain ⟨output, houtput, hmem⟩ := mem_ordered.1 hblock
    obtain ⟨htidy, hword⟩ := isTidy_of_mem hrun hclean houtput hmem
    exact htidy.outlines hword
  rw [resources_eq hrun, headers]
  generalize result.ordered = blocks at houtlines
  cases blocks with
  | nil => exact Hcl.outlines_empty.topHeaders_eq
  | cons first rest => exact (Hcl.outlines_intercalate houtlines).topHeaders_eq

/-- **What the blocks of an export are named, and what they declare.** No two blocks have one
name, and every block declares its own; the blocks of a kind come from documents of the batch and
come out in the order of their names. Their headers are all different, and as long as the export
is clean, they are the headers that can be read off the resources. -/
theorem names_and_headers (h : runExport .standard settings batch = .ok result) :
    ((result.outputs.flatMap KindOutput.blocks).map Block.name).Nodup ∧
    result.outputs.map KindOutput.kind = Kind.all ∧
    (∀ output ∈ result.outputs, output.Lists batch (result.intake.context settings) ∧
      ∀ block ∈ output.blocks, IsName block.name ∧
        Hcl.declaredName? block.hcl = some block.name) ∧
    result.headers.Nodup ∧
    (result.Clean → topHeaders result.resources = result.headers) := by
  have hfollows := follows_of_runExport h
  have hnamed : ∀ output ∈ result.outputs, ∀ block ∈ output.blocks,
      IsName block.name ∧ Hcl.declaredName? block.hcl = some block.name := by
    intro output houtput block hblock
    obtain ⟨hisName, hdeclared, -⟩ :=
      hfollows.isName_of_mem (isName_of_runExport h) houtput hblock
    exact ⟨hisName, hdeclared⟩
  refine ⟨hfollows.nodup_names, hfollows.kinds,
    fun output houtput => ⟨lists_of_runExport h houtput, hnamed output houtput⟩, ?_,
    topHeaders_resources h⟩
  refine nodup_flatMap_headers
    ((result.ordered_perm.map Block.name).nodup_iff.2 hfollows.nodup_names) fun block hblock => ?_
  obtain ⟨output, houtput, hmem⟩ := mem_ordered.1 hblock
  exact (hnamed output houtput block hmem).1

/-- Three connector instances, two of which have one name in small letters, and a flow. -/
def alikeConnectors : Batch where
  documents :=
    [(.connectorInstance, connector "c" "form"), (.connectorInstance, connector "d" "Form"),
     (.connectorInstance, connector "e" "Email"),
     (.flow, flowWithNodes "f" "Login" [[("id", .str "n"), ("connectionId", .str "c")]])]
where
  connector (id name : String) : Members :=
    [("id", .str id), ("name", .str name), ("connector", .obj [("id", .str "formConnector")])]

theorem names_and_headers_alikeConnectors :
    ∃ result, runExport .standard .plain alikeConnectors = .ok result ∧
      result.headers.Nodup ∧ topHeaders result.resources =
        [resourceHeader Kind.connectorInstance.type "pingcli__Email",
         resourceHeader Kind.connectorInstance.type "pingcli__form",
         resourceHeader Kind.connectorInstance.type "pingcli__Form",
         resourceHeader Kind.flow.type "pingcli__Login",
         resourceHeader flowEnableType "pingcli__Login",
         resourceHeader flowDeployType "pingcli__Login"] := by
  have h : (runExport .standard .plain alikeConnectors).toOption.any (fun result =>
      decide (result.Clean ∧ result.headers =
        [resourceHeader Kind.connectorInstance.type "pingcli__Email",
         resourceHeader Kind.connectorInstance.type "pingcli__form",
         resourceHeader Kind.connectorInstance.type "pingcli__Form",
         resourceHeader Kind.flow.type "pingcli__Login",
         resourceHeader flowEnableType "pingcli__Login",
         resourceHeader flowDeployType "pingcli__Login"])) = true := by
    decide +kernel
  obtain ⟨result, hresult, htest⟩ := exists_ok_of_any h
  obtain ⟨hclean, hheaders⟩ := of_decide_eq_true htest
  obtain ⟨-, -, -, hnodup, hread⟩ := names_and_headers hresult
  exact ⟨result, hresult, hnodup, (hread hclean).trans hheaders⟩

/-- A variable without a value, given its data type. -/
def valueless (dataType : String) : Batch where
  documents :=
    [(.variable,
      [("id", .str "v"), ("name", .str "pin"), ("context", .str "flow"),
       ("dataType", .str dataType)])]

/-- A data type that ends the remark in which it is written, and then the block, and goes on with
the same header. -/
def redeclaring : String :=
  "number\n\x7d\n\nresource \"pingone_davinci_variable\" \"pingcli__pin_flow\" \x7b\n#"

/-- A variable of such a data type is declared twice. -/
theorem topHeaders_resources_redeclaring :
    ∃ result, runExport .standard .plain (valueless redeclaring) = .ok result ∧
      topHeaders result.resources =
        [resourceHeader Kind.variable.type "pingcli__pin_flow",
         resourceHeader Kind.variable.type "pingcli__pin_flow"] ∧
      ¬(topHeaders result.resources).Nodup := by
  let header := resourceHeader Kind.variable.type "pingcli__pin_flow"
  let body : List Item :=
    [.assign "environment_id" "var.pingone_environment_id", .blank,
     .assignAll
       [("name", "\"pin\""), ("context", "\"flow\""), ("data_type", Hcl.quote redeclaring),
        ("mutable", "true")],
     .line "# NOTE: mutable overridden to true because no value is provided", .assignAll [], .blank,
     .line ("# TODO: Add " ++ redeclaring ++ " value"),
     .line "# Value omitted - will be set dynamically by flow execution"]
  have hblocks : (runExport .standard .plain (valueless redeclaring)).toOption.map
      (fun result => result.ordered.map Block.hcl) =
        some [Item.renderAll [.braced header body]] := by
    rfl
  obtain ⟨result, hrun, hordered⟩ := exists_ok_of_map hblocks
  have hheaders : topHeaders result.resources = [header, header] := by
    have htexts := congrArg (List.map trimRight) hordered
    rw [List.map_map] at htexts
    rw [resources_eq hrun]
    show topHeaders (match result.ordered.map (trimRight ∘ Block.hcl) with
      | [] => ""
      | texts => "\n\n".intercalate texts ++ "\n") = _
    rw [htexts]
    dsimp only [List.map]
    rw [String.intercalate_singleton, topHeaders, Item.toList_renderAll_braced]
    decide +kernel
  refine ⟨result, hrun, hheaders, ?_⟩
  rw [hheaders]
  exact List.not_nodup_pair header

end ExportResult

end HclExport
