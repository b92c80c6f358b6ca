import HclExport.Proofs.Export.Outcome

/-!
# What the sealed graph holds

The references of the sealed graph are those found in the documents that take part, and nothing
else. A document with an unmet path gives none, whatever its other paths hold; it is noted
instead, once and with the first such path.

## Main definitions

* `Entry.unmetPath?`, `Entry.unmetRecord?` — the first unmet path of a document, and its record.

## Main results

* `Graph.parse_eq` — what is found in a document.
* `Intake.Complete.filter_unmetRecords` — what is noted of a document.
* `ExportResult.sealed_references` — **the references and the unmet paths of an export**.
-/

namespace HclExport

/-! ### Unmet paths -/

namespace Entry

/-- The first path of a document, in the order of the schema, that is required and holds no
text. -/
def unmetPath? (entry : Entry) : Option ReferencePath :=
  entry.ref.kind.schema.find? (ReferencePath.isUnmetIn (.obj entry.document))

/-- The record of the first unmet path of a document, if it has one. -/
def unmetRecord? (entry : Entry) : Option UnmetRecord :=
  entry.unmetPath?.map fun path => (UnmetPath.mk entry.ref path.path).record

theorem resource_of_unmetRecord? {entry : Entry} {record : UnmetRecord}
    (h : entry.unmetRecord? = some record) : record.resource = entry.ref.key := by
  obtain ⟨path, -, rfl⟩ := Option.map_eq_some_iff.1 h
  rfl

end Entry

namespace Graph

variable (g : Graph) (entry : Entry)

/-- What is found in a document: its first unmet path, or else one reference for every text at
each path. -/
theorem parse_eq : g.parse entry =
    match entry.unmetPath? with
    | some path => .error ⟨entry.ref, path.path⟩
    | none => .ok (entry.ref.kind.schema.flatMap fun path =>
        (extractTexts (.obj entry.document) path.path).map (path.edge (g.sourceOf entry.ref))) := by
  unfold parse parseReferences
  rw [parsePaths_eq, ref_sourceOf]
  unfold Entry.unmetPath?
  cases entry.ref.kind.schema.find? (ReferencePath.isUnmetIn (.obj entry.document)) with
  | some path => rfl
  | none => rfl

theorem edgesOf_eq : g.edgesOf entry = (g.parse entry).toOption.getD [] := by
  unfold edgesOf
  cases g.parse entry with
  | error unmet => rfl
  | ok edges => rfl

theorem unmet?_eq :
    g.unmet? entry = entry.unmetPath?.map fun path => UnmetPath.mk entry.ref path.path := by
  rw [unmet?, parse_eq]
  cases entry.unmetPath? with
  | some path => rfl
  | none => rfl

variable {g entry}

theorem unmetPath?_of_parse_ok {edges : List Edge} (h : g.parse entry = .ok edges) :
    entry.unmetPath? = none := by
  rw [parse_eq] at h
  split at h
  next => cases h
  next hpath => exact hpath

theorem unmetPath?_of_parse_error {unmet : UnmetPath} (h : g.parse entry = .error unmet) :
    ∃ path, entry.unmetPath? = some path ∧ unmet = ⟨entry.ref, path.path⟩ := by
  rw [parse_eq] at h
  split at h
  next path hpath => exact ⟨path, hpath, (Except.error.inj h).symm⟩
  next => cases h

end Graph

namespace Intake.Complete

variable {settings : ExportSettings} {intake : Intake}

theorem map_unmetPaths (h : intake.Complete settings) :
    intake.unmetPaths.map UnmetPath.record = intake.entries.filterMap Entry.unmetRecord? := by
  rw [h.unmetPaths, List.map_filterMap]
  refine List.filterMap_congr ?_
  intro entry _
  rw [Graph.unmet?_eq, Option.map_map]
  rfl

/-- What is noted of a document is the record of its first unmet path, and nothing if it has
none. -/
theorem filter_unmetRecords (h : intake.Complete settings) {entry : Entry}
    (hentry : entry ∈ intake.entries) :
    ((intake.entries.filterMap Entry.unmetRecord?).filter fun record =>
      record.resource = entry.ref.key) = entry.unmetRecord?.toList := by
  have hkeys : (intake.entries.map fun other => other.ref.key).Nodup := by
    have hrefs := h.nodup_refs.map fun _ _ => Ref.key_injective
    rwa [List.map_map] at hrefs
  -- a record is under the key of its document, so the choice can be made among documents
  have hchoice : ((intake.entries.filterMap Entry.unmetRecord?).filter fun record =>
      record.resource = entry.ref.key) =
      (intake.entries.filter fun other => other.ref.key = entry.ref.key).filterMap
        Entry.unmetRecord? := by
    rw [List.filter_filterMap, List.filterMap_filter]
    refine List.filterMap_congr ?_
    intro other _
    cases hrecord : other.unmetRecord? with
    | none => simp
    | some record => simp [Option.filter, Entry.resource_of_unmetRecord? hrecord]
  rw [hchoice, filter_key_eq_singleton hkeys hentry]
  cases hrecord : entry.unmetRecord? with
  | none => simp [hrecord]
  | some record => simp [hrecord]

/-- A document with an unmet path has no reference in the graph. -/
theorem source_ne_of_parse_error (h : intake.Complete settings) {entry : Entry}
    (hentry : entry ∈ intake.entries) {unmet : UnmetPath}
    (hunmet : intake.graph.parse entry = .error unmet) :
    ∀ e ∈ intake.graph.edges, e.source.ref ≠ entry.ref := by
  intro e he hsource
  have hnone : intake.graph.edgesOf entry = [] := by
    rw [Graph.edgesOf_eq, hunmet]
    rfl
  have hmem := h.mem_edgesOf hentry he hsource
  rw [hnone] at hmem
  cases hmem

end Intake.Complete

namespace ExportResult

/-- **The sealed graph holds what was found in the documents.** Its resources are the documents
that take part, kind by kind and each kind in the order of the batch; its references are those
that are found in them, document by document. What is noted as unmet is the first unmet path of
each document that has one; such a document has no other record and not one reference. -/
theorem sealed_references {settings : ExportSettings} {batch : Batch} {result : ExportResult}
    (h : runExport .standard settings batch = .ok result) :
    result.intake.entries = (Kind.all.flatMap fun kind =>
      firstsBy Entry.ref (batch.candidates settings.scope kind)) ∧
    result.graph.graph.resources.map Resource.ref = result.intake.entries.map Entry.ref ∧
    result.graph.graph.edges = (result.intake.entries.flatMap fun entry =>
      (result.graph.graph.parse entry).toOption.getD []) ∧
    result.metrics.unmetPaths = result.intake.entries.filterMap Entry.unmetRecord? ∧
    ∀ entry ∈ result.intake.entries,
      (∀ edges, result.graph.graph.parse entry = .ok edges →
        (result.metrics.unmetPaths.filter fun record => record.resource = entry.ref.key) = []) ∧
      ∀ unmet, result.graph.graph.parse entry = .error unmet →
        ∃ path, entry.unmetPath? = some path ∧ unmet = ⟨entry.ref, path.path⟩ ∧
          (result.metrics.unmetPaths.filter fun record => record.resource = entry.ref.key) =
            [⟨entry.ref.key, path.path, "no values found at path " ++ path.path⟩] ∧
          ∀ e ∈ result.graph.graph.edges, e.source.ref ≠ entry.ref := by
  have hcomplete := (follows_of_runExport h).complete
  have hunmet : result.metrics.unmetPaths = result.intake.entries.filterMap Entry.unmetRecord? :=
    hcomplete.map_unmetPaths
  refine ⟨?_, hcomplete.refs, ?_, hunmet, ?_⟩
  · obtain ⟨-, rfl⟩ := runExport_standard.1 h
    exact (batch.accounts_intake settings).entries_by_kind
  · refine hcomplete.edges.trans (List.flatMap_congr ?_)
    intro entry _
    exact Graph.edgesOf_eq _ _
  · intro entry hentry
    have hrecords := hcomplete.filter_unmetRecords hentry
    rw [← hunmet, Entry.unmetRecord?] at hrecords
    constructor
    · intro edges hedges
      rw [hrecords, Graph.unmetPath?_of_parse_ok hedges]
      rfl
    intro unmet herror
    obtain ⟨path, hpath, rfl⟩ := Graph.unmetPath?_of_parse_error herror
    refine ⟨path, hpath, rfl, ?_, hcomplete.source_ne_of_parse_error hentry herror⟩
    rw [hrecords, hpath]
    rfl

/-- A flow that uses a connector instance, and two policies for it, of which only the second names
its application. -/
def policiesOfOneFlow : Batch where
  documents := connectedFlow.documents ++
    [(.flowPolicy, policy "p" []), (.flowPolicy, policy "q" [("applicationId", .str "a")])]
where
  policy (id : String) (owner : Members) : Members :=
    [("id", .str id), ("name", .str id),
     ("flowDistributions", .arr [.obj [("id", .str "f")]])] ++ owner

/-- The first policy gives no reference, although it names the flow. -/
theorem sealed_references_policiesOfOneFlow : ∃ result,
    runExport .standard ExportSettings.plain.lenient policiesOfOneFlow = .ok result ∧
    result.graph.graph.edges.length = 3 ∧
    result.metrics.unmetPaths = result.intake.entries.filterMap Entry.unmetRecord? ∧
    ∃ entry ∈ result.intake.entries, ∃ path, entry.unmetPath? = some path ∧
      extractTexts (.obj entry.document) "flowDistributions[*].id" = ["f"] ∧
      (result.metrics.unmetPaths.filter fun record => record.resource = entry.ref.key) =
        [⟨entry.ref.key, path.path, "no values found at path " ++ path.path⟩] ∧
      ∀ e ∈ result.graph.graph.edges, e.source.ref ≠ entry.ref := by
  have h : (runExport .standard ExportSettings.plain.lenient policiesOfOneFlow).toOption.any
      (fun result => result.graph.graph.edges.length == 3 &&
        result.intake.entries.any fun entry =>
          (result.graph.graph.parse entry).toOption.isNone &&
            extractTexts (.obj entry.document) "flowDistributions[*].id" == ["f"]) = true := by
    decide +kernel
  obtain ⟨result, hresult, h⟩ := exists_ok_of_any h
  obtain ⟨hedges, h⟩ := Bool.and_eq_true_iff.1 h
  obtain ⟨entry, hentry, h⟩ := List.any_eq_true.1 h
  obtain ⟨herror, htexts⟩ := Bool.and_eq_true_iff.1 h
  obtain ⟨-, -, -, hunmet, hall⟩ := sealed_references hresult
  refine ⟨result, hresult, eq_of_beq hedges, hunmet, entry, hentry, ?_⟩
  cases hparse : result.graph.graph.parse entry with
  | ok edges =>
    rw [hparse] at herror
    cases herror
  | error unmet =>
    obtain ⟨path, hpath, -, hrecords, hnone⟩ := (hall entry hentry).2 unmet hparse
    exact ⟨path, hpath, eq_of_beq htexts, hrecords, hnone⟩

end ExportResult

end HclExport
