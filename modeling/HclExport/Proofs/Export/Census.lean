import HclExport.Proofs.Export.Outcome
import Mathlib

/-!
# Every document is counted once

The documents that a batch is made of are those whose kind is not covered, those that are left
out or passed over, those that become a block, and those that are reported; and none is two of
these. The references of the sealed graph are counted in the same way, by where they start.

## Main definitions

* `Json.items` — the items of an array.

## Main results

* `Kind.sum_length_filter` — what is counted kind by kind.
* `Batch.length_documents_ofJson` — how many documents a value holds.
* `Intake.Accounts.documents` — which documents of a kind take part.
* `ExportResult.census` — what an export counts.
-/

namespace HclExport

/-! ### Counting by kind -/

/-- Whatever has a kind is counted once when it is counted kind by kind. -/
theorem Kind.sum_length_filter {α : Type} (key : α → Kind) (xs : List α) :
    (Kind.all.map fun kind => (xs.filter fun x => key x = kind).length).sum = xs.length := by
  have hperm := flatMap_filter_perm key xs Kind.nodup_all
  have hall : (xs.filter fun x => key x ∈ Kind.all) = xs := by
    simp [Kind.mem_all]
  rw [hall] at hperm
  rw [← hperm.length_eq, List.length_flatMap]

theorem KindCounts.total_eq_sum (counts : KindCounts) :
    counts.total = (Kind.all.map counts.countOf).sum := by
  simp [total, Kind.all, Nat.add_assoc]

namespace Batch

theorem sum_length_of (batch : Batch) :
    (Kind.all.map fun kind => (batch.of kind).length).sum = batch.documents.length := by
  have h := Kind.sum_length_filter Prod.fst batch.documents
  simpa [of] using h

theorem length_inOrder (batch : Batch) : batch.inOrder.length = batch.documents.length := by
  rw [← batch.sum_length_of, inOrder, List.length_flatMap]
  simp

/-! ### Documents of a value -/

end Batch

/-- The items of an array; any other value has none. -/
def Json.items (value : Json) : List Json :=
  value.items?.getD []

namespace Batch

theorem length_documentsNamed {name : String} {kind : Kind} {items : List Json}
    {found : List (Kind × Members)} (h : documentsNamed name kind items = .ok found) :
    found.length = items.length := by
  induction items generalizing found with
  | nil =>
    obtain rfl := Except.ok.inj h
    rfl
  | cons item rest ih =>
    cases item with
    | obj document =>
      unfold documentsNamed at h
      cases hrest : documentsNamed name kind rest with
      | error fault =>
        rw [hrest] at h
        cases h
      | ok others =>
        rw [hrest] at h
        obtain rfl := Except.ok.inj h
        rw [List.length_cons, List.length_cons, ih hrest]
    | _ => cases h

theorem length_ofEntry {entry : String × Json} {found : List (Kind × Members)}
    (h : ofEntry entry = .ok found) : found.length = entry.2.items.length := by
  obtain ⟨name, value⟩ := entry
  unfold ofEntry at h
  cases hkind : kindNamed name with
  | error fault =>
    rw [hkind] at h
    cases h
  | ok kind =>
    rw [hkind] at h
    cases value with
    | arr items => exact length_documentsNamed h
    | _ => cases h

theorem length_mapM_ofEntry {entries : Members} {found : List (List (Kind × Members))}
    (h : entries.mapM ofEntry = .ok found) :
    found.flatten.length = (entries.map fun entry => entry.2.items.length).sum := by
  induction entries generalizing found with
  | nil =>
    obtain rfl := Except.ok.inj h
    rfl
  | cons entry rest ih =>
    rw [List.mapM_cons] at h
    cases hfirst : ofEntry entry with
    | error fault =>
      rw [hfirst] at h
      cases h
    | ok documents =>
      cases hrest : rest.mapM ofEntry with
      | error fault =>
        rw [hfirst, hrest] at h
        cases h
      | ok others =>
        rw [hfirst, hrest] at h
        obtain rfl := Except.ok.inj h
        rw [List.flatten_cons, List.length_append, length_ofEntry hfirst, ih hrest,
          List.map_cons, List.sum_cons]

/-- A batch holds every document of every list in the value that it was read from. -/
theorem length_documents_ofJson {entries : Members} {batch : Batch}
    (h : ofJson (.obj entries) = .ok batch) :
    batch.documents.length = (entries.map fun entry => entry.2.items.length).sum := by
  unfold ofJson at h
  cases hfound : entries.mapM ofEntry with
  | error fault =>
    simp only [hfound] at h
    cases h
  | ok found =>
    simp only [hfound] at h
    obtain rfl := Except.ok.inj h
    exact length_mapM_ofEntry hfound

end Batch

/-! ### Documents that take part -/

/-- The documents of a kind that take part: the first document of each identity among the
candidates. -/
theorem Intake.Accounts.documents {scope : Scope} {batch : Batch} {intake : Intake}
    (h : intake.Accounts scope batch.inOrder) (kind : Kind) :
    intake.documents kind = (firstsBy Entry.ref (batch.candidates scope kind)).map Entry.document := by
  have hpart : ∀ other, ((firstsBy Entry.ref (batch.candidates scope other)).filter fun entry =>
      entry.ref.kind = kind) =
        if other = kind then firstsBy Entry.ref (batch.candidates scope kind) else [] := by
    intro other
    have hkind : ∀ entry ∈ firstsBy Entry.ref (batch.candidates scope other),
        entry.ref.kind = other :=
      fun entry hentry => Batch.kind_of_mem_candidates ((firstsBy_sublist _ _).subset hentry)
    by_cases hother : other = kind
    · rw [if_pos hother, ← hother, List.filter_eq_self]
      intro entry hentry
      simpa using hkind entry hentry
    · rw [if_neg hother, List.filter_eq_nil_iff]
      intro entry hentry
      rw [hkind entry hentry]
      simpa using hother
  unfold Intake.documents
  rw [h.entries_by_kind, List.filter_flatMap]
  simp only [hpart]
  cases kind <;> simp [Kind.all]

/-- Every fate is one of the four. -/
theorem Fate.length_eq (fates : List Fate) :
    fates.length = fates.countP isUncovered + fates.countP isExcluded +
      fates.countP (fun fate => fate.candidate?.isSome) +
      fates.countP fun fate => fate.fault?.isSome := by
  induction fates with
  | nil => rfl
  | cons fate rest ih =>
    rw [List.length_cons, List.countP_cons, List.countP_cons, List.countP_cons, List.countP_cons, ih]
    have hone : (if fate.isUncovered then 1 else 0) + (if fate.isExcluded then 1 else 0) +
        (if fate.candidate?.isSome then 1 else 0) + (if fate.fault?.isSome then 1 else 0) = 1 := by
      cases fate <;> rfl
    omega

/-- The documents that were seen are those that are counted, reported or taken in. -/
theorem Intake.Accounts.length_seen {scope : Scope} {seen : List (Kind × Members)} {intake : Intake}
    (h : intake.Accounts scope seen) :
    seen.length = intake.outOfScope + intake.excluded + intake.duplicates + intake.entries.length +
      intake.problems.length := by
  have hfates := Fate.length_eq (seen.map fun document => scope.fate document.1 document.2)
  simp only [List.length_map, List.countP_map, Function.comp_def] at hfates
  have hcandidates := h.duplicates
  have hproblems := congrArg List.length h.problems
  simp only [List.length_filterMap_eq_countP, Scope.candidate?, Scope.problem?,
    Option.isSome_map] at hcandidates hproblems
  rw [hfates, h.outOfScope, h.excluded, ← hcandidates, ← hproblems]
  omega

/-! ### Documents that are converted -/

/-- A document that settles gives a block or a report, and not both. -/
theorem Converter.length_of_settles {converter : Converter} {context : Context}
    {documents : List Members} (h : ∀ document ∈ documents, converter.Settles context document) :
    (documents.filterMap (converter.block? context)).length +
      (documents.filterMap (converter.problem? context)).length = documents.length := by
  induction documents with
  | nil => rfl
  | cons document rest ih =>
    have hrest := ih fun other hother => h other (List.mem_cons_of_mem _ hother)
    rw [List.filterMap_cons, List.filterMap_cons, List.length_cons, Converter.block?,
      Converter.problem?]
    rcases h document List.mem_cons_self with ⟨⟨block, imports⟩, houtcome⟩ | ⟨-, fault, houtcome⟩
    · simp only [houtcome, List.length_cons]
      omega
    · simp only [houtcome, List.length_cons]
      omega

namespace ExportResult

variable {settings : ExportSettings} {batch : Batch}

/-- How many blocks are noted for each kind. -/
theorem countOf_generated (kind : Kind) :
    (batch.result settings).metrics.generated.countOf kind =
      (((batch.intake settings).documents kind).filterMap
        (kind.converter.block? (batch.context settings))).length := by
  cases kind <;> simp [metrics, Batch.result, Kind.all, KindCounts.countOf_set]

/-- Every document that takes part gave a block or is reported. -/
theorem length_converted (h : batch.Completes settings) :
    (batch.result settings).metrics.generated.total +
      ((batch.result settings).outputs.flatMap KindOutput.problems).length =
        (batch.intake settings).entries.length := by
  have hkind : ∀ kind, (((batch.intake settings).documents kind).filterMap
        (kind.converter.block? (batch.context settings))).length +
      (((batch.intake settings).documents kind).filterMap
        (kind.converter.problem? (batch.context settings))).length =
      ((batch.intake settings).entries.filter fun entry => entry.ref.kind = kind).length := by
    intro kind
    rw [Converter.length_of_settles]
    · exact List.length_map _
    · intro document hdocument
      obtain ⟨entry, hentry, rfl, rfl⟩ := Intake.mem_documents_iff.1 hdocument
      exact h.settles entry hentry
  have hproblems : ((batch.result settings).outputs.flatMap KindOutput.problems).length =
      (Kind.all.map fun kind => (((batch.intake settings).documents kind).filterMap
        (kind.converter.problem? (batch.context settings))).length).sum := by
    simp [Batch.result, List.flatMap_map, List.length_flatMap]
  rw [KindCounts.total_eq_sum, hproblems, ← List.sum_map_add,
    ← Kind.sum_length_filter fun entry : Entry => entry.ref.kind]
  simp only [countOf_generated, hkind]

/-- The references of a document start at its resource, so they are counted under its kind. -/
theorem countP_edgesOf (g : Graph) (entries : List Entry) (kind : Kind) :
    ((entries.flatMap g.edgesOf).countP fun e => e.source.ref.kind = kind) =
      ((entries.filter fun entry => entry.ref.kind = kind).map fun entry =>
        (g.edgesOf entry).length).sum := by
  induction entries with
  | nil => rfl
  | cons entry rest ih =>
    have hsource : ∀ e ∈ g.edgesOf entry, e.source.ref.kind = entry.ref.kind := by
      intro e he
      rw [Graph.source_of_mem_edgesOf he, Graph.ref_sourceOf]
    rw [List.flatMap_cons, List.countP_append, ih]
    by_cases hkind : entry.ref.kind = kind
    · have hall : (g.edgesOf entry).countP (fun e => e.source.ref.kind = kind) =
          (g.edgesOf entry).length := by
        rw [List.countP_eq_length]
        intro e he
        simpa [hsource e he] using hkind
      rw [List.filter_cons_of_pos (by simpa using hkind), List.map_cons, List.sum_cons, hall]
    · have hnone : (g.edgesOf entry).countP (fun e => e.source.ref.kind = kind) = 0 := by
        rw [List.countP_eq_zero]
        intro e he
        simpa [hsource e he] using hkind
      rw [List.filter_cons_of_neg (by simpa using hkind), hnone, Nat.zero_add]

/-- **Every document is counted once.** The documents in the lists of a value are those that are
received, and each of them is out of scope, left out, passed over, converted or reported. Those
of a kind that take part are the first of each identity among the candidates, in the order of
the batch. The references noted for each kind are those of its documents, and all references
of the sealed graph are noted. -/
theorem census {entries : Members} {result : ExportResult}
    (hbatch : Batch.ofJson (.obj entries) = .ok batch)
    (h : runExport .standard settings batch = .ok result) :
    result.metrics.received.total = (entries.map fun entry => entry.2.items.length).sum ∧
    result.metrics.received.total =
      result.metrics.outOfScope + result.metrics.excluded + result.metrics.duplicates +
        result.metrics.generated.total + result.metrics.problems.length ∧
    (∀ kind, result.intake.documents kind =
      (firstsBy Entry.ref (batch.candidates settings.scope kind)).map Entry.document) ∧
    (∀ kind, result.metrics.edges.countOf kind =
      ((result.intake.entries.filter fun entry => entry.ref.kind = kind).map fun entry =>
        (result.intake.graph.edgesOf entry).length).sum) ∧
    result.metrics.edges.total = result.graphReport.references := by
  have hcomplete := (follows_of_runExport h).complete
  obtain ⟨hcompletes, rfl⟩ := runExport_standard.1 h
  have haccounts := batch.accounts_intake settings
  have hreceived : (batch.result settings).metrics.received.total = batch.documents.length := by
    rw [KindCounts.total_eq_sum]
    exact batch.sum_length_of
  have hgenerated := length_converted hcompletes
  refine ⟨?_, ?_, fun kind => haccounts.documents kind, ?_, ?_⟩
  · rw [hreceived, Batch.length_documents_ofJson hbatch]
  · have hseen := haccounts.length_seen
    have hproblems : (batch.result settings).metrics.problems.length =
        (batch.intake settings).problems.length +
          ((batch.result settings).outputs.flatMap KindOutput.problems).length :=
      List.length_append
    rw [hreceived, ← batch.length_inOrder, hseen, hproblems]
    show (batch.intake settings).outOfScope + (batch.intake settings).excluded +
      (batch.intake settings).duplicates + _ + _ = (batch.intake settings).outOfScope +
      (batch.intake settings).excluded + (batch.intake settings).duplicates + _ + _
    omega
  · intro kind
    rw [← countP_edgesOf, ← hcomplete.edges]
    rfl
  · rw [KindCounts.total_eq_sum]
    have hedges := Kind.sum_length_filter (fun e : Edge => e.source.ref.kind)
      (batch.intake settings).graph.edges
    simp only [← List.countP_eq_length_filter] at hedges
    exact hedges

/-- A value in which documents go each of the ways: two of one identity, one that is left out,
one without an id, one whose kind is not covered, and one that cannot be converted. -/
def mixedLists : Members :=
  [("flows", .arr [flowOf "f" "Login", flowOf "x" "Retired"]),
   ("flow", .arr [flowOf "f" "Sign in", .obj [("name", .str "Nameless")]]),
   ("variables", .arr [.obj [("id", .str "v")]]),
   ("connector_instances", .arr [.obj [("id", .str "c")]])]
where
  flowOf (id name : String) : Json :=
    .obj (flowWithNodes id name [[("id", .str "n"), ("connectionId", .str "c")]])

/-- Settings that cover flows and connector instances, and leave out one flow. -/
def narrowSettings : ExportSettings :=
  { ExportSettings.plain with
    scope := { excluded := [⟨.flow, "x"⟩], included := [.connectorInstance, .flow] } }

/-- How many documents went each way. -/
def ways (result : ExportResult) : List Nat :=
  [result.metrics.outOfScope, result.metrics.excluded, result.metrics.duplicates,
    result.metrics.generated.total, result.metrics.problems.length]

theorem census_mixedLists : ∃ batch result,
    Batch.ofJson (.obj mixedLists) = .ok batch ∧
    runExport .standard narrowSettings batch = .ok result ∧
    result.ways = [1, 1, 1, 1, 2] ∧
    result.metrics.received.total = (mixedLists.map fun entry => entry.2.items.length).sum ∧
    result.metrics.edges.total = result.graphReport.references ∧
    (∀ kind, result.intake.documents kind =
      (firstsBy Entry.ref (batch.candidates narrowSettings.scope kind)).map Entry.document) := by
  have h : (Batch.ofJson (.obj mixedLists)).toOption.any (fun batch =>
      (runExport .standard narrowSettings batch).toOption.any fun result =>
        result.ways == [1, 1, 1, 1, 2]) = true := by
    decide +kernel
  obtain ⟨batch, hbatch, h⟩ := exists_ok_of_any h
  obtain ⟨result, hresult, htest⟩ := exists_ok_of_any h
  obtain ⟨hreceived, -, hdocuments, -, hedges⟩ := census hbatch hresult
  exact ⟨batch, result, hbatch, hresult, eq_of_beq htest, hreceived, hedges, hdocuments⟩

end ExportResult

end HclExport
