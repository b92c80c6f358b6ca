import HclExport.Proofs.Export.Run

/-!
# References that lead nowhere are recorded

The references found when documents are taken in, and those asked for when they are
converted, are the same; so what is recorded as missing can be told from the graph.

## Main definitions

* `Graph.isDangling` — whether a reference leads nowhere.
* `Scope.missingEdge` — the record of a reference that leads nowhere.

## Main results

* `Intake.Complete.filterMap_missing?` — what a document at its declared paths is missing.
* `ExportResult.Follows.missing_entry_perm` — what a document that was converted left behind.
* `ExportResult.missing_perm_dangling` — **what an export records as missing.**
-/

namespace HclExport

/-- Whether a reference leads nowhere. -/
def Graph.isDangling (g : Graph) (e : Edge) : Bool :=
  !g.has e.target

/-- The record of a reference that leads nowhere. -/
def Scope.missingEdge (scope : Scope) (e : Edge) : MissingRecord :=
  scope.missing e.source ⟨e.target, ""⟩ e.field e.location

theorem filterMap_eq_map_filter {α β γ : Type} {f : α → Option γ} {g : α → β} {p : β → Bool}
    {k : β → γ} {xs : List α} (h : ∀ x ∈ xs, f x = if p (g x) then some (k (g x)) else none) :
    xs.filterMap f = ((xs.map g).filter p).map k := by
  induction xs with
  | nil => rfl
  | cons x xs ih =>
    have ih := ih fun y hy => h y (List.mem_cons_of_mem _ hy)
    rw [List.filterMap_cons, h x List.mem_cons_self, List.map_cons, List.filter_cons, ih]
    by_cases hp : p (g x) = true
    · simp [hp]
    · simp [hp]

/-- Where imports are written, the environment is given. -/
theorem ExportSettings.environment_of_writesImports (settings : ExportSettings)
    (hwrites : settings.writesImports = true) : settings.environmentId.isTruthy = true := by
  cases hgiven : settings.environmentId.isTruthy with
  | true => rfl
  | false =>
    rw [(settings.environment_given hgiven).2] at hwrites
    cases hwrites

namespace Intake.Complete

variable {settings : ExportSettings} {intake : Intake}

/-- A reference that is known is recorded as missing if it leads nowhere. -/
theorem missing?_of_edge? (hskip : settings.skipsReferences = false) {request : Request} {e : Edge}
    (he : (intake.context settings).edge? request.source.ref request.field request.targetId = some e)
    (hsource : e.source = request.source) :
    (intake.context settings).missing? request =
      if intake.graph.isDangling e then some (settings.scope.missingEdge e) else none := by
  have hskip' : (intake.context settings).skipsReferences = false := hskip
  unfold Context.missing?
  rw [if_neg (by simp [hskip']), he, Option.bind_some]
  unfold Graph.isDangling Graph.has Scope.missingEdge
  rw [hsource]
  have hfind : (intake.context settings).graph.graph.find? e.target =
      intake.graph.find? e.target := rfl
  rw [hfind]
  cases intake.graph.find? e.target with
  | some target => rfl
  | none => rfl

/-- What the references of a document at its declared paths are missing. -/
theorem filterMap_missing? (h : intake.Complete settings) (hskip : settings.skipsReferences = false)
    {entry : Entry} (hentry : entry ∈ intake.entries) :
    (declaredRequests (intake.graph.sourceOf entry.ref) entry.document).filterMap
        (intake.context settings).missing? =
      ((intake.graph.edgesOf entry).filter intake.graph.isDangling).map
        settings.scope.missingEdge := by
  cases hparse : intake.graph.parse entry with
  | error unmet =>
    -- without its references nothing is known to be missing
    rw [Graph.edgesOf, hparse]
    refine List.filterMap_eq_nil_iff.2 ?_
    intro request hrequest
    obtain ⟨path, -, id, -, rfl⟩ := exists_path_of_mem_declaredRequests hrequest
    unfold Context.missing?
    dsimp only
    rw [Graph.ref_sourceOf, h.edge?_eq_none hentry hparse]
    simp
  | ok edges =>
    -- the requests and the references run through the same paths and texts
    obtain ⟨hedges, -⟩ := parseReferences_eq_ok hparse
    rw [Graph.edgesOf, hparse]
    dsimp only
    rw [hedges, declaredRequests, Graph.ref_sourceOf, List.filterMap_flatMap, List.filter_flatMap,
      List.map_flatMap]
    refine List.flatMap_congr ?_
    intro path hpath
    rw [requestsAt, List.filterMap_map]
    refine filterMap_eq_map_filter ?_
    intro id hid
    refine missing?_of_edge? hskip ?_ rfl
    dsimp only
    rw [Graph.ref_sourceOf]
    exact h.edge?_eq_some hentry hparse hpath hid

/-- What a document that comes to a block leaves behind as missing. -/
theorem missing_perm_of_result (h : intake.Complete settings)
    (hskip : settings.skipsReferences = false) {entry : Entry} (hentry : entry ∈ intake.entries)
    {block : Block}
    (hresult : (entry.ref.kind.converter.draft (intake.context settings) entry.document).result
      (intake.context settings).answer = .ok block) :
    (entry.missing (intake.context settings)).Perm
      (((intake.graph.edgesOf entry).filter intake.graph.isDangling).map
        settings.scope.missingEdge) := by
  obtain ⟨expected, hperm, hasks⟩ := h.exists_asks hentry
  rw [← h.filterMap_missing? hskip hentry]
  unfold Entry.missing Converter.missing Converter.requests
  rw [hasks.of_ok hresult]
  exact hperm.filterMap _

/-- A policy without an application does not meet its required paths. -/
theorem exists_unmet_of_unnamed {entry : Entry} (hkind : entry.ref.kind = .flowPolicy)
    (hnamed : entry.document.text "applicationId" = "") :
    ∃ unmet, intake.graph.parse entry = .error unmet := by
  cases hparse : intake.graph.parse entry with
  | error unmet => exact ⟨unmet, rfl⟩
  | ok edges =>
    obtain ⟨-, hrequired⟩ := parseReferences_eq_ok hparse
    rw [Graph.ref_sourceOf, hkind] at hrequired
    refine absurd ?_ (hrequired ⟨"applicationId", .application, "application_id", false, false, _⟩
      (List.mem_cons_of_mem _ List.mem_cons_self) rfl)
    rw [extractTexts_applicationId, hnamed, givenTexts_empty]

/-- A document that meets a fault leaves nothing behind as missing. Only the import of a policy
can be at fault after its references were written, and then none of them is known. -/
theorem missing_of_fault (h : intake.Complete settings)
    (hskip : settings.skipsReferences = false) {entry : Entry} (hentry : entry ∈ intake.entries)
    {fault : Fault} (hfault : entry.outcome (intake.context settings) = .error (.fault fault)) :
    entry.missing (intake.context settings) = [] := by
  rcases Converter.result_of_outcome_fault hfault with hresult | ⟨block, hresult, hwrites, himports⟩
  · obtain ⟨expected, -, hasks⟩ := h.exists_asks hentry
    unfold Entry.missing Converter.missing Converter.requests
    rw [hasks.of_fault hresult, List.filterMap_nil]
  · -- imports are only written for an environment that is given
    have henvironment : (intake.context settings).environmentId.isTruthy = true :=
      settings.environment_of_writesImports hwrites
    obtain ⟨hkind, owner, howner, hempty⟩ :=
      Converter.imports_fault (h.identified entry hentry) henvironment himports
    have hnamed : entry.document.text "applicationId" = "" := by
      rw [← h.knowsOwner hentry hkind owner howner, hempty]
    have hperm := h.missing_perm_of_result hskip hentry hresult
    -- it has no references, since its required paths are unmet
    obtain ⟨unmet, hparse⟩ := exists_unmet_of_unnamed hkind hnamed
    rw [Graph.edgesOf, hparse] at hperm
    exact List.Perm.eq_nil hperm

end Intake.Complete

namespace ExportResult

variable {settings : ExportSettings}

/-- What a document leaves behind as missing, whether it is kept or not. -/
theorem Follows.missing_entry_perm {result : ExportResult} (h : result.Follows settings)
    (hskip : settings.skipsReferences = false) {entry : Entry}
    (hentry : entry ∈ result.intake.entries) :
    (entry.missing (result.intake.context settings)).Perm
      (((result.intake.graph.edgesOf entry).filter fun e =>
        result.intake.graph.isDangling e && result.keeps e.source.ref).map
          settings.scope.missingEdge) := by
  have hsource : ∀ e ∈ result.intake.graph.edgesOf entry, e.source.ref = entry.ref := by
    intro e he
    rw [Graph.source_of_mem_edgesOf he, Graph.ref_sourceOf]
  rcases h.settles entry hentry with ⟨⟨block, imports⟩, houtcome⟩ | ⟨-, fault, hfault⟩
  · have hkeeps : result.keeps entry.ref = true := by
      rw [h.keeps_iff hentry, Entry.block?_eq_some_iff.2 ⟨imports, houtcome⟩]
      rfl
    rw [List.filter_congr (q := result.intake.graph.isDangling)]
    · exact h.complete.missing_perm_of_result hskip hentry (Entry.result_of_outcome_ok houtcome)
    · intro e he
      rw [hsource e he, hkeeps, Bool.and_true]
  · have hkeeps : result.keeps entry.ref = false := by
      have houtcome : entry.ref.kind.converter.outcome (result.intake.context settings)
          entry.document = .error (.fault fault) := hfault
      rw [Bool.eq_false_iff, Ne, h.keeps_iff hentry]
      unfold Entry.block? Converter.block?
      rw [houtcome]
      simp
    rw [h.complete.missing_of_fault hskip hentry hfault, List.filter_eq_nil_iff.2]
    · exact List.Perm.refl _
    · intro e he
      rw [hsource e he, hkeeps, Bool.and_false]
      simp

/-- **What an export records as missing** are the references of the graph that lead nowhere
and start at a resource whose block is kept, each as often as it was found. -/
theorem missing_perm_dangling {batch : Batch} {result : ExportResult}
    (hskip : settings.skipsReferences = false)
    (h : runExport .standard settings batch = .ok result) :
    result.ledger.missing.Perm
      ((result.graph.graph.edges.filter fun e =>
        result.graph.graph.isDangling e && result.keeps e.source.ref).map
          settings.scope.missingEdge) := by
  have hfollows := follows_of_runExport h
  refine hfollows.missing_perm.trans ?_
  have hedges : result.graph.graph.edges =
      result.intake.entries.flatMap result.intake.graph.edgesOf := hfollows.complete.edges
  rw [hedges, List.filter_flatMap, List.map_flatMap]
  exact List.Perm.flatMap_left _ fun entry hentry => hfollows.missing_entry_perm hskip hentry

/-- A flow with two nodes that use a connector instance which is nowhere. -/
def strayFlow : Batch where
  documents :=
    [(.flow, flowWithNodes "f" "Login"
      [[("id", .str "n"), ("connectionId", .str "c")],
       [("id", .str "m"), ("connectionId", .str "c")]])]

/-- Both uses of the connector instance are recorded. -/
theorem missing_perm_dangling_strayFlow :
    ∃ result, runExport .standard .plain strayFlow = .ok result ∧
      result.ledger.missing.length = 2 ∧
      result.ledger.missing.Perm
        ((result.graph.graph.edges.filter fun e =>
          result.graph.graph.isDangling e && result.keeps e.source.ref).map
            ExportSettings.plain.scope.missingEdge) := by
  have h : (runExport .standard .plain strayFlow).toOption.any (fun result =>
      result.ledger.missing.length == 2) = true := by
    decide +kernel
  obtain ⟨result, hresult, htest⟩ := exists_ok_of_any h
  exact ⟨result, hresult, eq_of_beq htest, missing_perm_dangling rfl hresult⟩

end ExportResult

end HclExport
