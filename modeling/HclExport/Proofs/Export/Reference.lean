import HclExport.Export.Run
import HclExport.Proofs.Conversion.Block
import HclExport.Proofs.Conversion.Requests
import HclExport.Proofs.Export.Intake

/-!
# References of documents that were taken in

The references that a document asks for when it is converted are those that were found in it
when it was taken in, if its required paths were met; and none of them is known if not.

## Main results

* `Intake.Complete.edge?_eq_some`, `Intake.Complete.edge?_eq_none` — which reference backs a
  request.
* `Intake.Registered.owningApplication_eq`, `Intake.Complete.knowsOwner` — no policy has an owner
  that its document does not name.
* `Intake.Registered.owningApplication_congr` — the owner of a policy in several exports.
* `Intake.Complete.exists_asks` — what the documents that were taken in ask for.
-/

namespace HclExport
namespace Intake

variable {settings : ExportSettings} {intake : Intake}

/-! ### Which reference backs a request -/

/-- A reference that starts at a document was found in it. -/
theorem Complete.mem_edgesOf (h : intake.Complete settings) {entry : Entry}
    (hentry : entry ∈ intake.entries) {e : Edge} (he : e ∈ intake.graph.edges)
    (hsource : e.source.ref = entry.ref) : e ∈ intake.graph.edgesOf entry := by
  rw [h.edges] at he
  obtain ⟨other, hother, he⟩ := List.mem_flatMap.1 he
  have href : other.ref = entry.ref := by
    rw [← hsource, Graph.source_of_mem_edgesOf he, Graph.ref_sourceOf]
  rwa [← h.entry_injective hother hentry href]

/-- A text at a declared path is backed by the reference that was found there. -/
theorem Complete.edge?_eq_some (h : intake.Complete settings) {entry : Entry}
    (hentry : entry ∈ intake.entries) {edges : List Edge}
    (hparse : intake.graph.parse entry = .ok edges) {path : ReferencePath}
    (hpath : path ∈ entry.ref.kind.schema) {id : String}
    (hid : id ∈ extractTexts (.obj entry.document) path.path) :
    (intake.context settings).edge? entry.ref path.field id =
      some (path.edge (intake.graph.sourceOf entry.ref) id) := by
  have hedges : intake.graph.edgesOf entry = edges := by
    rw [Graph.edgesOf, hparse]
  -- the reference is in the graph, so the search finds one
  obtain ⟨hall, -⟩ := parseReferences_eq_ok hparse
  rw [Graph.ref_sourceOf] at hall
  have hmem : path.edge (intake.graph.sourceOf entry.ref) id ∈ intake.graph.edges := by
    rw [h.edges, List.mem_flatMap]
    refine ⟨entry, hentry, ?_⟩
    rw [hedges, hall, List.mem_flatMap]
    exact ⟨path, hpath, List.mem_map_of_mem hid⟩
  cases hfound : (intake.context settings).edge? entry.ref path.field id with
  | none =>
    have := List.find?_eq_none.1 hfound _ hmem
    simp [ReferencePath.edge] at this
  | some e =>
    have hmatch := List.find?_some hfound
    simp only [Bool.and_eq_true, decide_eq_true_eq] at hmatch
    obtain ⟨⟨hsource, hfield⟩, htarget⟩ := hmatch
    -- whatever was found first comes from the same document, field and id
    have he := h.mem_edgesOf hentry (List.mem_of_find?_eq_some hfound) hsource
    rw [hedges, hall, List.mem_flatMap] at he
    obtain ⟨other, hother, he⟩ := he
    obtain ⟨id', -, rfl⟩ := List.mem_map.1 he
    obtain rfl : other = path := Kind.schema_field_injective hother hpath hfield
    obtain rfl : id' = id := htarget
    rfl

/-- No reference of a document with an unmet path is known. -/
theorem Complete.edge?_eq_none (h : intake.Complete settings) {entry : Entry}
    (hentry : entry ∈ intake.entries) {unmet : UnmetPath}
    (hparse : intake.graph.parse entry = .error unmet) (field id : String) :
    (intake.context settings).edge? entry.ref field id = none := by
  cases hfound : (intake.context settings).edge? entry.ref field id with
  | none => rfl
  | some e =>
    have hmatch := List.find?_some hfound
    simp only [Bool.and_eq_true, decide_eq_true_eq] at hmatch
    have he := h.mem_edgesOf hentry (List.mem_of_find?_eq_some hfound) hmatch.1.1
    rw [Graph.edgesOf, hparse] at he
    cases he

/-! ### What is asked for -/

/-- The owner of a policy that was taken in is the one that its document names. -/
theorem Registered.owningApplication_eq (h : intake.Registered) {entry : Entry}
    (hentry : entry ∈ intake.entries) (hkind : entry.ref.kind = .flowPolicy) :
    owningApplication (intake.context settings) entry.document =
      .ok (if entry.document.text "applicationId" = "" then none
        else some (entry.document.text "applicationId")) := by
  have hid := h.identified entry hentry
  rw [hkind] at hid
  unfold owningApplication
  by_cases hnamed : entry.document.text "applicationId" = ""
  · rw [if_pos hnamed, if_neg (by simpa using hnamed)]
    -- an owner could only be recorded for the same document, which names none
    have hnone : intake.ownership.parent? entry.ref = none := by
      cases hparent : intake.ownership.parent? entry.ref with
      | none => rfl
      | some record =>
        obtain ⟨other, hother, href, howned⟩ :=
          h.owned _ _ (Ownership.lists_of_parent? hparent)
        obtain rfl := h.entry_injective hother hentry href
        rw [hkind] at howned
        simp [ownerOf?, hnamed] at howned
    have href : (⟨.flowPolicy, entry.ref.id⟩ : Ref) = entry.ref := by rw [← hkind]
    simp only [Intake.context, hid, bind, Except.bind, href, hnone, Option.map_none]
    rfl
  · rw [if_neg hnamed, if_pos (by simpa using hnamed)]

/-- A policy that was taken in twice has one owner. -/
theorem Registered.owningApplication_congr {other : Intake} (h : intake.Registered)
    (hother : other.Registered) (settings' : ExportSettings) {entry : Entry}
    (hentry : entry ∈ intake.entries) (hentry' : entry ∈ other.entries)
    (hkind : entry.ref.kind = .flowPolicy) :
    owningApplication (intake.context settings) entry.document =
      owningApplication (other.context settings') entry.document := by
  rw [h.owningApplication_eq hentry hkind, hother.owningApplication_eq hentry' hkind]

/-- No policy has an owner that its document does not name. -/
theorem Complete.knowsOwner (h : intake.Complete settings) {entry : Entry}
    (hentry : entry ∈ intake.entries) (hkind : entry.ref.kind = .flowPolicy) :
    (intake.context settings).KnowsOwner entry.document := by
  intro owner howner
  rw [h.owningApplication_eq hentry hkind] at howner
  obtain rfl := Except.ok.inj howner
  by_cases hnamed : entry.document.text "applicationId" = ""
  · rw [if_pos hnamed, hnamed]
    rfl
  · rw [if_neg hnamed]
    rfl

/-- A document that was taken in asks for the references at its declared paths. -/
theorem Complete.exists_asks (h : intake.Complete settings) {entry : Entry}
    (hentry : entry ∈ intake.entries) :
    ∃ expected : List Request,
      expected.Perm (declaredRequests (intake.graph.sourceOf entry.ref) entry.document) ∧
      (entry.ref.kind.converter.draft (intake.context settings) entry.document).Asks
        (intake.context settings).answer expected :=
  Kind.exists_asks entry.ref.kind (h.identified entry hentry) (h.knowsOwner hentry)
    (by rw [Context.ref_sourceOf])

end Intake
end HclExport
