import HclExport.Conversion.Registry
import HclExport.Export.Intake
import HclExport.Proofs.Graph.Growth
import HclExport.Proofs.Graph.Ownership
import HclExport.Proofs.Graph.Reference

/-!
# What is known after taking in a batch

Every document that takes part is registered under its own identity, once; and the graph
holds the references of exactly those documents whose required paths are met.

## Main definitions

* `Intake.Registered`, `Intake.Sound` — the invariant of taking in documents.
* `Graph.parse`, `Graph.edgesOf`, `Graph.unmet?` — the references of a document, or what is
  unmet.
* `Intake.Complete` — what holds once all references are recorded.

## Main results

* `Intake.Sound.accept`, `Intake.sound_acceptBatch` — the invariant, over a document and a
  batch.
* `Intake.linkAll_eq_ok` — what recording the references of all documents comes to.
* `Intake.complete_ofBatch` — what is known in the end.
-/

namespace HclExport

/-- An invariant of every step holds at the end of a loop that may fail. -/
theorem foldlM_invariant {σ α ε : Type} {f : σ → α → Except ε σ} {invariant : σ → Prop}
    (hstep : ∀ s a next, invariant s → f s a = .ok next → invariant next) {xs : List α} {s final : σ}
    (hs : invariant s) (h : xs.foldlM f s = .ok final) : invariant final := by
  induction xs generalizing s with
  | nil =>
    obtain rfl : s = final := Except.ok.inj h
    exact hs
  | cons x xs ih =>
    rw [List.foldlM_cons] at h
    cases hx : f s x with
    | error e =>
      rw [hx] at h
      cases h
    | ok next =>
      rw [hx] at h
      exact ih (hstep s x next hs hx) h

namespace Intake

/-! ### Taking in documents -/

/-- Documents are registered: the graph is well-formed, its resources are the documents that
take part, each under its own identity, and an owner is recorded only where a document names
it. -/
structure Registered (intake : Intake) : Prop where
  wellFormed : intake.graph.WellFormed
  refs : intake.graph.resources.map Resource.ref = intake.entries.map Entry.ref
  identified : ∀ entry ∈ intake.entries,
    resourceId entry.ref.kind entry.document = .ok entry.ref.id
  owned : ∀ owner child, intake.ownership.Lists owner child →
    ∃ entry ∈ intake.entries, entry.ref = child ∧ ownerOf? child.kind entry.document = some owner

/-- A document that takes part is registered. -/
theorem Registered.exists_find? {intake : Intake} (h : intake.Registered) {entry : Entry}
    (hentry : entry ∈ intake.entries) :
    ∃ r ∈ intake.graph.resources, intake.graph.find? entry.ref = some r := by
  have hmem : entry.ref ∈ intake.graph.resources.map Resource.ref := by
    rw [h.refs]
    exact List.mem_map_of_mem hentry
  obtain ⟨r, hr, href⟩ := List.mem_map.1 hmem
  refine ⟨r, hr, ?_⟩
  rw [← href]
  exact h.wellFormed.find?_ref hr

/-- No two documents that take part have one identity. -/
theorem Registered.nodup_refs {intake : Intake} (h : intake.Registered) :
    (intake.entries.map Entry.ref).Nodup := by
  rw [← h.refs]
  exact h.wellFormed.refs_nodup

/-- Documents that take part under one identity are the same. -/
theorem Registered.entry_injective {intake : Intake} (h : intake.Registered) {entry other : Entry}
    (hentry : entry ∈ intake.entries) (hother : other ∈ intake.entries)
    (href : entry.ref = other.ref) : entry = other :=
  List.inj_on_of_nodup_map h.nodup_refs hentry hother href

/-- The invariant of taking in documents: they are registered, and the graph is open and
without references. -/
structure Sound (intake : Intake) : Prop extends Registered intake where
  isOpen : intake.graph.isSealed = false
  edges : intake.graph.edges = []
  unmet : intake.unmetPaths = []

theorem sound_empty (merges : Bool) : Sound { ownership := { merges := merges } } where
  wellFormed := Graph.WellFormed.empty
  refs := rfl
  identified := by simp
  owned := by
    rintro owner child ⟨record, hrecord, -⟩
    cases hrecord
  isOpen := rfl
  edges := rfl
  unmet := rfl

/-- The invariant is about the graph, the documents that take part, their owners and what is
unmet; whatever else was counted or noted plays no part. -/
theorem Sound.congr {intake next : Intake} (h : intake.Sound) (hgraph : next.graph = intake.graph)
    (hentries : next.entries = intake.entries) (howner : next.ownership = intake.ownership)
    (hunmet : next.unmetPaths = intake.unmetPaths) : next.Sound where
  wellFormed := by
    rw [hgraph]
    exact h.wellFormed
  refs := by
    rw [hgraph, hentries]
    exact h.refs
  identified := by
    rw [hentries]
    exact h.identified
  owned := by
    rw [hentries, howner]
    exact h.owned
  isOpen := by
    rw [hgraph]
    exact h.isOpen
  edges := by
    rw [hgraph]
    exact h.edges
  unmet := by
    rw [hunmet]
    exact h.unmet

theorem identify_eq_ok {converter : Converter} {document : Members} {ref : Ref} {label : String}
    (h : identify converter document = .ok (ref, label)) :
    resourceId ref.kind document = .ok ref.id := by
  unfold identify at h
  cases hid : resourceId converter.kind document with
  | error fault =>
    rw [hid] at h
    cases h
  | ok id =>
    cases hlabel : converter.label document with
    | error fault =>
      rw [hid, hlabel] at h
      cases h
    | ok label =>
      rw [hid, hlabel] at h
      obtain ⟨rfl, -⟩ := Prod.mk.inj (Except.ok.inj h)
      exact hid

theorem kind_of_identify {converter : Converter} {document : Members} {ref : Ref} {label : String}
    (h : identify converter document = .ok (ref, label)) : ref.kind = converter.kind := by
  unfold identify at h
  cases hid : resourceId converter.kind document with
  | error fault =>
    rw [hid] at h
    cases h
  | ok id =>
    cases hlabel : converter.label document with
    | error fault =>
      rw [hid, hlabel] at h
      cases h
    | ok label =>
      rw [hid, hlabel] at h
      obtain ⟨rfl, -⟩ := Prod.mk.inj (Except.ok.inj h)
      rfl

/-- The invariant over a document. -/
theorem Sound.accept {settings : ExportSettings} {converter : Converter} {intake next : Intake}
    {document : Members} (h : intake.Sound)
    (haccept : Intake.accept settings converter intake document = .ok next) : next.Sound := by
  unfold Intake.accept at haccept
  split at haccept
  -- a document is new, or it is passed over and changes nothing but what is counted
  next fault hidentify =>
    split at haccept
    · cases haccept
    · obtain rfl := Except.ok.inj haccept
      exact h.congr rfl rfl rfl rfl
  next ref label hidentify =>
    split at haccept
    · obtain rfl := Except.ok.inj haccept
      exact h.congr rfl rfl rfl rfl
    split at haccept
    · obtain rfl := Except.ok.inj haccept
      exact h.congr rfl rfl rfl rfl
    next hnew =>
      have hnone : intake.graph.find? ref = none := by simpa [Graph.has] using hnew
      have hregister := Graph.register_of_find?_none h.isOpen hnone label
      have hwellFormed := h.wellFormed.register hregister
      rw [hregister] at haccept
      obtain rfl := Except.ok.inj haccept
      refine ⟨⟨hwellFormed, ?_, ?_, ?_⟩, h.isOpen, h.edges, h.unmet⟩
      · simp [h.refs]
      · intro entry hentry
        rcases List.mem_append.1 hentry with hentry | hentry
        · exact h.identified entry hentry
        · obtain rfl := List.mem_singleton.1 hentry
          exact identify_eq_ok hidentify
      · intro owner child hlists
        dsimp only at hlists
        -- an owner is recorded for this document, or was recorded for an earlier one
        unfold own at hlists
        have hold : intake.ownership.Lists owner child →
            ∃ entry ∈ intake.entries ++ [⟨ref, document⟩],
              entry.ref = child ∧ ownerOf? child.kind entry.document = some owner := by
          intro hlists
          obtain ⟨entry, hentry, hsame⟩ := h.owned owner child hlists
          exact ⟨entry, List.mem_append_left _ hentry, hsame⟩
        split at hlists
        · exact hold hlists
        next named hnamed =>
          rcases Ownership.lists_add hlists with hlists | ⟨rfl, hkind, hid⟩
          · exact hold hlists
          · have hchild : ref = child := by
              obtain ⟨kind, id⟩ := child
              obtain rfl : kind = ref.kind := hkind
              obtain rfl : id = ref.id := List.mem_singleton.1 hid
              rfl
            refine ⟨⟨ref, document⟩, by simp, hchild, ?_⟩
            rw [← hchild]
            exact hnamed

theorem Sound.acceptKind {registry : ConverterRegistry} {settings : ExportSettings}
    {batch : Batch} {intake next : Intake} {kind : Kind} (h : intake.Sound)
    (haccept : Intake.acceptKind registry settings batch intake kind = .ok next) :
    next.Sound := by
  unfold Intake.acceptKind at haccept
  dsimp only at haccept
  split at haccept
  · split at haccept
    · cases haccept
    · cases haccept
    · exact foldlM_invariant (fun _ _ _ hs hstep => hs.accept hstep) h haccept
  · obtain rfl := Except.ok.inj haccept
    exact h.congr rfl rfl rfl rfl

/-- The invariant over a batch. -/
theorem sound_acceptBatch {registry : ConverterRegistry} {settings : ExportSettings}
    {batch : Batch} {intake : Intake} (h : acceptBatch registry settings batch = .ok intake) :
    intake.Sound :=
  foldlM_invariant (fun _ _ _ hs hstep => hs.acceptKind hstep) (sound_empty _) h

end Intake

/-! ### References of documents -/

namespace Graph

/-- The references of a document that takes part, from its resource, or what is unmet. -/
def parse (g : Graph) (entry : Entry) : Except UnmetPath (List Edge) :=
  parseReferences (g.sourceOf entry.ref) (.obj entry.document)

/-- The references of a document; none if a required path is unmet. -/
def edgesOf (g : Graph) (entry : Entry) : List Edge :=
  match g.parse entry with
  | .ok edges => edges
  | .error _ => []

/-- The required path of a document that is unmet, if there is one. -/
def unmet? (g : Graph) (entry : Entry) : Option UnmetPath :=
  match g.parse entry with
  | .ok _ => none
  | .error unmet => some unmet

@[simp] theorem edgesOf_extend (g : Graph) (edges : List Edge) :
    (g.extend edges).edgesOf = g.edgesOf := rfl

@[simp] theorem unmet?_extend (g : Graph) (edges : List Edge) :
    (g.extend edges).unmet? = g.unmet? := rfl

theorem source_of_mem_edgesOf {g : Graph} {entry : Entry} {e : Edge} (h : e ∈ g.edgesOf entry) :
    e.source = g.sourceOf entry.ref := by
  unfold edgesOf at h
  split at h
  next edges hparse => exact source_mem_parseReferences hparse e h
  next => cases h

end Graph

namespace Intake

/-- What was taken in, with further references and unmet paths. -/
def withReferences (intake : Intake) (edges : List Edge) (unmet : List UnmetPath) : Intake :=
  { intake with
    graph := intake.graph.extend edges
    unmetPaths := intake.unmetPaths ++ unmet }

@[simp] theorem graph_withReferences (intake : Intake) (edges : List Edge)
    (unmet : List UnmetPath) :
    (intake.withReferences edges unmet).graph = intake.graph.extend edges := rfl

@[simp] theorem withReferences_nil (intake : Intake) : intake.withReferences [] [] = intake := by
  simp [withReferences]

@[simp] theorem withReferences_withReferences (intake : Intake) (edges more : List Edge)
    (unmet others : List UnmetPath) :
    (intake.withReferences edges unmet).withReferences more others =
      intake.withReferences (edges ++ more) (unmet ++ others) := by
  simp [withReferences]

/-- Recording the references of a document: they are added, or what is unmet is noted. -/
theorem link_eq_ok {settings : ExportSettings} {intake next : Intake} {entry : Entry}
    (hs : intake.graph.isSealed = false) (h : link settings intake entry = .ok next) :
    next = intake.withReferences (intake.graph.edgesOf entry)
        (intake.graph.unmet? entry).toList ∧
      ((intake.graph.unmet? entry).isSome → settings.toleratesUnmetPaths = true) := by
  unfold link at h
  cases hf : intake.graph.find? entry.ref with
  | none =>
    simp only [Graph.lookup, hf] at h
    cases h
  | some r =>
    -- the name that was looked up is that of the resource that was found
    have hsource : (⟨entry.ref, r.name⟩ : Resource) = r := by
      rw [← Graph.ref_of_find? hf]
    have hparse : intake.graph.parse entry = parseReferences r (.obj entry.document) := by
      rw [Graph.parse, Graph.sourceOf_of_find? hf]
    simp only [Graph.lookup, hf, orFail, Except.mapError, bind, Except.bind, hsource] at h
    unfold Graph.edgesOf Graph.unmet?
    rw [hparse]
    cases hresult : parseReferences r (.obj entry.document) with
    | error unmet =>
      simp only [hresult] at h
      split at h
      next htolerates =>
        obtain rfl := Except.ok.inj h
        exact ⟨by simp [withReferences], fun _ => htolerates⟩
      next => cases h
    | ok edges =>
      simp only [hresult] at h
      rw [Graph.addEdges_of_registered hs] at h
      · obtain rfl := Except.ok.inj h
        exact ⟨by simp [withReferences], by simp⟩
      · intro e he
        rw [source_mem_parseReferences hresult e he, Graph.ref_of_find? hf, hf]

/-- Recording the references of documents: those whose required paths are met. -/
theorem foldlM_link_eq_ok {settings : ExportSettings} {entries : List Entry}
    {intake final : Intake} (hs : intake.graph.isSealed = false)
    (h : entries.foldlM (link settings) intake = .ok final) :
    final = intake.withReferences (entries.flatMap intake.graph.edgesOf)
        (entries.filterMap intake.graph.unmet?) ∧
      ∀ entry ∈ entries, (intake.graph.unmet? entry).isSome →
        settings.toleratesUnmetPaths = true := by
  induction entries generalizing intake with
  | nil =>
    obtain rfl : intake = final := Except.ok.inj h
    simp
  | cons entry rest ih =>
    rw [List.foldlM_cons] at h
    cases hlink : link settings intake entry with
    | error failure =>
      rw [hlink] at h
      cases h
    | ok next =>
      rw [hlink] at h
      obtain ⟨rfl, htolerates⟩ := link_eq_ok hs hlink
      -- the graph only gained references, so the rest finds the same in its documents
      have hs' : (intake.withReferences (intake.graph.edgesOf entry)
          (intake.graph.unmet? entry).toList).graph.isSealed = false := hs
      obtain ⟨rfl, hall⟩ := ih hs' h
      constructor
      · rw [withReferences_withReferences, graph_withReferences, Graph.edgesOf_extend,
          Graph.unmet?_extend, List.flatMap_cons, List.filterMap_cons]
        cases intake.graph.unmet? entry with
        | none => rfl
        | some unmet => rfl
      · intro other hother
        rcases List.mem_cons.1 hother with rfl | hother
        · exact htolerates
        · exact hall other hother

/-- What is known once all references are recorded: the references of the graph are those of
the documents whose required paths are met, and the others are noted, which is only tolerated
where the settings say so. -/
structure Complete (settings : ExportSettings) (intake : Intake) : Prop
    extends Registered intake where
  edges : intake.graph.edges = intake.entries.flatMap intake.graph.edgesOf
  unmetPaths : intake.unmetPaths = intake.entries.filterMap intake.graph.unmet?
  tolerates : ∀ entry ∈ intake.entries, (intake.graph.unmet? entry).isSome →
    settings.toleratesUnmetPaths = true

/-- What is known after taking in a batch. -/
theorem complete_ofBatch {registry : ConverterRegistry} {settings : ExportSettings}
    {batch : Batch} {intake : Intake} (h : ofBatch registry settings batch = .ok intake) :
    intake.Complete settings := by
  unfold ofBatch at h
  cases haccept : acceptBatch registry settings batch with
  | error failure =>
    rw [haccept] at h
    cases h
  | ok accepted =>
    rw [haccept] at h
    have hsound := sound_acceptBatch haccept
    obtain ⟨rfl, htolerates⟩ := foldlM_link_eq_ok hsound.isOpen h
    refine ⟨⟨?_, hsound.refs, hsound.identified, hsound.owned⟩, ?_, ?_, htolerates⟩
    · refine hsound.wellFormed.extend ?_
      intro e he
      obtain ⟨entry, hentry, he⟩ := List.mem_flatMap.1 he
      obtain ⟨r, hr, hf⟩ := hsound.exists_find? hentry
      rw [Graph.source_of_mem_edgesOf he, Graph.sourceOf_of_find? hf]
      exact hr
    · rw [graph_withReferences, Graph.extend_edges, hsound.edges, List.nil_append]
      rfl
    · show accepted.unmetPaths ++ _ = _
      rw [hsound.unmet, List.nil_append]
      rfl

end Intake

end HclExport
