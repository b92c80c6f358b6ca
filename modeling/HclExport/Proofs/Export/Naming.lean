import HclExport.Proofs.Conversion.TidyBlock
import HclExport.Proofs.Export.Outcome

/-!
# How resources are named

Every name is a common head with legal characters behind it: the label of the document, or a numbered
variant of it where another document has the same label. Where no two labels are the same, every
resource is named by its label.

## Main definitions

* `IsName` — a head with legal characters behind it.
* `Entry.label`, `Entry.resource` — the label of a document, and the resource of that name.
* `Intake.NamedByLabels` — every resource is named by its label.

## Main results

* `Kind.isName_label`, `Batch.isName_intake` — labels and names are names.
* `Batch.resources_intake` — the resources where no two labels are the same.
-/

namespace HclExport

/-! ### Names -/

/-- A name: the common head, and legal characters behind it. -/
def IsName (name : String) : Prop :=
  ∃ rest, name = nameHead ++ rest ∧ IsLegalText rest

theorem IsName.isWord {name : String} (h : IsName name) : IsWord name := by
  obtain ⟨rest, rfl, hrest⟩ := h
  exact IsWord.append (by decide) hrest.isWord

theorem IsName.ne_empty {name : String} (h : IsName name) : name ≠ "" := by
  obtain ⟨rest, rfl, -⟩ := h
  intro hempty
  have hlength := congrArg String.length hempty
  rw [String.length_append] at hlength
  have hhead : nameHead.length = 9 := by decide
  have hzero : "".length = 0 := by decide
  omega

theorem IsName.append {name more : String} (h : IsName name) (hmore : IsLegalText more) :
    IsName (name ++ more) := by
  obtain ⟨rest, rfl, hrest⟩ := h
  exact ⟨rest ++ more, String.append_assoc, hrest.append hmore⟩

theorem isName_sanitize (label : String) : IsName (sanitize label) :=
  ⟨escapeLabel label, rfl, isLegalText_escapeLabel label⟩

theorem isName_sanitizeComposite (labels : List String) : IsName (sanitizeComposite labels) := by
  refine ⟨_, rfl, IsLegalText.intercalate (by decide) fun part hpart => ?_⟩
  obtain ⟨label, -, rfl⟩ := List.mem_map.1 hpart
  exact isLegalText_escapeLabel label

/-- The variant of a name is one. -/
theorem NameRegistry.isName_next (registry : NameRegistry) {name : String} (h : IsName name) :
    IsName (registry.next name) := by
  unfold next
  split
  · unfold variant
    rw [String.append_assoc]
    exact h.append (IsLegalText.append (by decide) (isLegalText_toString_nat _))
  · exact h

/-- Documents are labelled by names. -/
theorem Kind.isName_label {kind : Kind} {document : Members} {label : String}
    (h : kind.converter.label document = .ok label) : IsName label := by
  have hown : ∀ {owner : Kind}, labelOf owner document = .ok label → IsName label := by
    intro owner h
    unfold labelOf at h
    split at h
    · cases hid : resourceId owner document with
      | error fault =>
        rw [hid] at h
        cases h
      | ok id =>
        rw [hid] at h
        rw [← Except.ok.inj h]
        exact isName_sanitize _
    · rw [← Except.ok.inj h]
      exact isName_sanitize _
  cases kind with
  | «variable» =>
    rw [← Except.ok.inj h]
    exact isName_sanitizeComposite _
  | connectorInstance => exact hown h
  | flow => exact hown h
  | application => exact hown h
  | flowPolicy => exact hown h

/-! ### Labels -/

namespace Entry

/-- The label of a document that takes part. -/
def label (entry : Entry) : String :=
  (entry.ref.kind.converter.label entry.document).toOption.getD ""

/-- The resource of a document under its label. -/
def resource (entry : Entry) : Resource :=
  ⟨entry.ref, entry.label⟩

end Entry

theorem Intake.label_of_identify {converter : Converter} {document : Members} {ref : Ref}
    {label : String} (h : identify converter document = .ok (ref, label)) :
    converter.label document = .ok label := by
  unfold identify at h
  cases hid : resourceId converter.kind document with
  | error fault =>
    rw [hid] at h
    cases h
  | ok id =>
    cases hlabel : converter.label document with
    | error fault =>
      rw [hid, hlabel] at h
      cases h
    | ok own =>
      rw [hid, hlabel] at h
      obtain ⟨-, rfl⟩ := Prod.mk.inj (Except.ok.inj h)
      rfl

/-- A candidate is labelled by the label of its document, which is a name. -/
theorem Scope.label_of_fate {scope : Scope} {kind : Kind} {document : Members} {entry : Entry}
    {label : String} (h : scope.fate kind document = .candidate entry label) :
    entry.label = label ∧ IsName label := by
  obtain ⟨rfl, rfl, -, -, hidentify⟩ := Scope.fate_eq_candidate h
  have hlabel := Intake.label_of_identify hidentify
  refine ⟨?_, Kind.isName_label hlabel⟩
  rw [Entry.label, hlabel]
  rfl

namespace Intake

/-- Taking in further documents leaves every resource with a name. -/
theorem isName_foldl_take {scope : Scope} {intake : Intake}
    (h : ∀ r ∈ intake.graph.resources, IsName r.name) (documents : List (Kind × Members)) :
    ∀ r ∈ (documents.foldl (take scope) intake).graph.resources, IsName r.name := by
  induction documents generalizing intake with
  | nil => exact h
  | cons document rest ih =>
    refine ih ?_
    unfold take
    cases hfate : scope.fate document.1 document.2 with
    | candidate entry label =>
      dsimp only
      split
      · exact h
      · intro r hr
        rcases List.mem_append.1 hr with hr | hr
        · exact h r hr
        · rw [List.mem_singleton.1 hr]
          exact intake.graph.names.isName_next (Scope.label_of_fate hfate).2
    | _ => exact h

/-! ### Resources that are named by their labels -/

/-- Every resource is named by its label. -/
structure NamedByLabels (intake : Intake) : Prop where
  resources : intake.graph.resources = intake.entries.map Entry.resource
  issued : ∀ name ∈ intake.graph.names.issued, name ∈ intake.entries.map Entry.label

/-- A new label is handed out as it is. -/
theorem NamedByLabels.enlist {intake : Intake} (h : intake.NamedByLabels) {entry : Entry}
    (hnew : entry.label ∉ intake.entries.map Entry.label) :
    (intake.enlist entry entry.label).NamedByLabels := by
  have hnext : intake.graph.names.next entry.label = entry.label := by
    unfold NameRegistry.next
    rw [if_neg]
    exact fun hmem => hnew (h.issued _ (List.contains_iff_mem.1 hmem))
  constructor
  · simp [Intake.enlist, hnext, h.resources, Entry.resource]
  · intro name hname
    simp only [Intake.enlist, NameRegistry.issued_request, hnext] at hname
    rw [Intake.enlist, List.map_append, List.mem_append]
    rcases List.mem_cons.1 hname with rfl | hname
    · exact Or.inr (by simp)
    · exact Or.inl (h.issued name hname)

/-- Further documents whose labels are new and differ are named by them. -/
theorem NamedByLabels.foldl_take {scope : Scope} {intake : Intake} (h : intake.NamedByLabels)
    {documents : List (Kind × Members)}
    (hnodup : ((intake.entries ++ documents.filterMap scope.candidate?).map Entry.label).Nodup) :
    (documents.foldl (take scope) intake).NamedByLabels := by
  induction documents generalizing intake with
  | nil => exact h
  | cons document rest ih =>
    rw [List.filterMap_cons] at hnodup
    rw [List.foldl_cons]
    unfold take
    cases hfate : scope.fate document.1 document.2 with
    | candidate entry label =>
      have hcandidate : scope.candidate? document = some entry := by
        simp [Scope.candidate?, hfate]
      obtain ⟨rfl, -⟩ := Scope.label_of_fate hfate
      rw [hcandidate] at hnodup
      dsimp only at hnodup ⊢
      split
      · -- a document that is passed over has no part in what follows
        refine ih ⟨h.resources, h.issued⟩ (hnodup.sublist ?_)
        exact (List.Sublist.append (List.Sublist.refl _) (List.sublist_cons_self _ _)).map _
      · have hnew : entry.label ∉ intake.entries.map Entry.label := by
          rw [List.map_append, List.map_cons] at hnodup
          intro hmem
          exact (List.disjoint_of_nodup_append hnodup) hmem List.mem_cons_self
        refine ih (h.enlist hnew) ?_
        rw [← List.singleton_append, ← List.append_assoc] at hnodup
        exact hnodup
    | _ =>
      have hcandidate : scope.candidate? document = none := by
        simp [Scope.candidate?, hfate]
      rw [hcandidate] at hnodup
      exact ih ⟨h.resources, h.issued⟩ hnodup

end Intake

namespace Batch

variable {settings : ExportSettings} {batch : Batch}

/-- The resources of a batch are named by names. -/
theorem isName_intake : ∀ r ∈ (batch.intake settings).graph.resources, IsName r.name :=
  Intake.isName_foldl_take (by simp) batch.inOrder

/-- Where no two labels are the same, the resources are named by them. -/
theorem resources_intake
    (hnodup : ((batch.inOrder.filterMap settings.scope.candidate?).map Entry.label).Nodup) :
    (batch.intake settings).graph.resources =
      (batch.intake settings).entries.map Entry.resource := by
  have hempty : Intake.NamedByLabels { ownership := { merges := settings.mergesOwnership } } :=
    ⟨rfl, by simp⟩
  exact (hempty.foldl_take (by simpa using hnodup)).resources

end Batch

end HclExport
