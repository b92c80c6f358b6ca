import HclExport.Proofs.Conversion.FlowOrder
import HclExport.Proofs.Export.Resembling
import HclExport.Proofs.Export.Run

/-!
# The order of members does not matter

A document is read by the names of its members, and what is written of all the members of an object
is written in the order of their names. So documents that differ in the order of members alone come
to the same blocks. Lists that are written as lists of texts are the exception: an array or an
object in them is put into words as it stands.

## Main definitions

* `Batch.Reordered` — batches that differ in the order of members alone.

## Main results

* `Kind.resembles_of_reordered` — documents that differ in the order of members take part alike.
* `Batch.written_eq_of_reordered` — **what an export writes does not depend on the order of
  members.**
-/

namespace HclExport

/-- Batches with the same documents in the same order, kind by kind, up to the order of members. -/
def Batch.Reordered (batch other : Batch) : Prop :=
  ∀ kind : Kind, List.Forall₂ Members.Reordered (batch.of kind) (other.of kind)

namespace Kind

variable {settings : ExportSettings} {kind : Kind} {a b c : Members}

/-- Documents that come to the blocks of one document. -/
theorem Resembles.of_common (ha : kind.Resembles settings Eq c a)
    (hb : kind.Resembles settings Eq c b) : kind.Resembles settings Eq a b :=
  ⟨ha.identity.symm.trans hb.identity, ha.label.symm.trans hb.label,
    ha.owner.symm.trans hb.owner,
    fun source hkind => (ha.references source hkind).symm.trans (hb.references source hkind),
    fun context => (ha.parentId context).symm.trans (hb.parentId context),
    fun intake => (ha.draft intake).of_common (hb.draft intake)⟩

/-- A document comes to the block of its sorted form. -/
theorem resembles_sorted (settings : ExportSettings) (h : kind.HoldsScalars a) :
    kind.Resembles settings Eq a.sorted a where
  identity := resourceId_sorted a kind
  label := kind.label_sorted a
  owner := by
    unfold ownerOf?
    cases kind <;> simp
  references := fun source _ => parseReferences_sorted source a
  parentId := fun context => kind.parentId_sorted context a
  draft := fun _ => kind.matches_draft_sorted _ _ h

/-- Documents that differ in the order of members take part alike. -/
theorem resembles_of_reordered (settings : ExportSettings) (ha : kind.HoldsScalars a)
    (h : a.Reordered b) : kind.Resembles settings Eq a b := by
  have hb : kind.HoldsScalars b := by
    rw [← kind.holdsScalars_sorted_iff, ← h.sorted_eq, kind.holdsScalars_sorted_iff]
    exact ha
  have hcommon := kind.resembles_sorted settings hb
  rw [← h.sorted_eq] at hcommon
  exact (resembles_sorted settings ha).of_common hcommon

end Kind

/-- **What an export writes does not depend on the order of members.** Take batches with the same
documents in the same order, kind by kind, up to the order of members inside objects, where the
lists that are written as lists of texts hold scalars. Their exports both come to an end or both do
not; and then the configuration, the resources, the imports and the declarations of variables are
the same. -/
theorem Batch.written_eq_of_reordered {settings : ExportSettings} {batch other : Batch}
    (h : batch.Reordered other)
    (hscalars : ∀ kind : Kind, ∀ document ∈ batch.of kind, kind.HoldsScalars document) :
    (runExport .standard settings batch).toOption.map
        (fun result => (result.texts, result.inputs)) =
      (runExport .standard settings other).toOption.map
        (fun result => (result.texts, result.inputs)) := by
  have hresembles : batch.Resembles settings Eq other := by
    intro kind
    have hall := hscalars kind
    have hkind := h kind
    generalize batch.of kind = documents at hall hkind ⊢
    generalize other.of kind = others at hkind ⊢
    induction hkind with
    | nil => exact .nil
    | cons hab _ ih =>
      obtain ⟨hfirst, hrest⟩ := List.forall_mem_cons.1 hall
      exact .cons (kind.resembles_of_reordered settings hfirst hab) (ih hrest)
  refine hresembles.toOption_map_eq (fun _ _ hsame => by rw [hsame]) fun result other hresults => ?_
  rw [hresults.texts_eq fun _ _ hsame => by rw [hsame],
    hresults.inputs_eq fun _ _ hsame => by rw [hsame]]

/-- A connector instance, a flow with settings, and an application with settings for OAuth. -/
def flowAndApplication (settings oauth : Members) : Batch where
  documents :=
    [(.connectorInstance,
      [("id", .str "c"), ("name", .str "Form"),
       ("connector", .obj [("id", .str "formConnector")])]),
     (.flow, ("settings", .obj settings) ::
       flowWithNodes "f" "Login" [[("id", .str "n"), ("connectionId", .str "c")]]),
     (.application, [("id", .str "a"), ("name", .str "Portal"), ("oauth", .obj oauth)])]

/-- Settings of a flow, with a list. -/
def listedSettings : Members :=
  [("useCSP", .bool true), ("cssLinks", .arr [.str "a.css", .str "b.css"])]

/-- Settings for OAuth, with a list. -/
def listedScopes : Members :=
  [("spJwksOpenid", .str "keys"), ("scopes", .arr [.str "openid", .num (.int 1)])]

theorem Batch.written_eq_of_reordered_flowAndApplication :
    (flowAndApplication listedSettings listedScopes).Reordered
      (flowAndApplication listedSettings.reverse listedScopes.reverse) ∧
    (∀ kind : Kind, ∀ document ∈ (flowAndApplication listedSettings listedScopes).of kind,
      kind.HoldsScalars document) ∧
    (runExport .standard .plain (flowAndApplication listedSettings listedScopes)).toOption.isSome =
      true ∧
    (runExport .standard .plain (flowAndApplication listedSettings listedScopes)).toOption.map
        (fun result => (result.texts, result.inputs)) =
      (runExport .standard .plain
        (flowAndApplication listedSettings.reverse listedScopes.reverse)).toOption.map
        (fun result => (result.texts, result.inputs)) := by
  have hreordered : (flowAndApplication listedSettings listedScopes).Reordered
      (flowAndApplication listedSettings.reverse listedScopes.reverse) := by
    intro kind
    match kind with
    | .connectorInstance => exact .cons (.refl _) .nil
    | .flow =>
      refine .cons (.member [] _ "settings" (.members (by decide) ?_)) .nil
      exact (List.reverse_perm _).symm
    | .application =>
      refine .cons (.member [_, _] [] "oauth" (.members (by decide) ?_)) .nil
      exact (List.reverse_perm _).symm
    | .variable | .flowPolicy => exact .nil
  have hscalars : ∀ kind : Kind,
      ∀ document ∈ (flowAndApplication listedSettings listedScopes).of kind,
        kind.HoldsScalars document := by
    intro kind
    cases kind <;> decide +kernel
  have hends : (runExport .standard .plain
      (flowAndApplication listedSettings listedScopes)).toOption.isSome = true := by
    decide +kernel
  exact ⟨hreordered, hscalars, hends, Batch.written_eq_of_reordered hreordered hscalars⟩

end HclExport
