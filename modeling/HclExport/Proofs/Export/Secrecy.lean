import HclExport.Proofs.Conversion.SameBut
import HclExport.Proofs.Export.Alike
import HclExport.Proofs.Export.Run

/-!
# Secrets are not put out

The value of a secret variable is written only if it is masked, and then as a reference to an
input; and of the key of an application only whether it is in use. So documents that differ in
these alone read the same.

## Main definitions

* `Kind.SameButSecrets`, `Batch.SameButSecrets` — documents and batches that differ in secrets
  at most.

## Main results

* `Kind.SameButSecrets.alike` — documents that differ in secrets read the same.
* `Batch.published_eq_of_secrets` — **what an export puts out does not depend on secrets.**
-/

namespace HclExport

/-! ### Secret values of variables -/

/-- A secret value that is not masked is not taken from outside. -/
theorem valueInputs_of_secret {document : Members} {dataType : String}
    (htype : document.get? "dataType" = some (.str dataType)) (hsecret : lower dataType = "secret")
    (hvalue : isMasked (document.get "value") = false) (resourceName : String) :
    valueInputs document resourceName = [] := by
  have hdisplay : displayMember document "dataType" = dataType := by
    unfold displayMember
    rw [htype]
    rfl
  have hdeclared : isSecretValue document = true := by
    unfold isSecretValue
    rw [hdisplay, hsecret]
    rfl
  simp [valueInputs, hdeclared, hvalue]

/-- Nor is it written in place. -/
theorem valueLine?_of_secret {dataType : String} (hsecret : lower dataType = "secret")
    (usesVariables : Bool) (value : Json) :
    valueLine? usesVariables dataType value [] = none := by
  unfold valueLine?
  rw [if_pos hsecret]
  rfl

theorem Draft.lift_ok_bind {α β : Type} (a : α) (next : α → Draft β) :
    (liftM (orFail (.ok a)) >>= next) = next a := rfl

/-- The draft of a secret variable does not depend on its value, as long as that is not
masked. -/
theorem draftVariable_congr {a b : Members} (h : Members.SameBut "value" a b) {dataType : String}
    (htype : a.get? "dataType" = some (.str dataType)) (hsecret : lower dataType = "secret")
    (ha : isMasked (a.get "value") = false) (hb : isMasked (b.get "value") = false)
    (context : Context) : draftVariable context a = draftVariable context b := by
  have htype' : b.get? "dataType" = some (.str dataType) := by
    rw [← h "dataType" (by decide), htype]
  have hrequired : requireText .variable b "dataType" "variable data_type" = .ok dataType := by
    have htext : b.text "dataType" = dataType := by
      unfold Members.text Members.get
      rw [htype']
      rfl
    have hne : dataType ≠ "" := by
      rintro rfl
      exact absurd hsecret (by decide)
    unfold requireText
    rw [htext, if_neg hne]
  have hflow : owningFlowItems a = owningFlowItems b := by
    unfold owningFlowItems
    rw [h.inner (by decide)]
  unfold draftVariable
  rw [h.requireText (by decide) (by decide), h.requireText (by decide) (by decide),
    h.requireText (by decide) (by decide), h.resourceId (by decide), hrequired]
  -- nothing is taken from outside on either side, and nothing is written in place
  simp only [Draft.lift_ok_bind, valueInputs_of_secret htype hsecret ha,
    valueInputs_of_secret htype' hsecret hb, valueLine?_of_secret hsecret, hflow]
  rw [h.flag? (by decide), h.textPair (by decide), h.numberPair (by decide),
    h.numberPair (by decide)]

/-! ### Keys of applications -/

theorem draftApplication_congr {a b : Members} (h : Members.SameBut "apiKey" a b)
    {key key' : Members} (ha : a.get? "apiKey" = some (.obj key))
    (hb : b.get? "apiKey" = some (.obj key'))
    (henabled : key.get? "enabled" = key'.get? "enabled") (context : Context) :
    draftApplication context a = draftApplication context b := by
  have hget : a.get "apiKey" = .obj key := by
    rw [Members.get, ha, Option.getD_some]
  have hget' : b.get "apiKey" = .obj key' := by
    rw [Members.get, hb, Option.getD_some]
  have hflag : flagPair key "enabled" "enabled" = flagPair key' "enabled" "enabled" := by
    unfold flagPair Members.flag? Members.get
    rw [henabled]
  have hkey : ∀ {body : Members → List Hcl.Item}, body key = body key' →
      objectItems a "apiKey" "api_key" body = objectItems b "apiKey" "api_key" body := by
    intro body hbody
    unfold objectItems
    rw [hget, hget']
    dsimp only
    rw [hbody]
  unfold draftApplication
  rw [h.requireText (by decide) (by decide), h.resourceId (by decide)]
  simp only [hkey, hflag, h.objectItems (by decide : "oauth" ≠ "apiKey")]

/-! ### Documents and batches that differ in secrets -/

/-- Documents of a kind that differ at most in the value of a variable that is declared a
secret, and is masked on neither side, or in the key of an application, apart from whether it is
in use. -/
inductive Kind.SameButSecrets : Kind → Members → Members → Prop
  /-- The documents are the same. -/
  | same (kind : Kind) (document : Members) : SameButSecrets kind document document
  /-- The documents differ in the value of a secret variable. -/
  | value {a b : Members} {dataType : String} (h : Members.SameBut "value" a b)
      (htype : a.get? "dataType" = some (.str dataType)) (hsecret : lower dataType = "secret")
      (ha : isMasked (a.get "value") = false) (hb : isMasked (b.get "value") = false) :
    SameButSecrets .variable a b
  /-- The documents differ in the key of an application. -/
  | apiKey {a b key key' : Members} (h : Members.SameBut "apiKey" a b)
      (ha : a.get? "apiKey" = some (.obj key)) (hb : b.get? "apiKey" = some (.obj key'))
      (henabled : key.get? "enabled" = key'.get? "enabled") :
    SameButSecrets .application a b

/-- Documents that differ in secrets read the same. -/
theorem Kind.SameButSecrets.alike {kind : Kind} {a b : Members} (h : kind.SameButSecrets a b) :
    kind.Alike a b := by
  cases h with
  | same document => exact .refl kind _
  | @value _ _ dataType h htype hsecret ha hb =>
    refine ⟨h.resourceId (by decide), ?_, ?_, h _ (by decide), h _ (by decide), ?_, ?_, ?_⟩
    · show Except.ok (sanitizeComposite [a.text "name", a.text "context"]) = _
      rw [h.text (by decide), h.text (by decide)]
      rfl
    · unfold ownerOf?
      dsimp only
      rw [h.inner (by decide)]
    · intro source hkind
      unfold parseReferences
      rw [hkind]
      rfl
    · exact fun _ => rfl
    · exact draftVariable_congr h htype hsecret ha hb
  | @apiKey _ _ key key' h ha hb henabled =>
    have hidentity : resourceId .application a = resourceId .application b :=
      h.resourceId (by decide)
    refine ⟨hidentity, ?_, rfl, h _ (by decide), h _ (by decide), ?_, ?_, ?_⟩
    · show labelOf .application a = labelOf .application b
      unfold labelOf
      rw [h.text (by decide), hidentity]
    · intro source hkind
      unfold parseReferences
      rw [hkind]
      rfl
    · exact fun _ => rfl
    · exact draftApplication_congr h ha hb henabled

/-- Batches with the same documents in the same places, up to secrets. -/
def Batch.SameButSecrets (batch other : Batch) : Prop :=
  List.Forall₂ (fun x y => x.1 = y.1 ∧ x.1.SameButSecrets x.2 y.2)
    batch.documents other.documents

/-- **What an export puts out does not depend on secrets.** Exports of batches that differ in
secrets at most either fail in the same way, or put out the same configuration, inputs, imports,
metrics and report. -/
theorem Batch.published_eq_of_secrets {batch other : Batch} (h : batch.SameButSecrets other)
    (settings : ExportSettings) :
    (runExport .standard settings batch).map ExportResult.published =
      (runExport .standard settings other).map ExportResult.published := by
  have halike : batch.Alike other :=
    List.Forall₂.imp (fun _ _ hxy => ⟨hxy.1, hxy.2.alike⟩) h
  exact halike.published_eq settings

/-- A secret variable and an application with a key. -/
def vault (value key : String) : Batch where
  documents :=
    [(.variable,
      [("id", .str "v"), ("name", .str "pin"), ("context", .str "flow"),
       ("dataType", .str "Secret"), ("value", .str value)]),
     (.application,
      [("id", .str "a"), ("name", .str "Shop"),
       ("apiKey", .obj [("enabled", .bool true), ("value", .str key)])])]

theorem Batch.published_eq_of_secrets_vault :
    (vault "1234" "abc").SameButSecrets (vault "5678" "xyz") ∧
      (runExport .standard .plain (vault "1234" "abc")).map ExportResult.published =
        (runExport .standard .plain (vault "5678" "xyz")).map ExportResult.published := by
  have hvariable : Members.SameBut "value"
      [("id", .str "v"), ("name", .str "pin"), ("context", .str "flow"),
       ("dataType", .str "Secret"), ("value", .str "1234")]
      [("id", .str "v"), ("name", .str "pin"), ("context", .str "flow"),
       ("dataType", .str "Secret"), ("value", .str "5678")] := by
    intro other hother
    simp [Members.get?_cons, hother]
  have happlication : Members.SameBut "apiKey"
      [("id", .str "a"), ("name", .str "Shop"),
       ("apiKey", .obj [("enabled", .bool true), ("value", .str "abc")])]
      [("id", .str "a"), ("name", .str "Shop"),
       ("apiKey", .obj [("enabled", .bool true), ("value", .str "xyz")])] := by
    intro other hother
    simp [Members.get?_cons, hother]
  have h : (vault "1234" "abc").SameButSecrets (vault "5678" "xyz") :=
    .cons ⟨rfl, .value hvariable rfl (by decide +kernel) (by decide +kernel) (by decide +kernel)⟩
      (.cons ⟨rfl, .apiKey happlication rfl rfl rfl⟩ .nil)
  exact ⟨h, Batch.published_eq_of_secrets h .plain⟩

end HclExport
