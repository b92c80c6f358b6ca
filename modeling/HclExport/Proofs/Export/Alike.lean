import HclExport.Export.Run
import HclExport.Proofs.Conversion.Emission
import HclExport.Proofs.Export.Intake
import Mathlib.Data.List.Forall2

/-!
# Documents that cannot be told apart

An export reads its documents in a few ways only: by identity and label, for owner and
references, through the draft of the block, and for what a document is called when it is skipped.
If two batches agree in all of these, document by document, their exports cannot be told apart.

## Main definitions

* `Agree` — computations that fail in the same way, or whose results are related.
* `Kind.Alike` — documents of a kind that read the same.
* `Batch.Alike`, `Intake.Alike` — batches of such documents, and what was taken in from them.
* `ExportResult.Published`, `ExportResult.published` — what an export puts out.

## Main results

* `Intake.Alike.accept`, `Intake.Alike.link` — documents are taken in alike, one by one.
* `Intake.agree_ofBatch` — batches are taken in alike.
* `Emission.convertDocuments_congr` — documents are converted to the same.
* `Batch.Alike.published_eq` — what is put out is the same.
-/

namespace HclExport

/-! ### Computations that agree -/

section Agree

variable {ε α β γ δ : Type}

/-- Computations that fail in the same way, or whose results are related. -/
inductive Agree (R : α → β → Prop) : Except ε α → Except ε β → Prop
  | error (failure : ε) : Agree R (.error failure) (.error failure)
  | ok {a : α} {b : β} (h : R a b) : Agree R (.ok a) (.ok b)

theorem Agree.bind {R : α → β → Prop} {S : γ → δ → Prop} {x : Except ε α} {y : Except ε β}
    {f : α → Except ε γ} {g : β → Except ε δ} (h : Agree R x y)
    (hf : ∀ a b, R a b → Agree S (f a) (g b)) : Agree S (x >>= f) (y >>= g) := by
  cases h with
  | error failure => exact .error failure
  | ok h => exact hf _ _ h

/-- A loop over related inputs. -/
theorem Agree.foldlM {R : α → β → Prop} {S : γ → δ → Prop} {f : α → γ → Except ε α}
    {g : β → δ → Except ε β}
    (hstep : ∀ a b c d, R a b → S c d → Agree R (f a c) (g b d)) {xs : List γ} {ys : List δ}
    (hall : List.Forall₂ S xs ys) {a : α} {b : β} (h : R a b) :
    Agree R (xs.foldlM f a) (ys.foldlM g b) := by
  induction hall generalizing a b with
  | nil => exact .ok h
  | cons hfirst _ ih =>
    rw [List.foldlM_cons, List.foldlM_cons]
    exact (hstep _ _ _ _ h hfirst).bind fun _ _ hnext => ih hnext

end Agree

/-- Related lists, cut down to some of their elements. -/
theorem forall₂_map_filter {α β : Type} {R : α → α → Prop} {S : β → β → Prop} {p : α → Bool}
    {f : α → β} (hp : ∀ a b, R a b → p a = p b)
    (hf : ∀ a b, R a b → p a = true → S (f a) (f b)) {xs ys : List α}
    (h : List.Forall₂ R xs ys) :
    List.Forall₂ S ((xs.filter p).map f) ((ys.filter p).map f) := by
  induction h with
  | nil => exact .nil
  | @cons a b xs ys hfirst _ ih =>
    have hsame := hp a b hfirst
    cases ha : p a with
    | false =>
      rw [ha] at hsame
      rw [List.filter_cons_of_neg (by simp [ha]), List.filter_cons_of_neg (by simp [← hsame])]
      exact ih
    | true =>
      rw [ha] at hsame
      rw [List.filter_cons_of_pos ha, List.filter_cons_of_pos hsame.symm]
      exact .cons (hf a b hfirst ha) ih

/-! ### Documents and batches -/

/-- Documents of a kind that read the same, in every way in which they are read. -/
structure Kind.Alike (kind : Kind) (a b : Members) : Prop where
  identity : resourceId kind a = resourceId kind b
  label : kind.converter.label a = kind.converter.label b
  owner : ownerOf? kind a = ownerOf? kind b
  name : a.get? "name" = b.get? "name"
  id : a.get? "id" = b.get? "id"
  references : ∀ source : Resource, source.ref.kind = kind →
    parseReferences source (.obj a) = parseReferences source (.obj b)
  parentId : ∀ context, kind.converter.parentId context a = kind.converter.parentId context b
  draft : ∀ context, kind.converter.draft context a = kind.converter.draft context b

theorem Kind.Alike.refl (kind : Kind) (document : Members) : kind.Alike document document :=
  ⟨rfl, rfl, rfl, rfl, rfl, fun _ _ => rfl, fun _ => rfl, fun _ => rfl⟩

/-- They are called the same when they are skipped. -/
theorem Kind.Alike.resourceOf_eq {kind : Kind} {a b : Members} (h : kind.Alike a b) :
    Problem.resourceOf a = Problem.resourceOf b := by
  unfold Problem.resourceOf Members.get
  rw [h.name, h.id]

/-- Batches whose documents are of the same kinds and read the same. -/
def Batch.Alike (batch other : Batch) : Prop :=
  List.Forall₂ (fun x y => x.1 = y.1 ∧ x.1.Alike x.2 y.2) batch.documents other.documents

/-- Entries under one identity whose documents read the same. -/
def Entry.Alike (entry other : Entry) : Prop :=
  entry.ref = other.ref ∧ entry.ref.kind.Alike entry.document other.document

/-- What was taken in from documents that read the same: the same, apart from the documents. -/
inductive Intake.Alike : Intake → Intake → Prop
  | intro {intake : Intake} {entries : List Entry}
      (h : List.Forall₂ Entry.Alike intake.entries entries) :
    Intake.Alike intake { intake with entries := entries }

theorem Batch.Alike.of {batch other : Batch} (h : batch.Alike other) (kind : Kind) :
    List.Forall₂ kind.Alike (batch.of kind) (other.of kind) := by
  refine forall₂_map_filter ?_ ?_ h
  · rintro x y ⟨hkind, -⟩
    rw [hkind]
  · rintro x y ⟨-, halike⟩ hx
    rwa [of_decide_eq_true hx] at halike

theorem Intake.Alike.documents {intake other : Intake} (h : intake.Alike other) (kind : Kind) :
    List.Forall₂ kind.Alike (intake.documents kind) (other.documents kind) := by
  obtain ⟨hentries⟩ := h
  refine forall₂_map_filter ?_ ?_ hentries
  · rintro x y ⟨href, -⟩
    rw [href]
  · rintro x y ⟨-, halike⟩ hx
    rwa [of_decide_eq_true hx] at halike

/-! ### Taking in -/

namespace Intake

variable {settings : ExportSettings}

/-- A further document is taken in alike. -/
theorem Alike.accept {intake other : Intake} (h : intake.Alike other) {kind : Kind}
    {a b : Members} (hab : kind.Alike a b) :
    Agree Alike (accept settings kind.converter intake a)
      (Intake.accept settings kind.converter other b) := by
  obtain ⟨hentries⟩ := h
  have hidentify : identify kind.converter a = identify kind.converter b := by
    unfold identify
    rw [kind.kind_converter, hab.identity, hab.label]
  have hunidentified : unidentified kind.converter.kind a = unidentified kind.converter.kind b := by
    unfold unidentified
    rw [hab.name]
  unfold Intake.accept
  rw [hidentify, hunidentified]
  cases hresult : identify kind.converter b with
  | error fault =>
    dsimp only
    split
    · exact .error _
    · exact .ok (.intro hentries)
  | ok identity =>
    obtain ⟨ref, label⟩ := identity
    obtain rfl : ref.kind = kind := (kind_of_identify hresult).trans kind.kind_converter
    dsimp only
    split
    · exact .ok (.intro hentries)
    split
    · exact .ok (.intro hentries)
    cases intake.graph.register ref label with
    | error fault => exact .error _
    | ok registered =>
      have hown : own ⟨ref, a⟩ intake.ownership = own ⟨ref, b⟩ intake.ownership := by
        unfold own
        rw [hab.owner]
      dsimp only
      rw [hown]
      exact .ok (.intro (List.rel_append hentries (.cons ⟨rfl, hab⟩ .nil)))

theorem Alike.acceptKind {intake other : Intake} (h : intake.Alike other) {batch batch' : Batch}
    (hbatch : batch.Alike batch') (kind : Kind) :
    Agree Alike (acceptKind .standard settings batch intake kind)
      (Intake.acceptKind .standard settings batch' other kind) := by
  have hdocuments := hbatch.of kind
  unfold Intake.acceptKind
  rw [ConverterRegistry.converter?_standard]
  dsimp only
  split
  · exact Agree.foldlM (fun _ _ _ _ halike hab => halike.accept hab) hdocuments h
  · obtain ⟨hentries⟩ := h
    rw [hdocuments.length_eq]
    exact .ok (.intro hentries)

/-- The references of a document are recorded alike. -/
theorem Alike.link {intake other : Intake} (h : intake.Alike other) {entry entry' : Entry}
    (hentry : entry.Alike entry') :
    Agree Alike (link settings intake entry) (Intake.link settings other entry') := by
  obtain ⟨hentries⟩ := h
  obtain ⟨href, halike⟩ := hentry
  unfold Intake.link
  rw [← href]
  dsimp only
  cases orFail (intake.graph.lookup entry.ref) with
  | error failure => exact .error _
  | ok name =>
    have hparse := halike.references ⟨entry.ref, name⟩ rfl
    simp only [bind, Except.bind]
    rw [← hparse]
    split
    · split
      · exact .ok (.intro hentries)
      · exact .error _
    · split
      · exact .error _
      · exact .ok (.intro hentries)

/-- Batches of documents that read the same are taken in alike. -/
theorem agree_ofBatch {batch other : Batch} (h : batch.Alike other) :
    Agree Alike (ofBatch .standard settings batch) (ofBatch .standard settings other) := by
  have haccept : Agree Alike (acceptBatch .standard settings batch)
      (acceptBatch .standard settings other) := by
    refine Agree.foldlM (S := Eq) ?_ (List.forall₂_same.2 fun _ _ => rfl) (.intro .nil)
    rintro intake intake' kind _ halike rfl
    exact halike.acceptKind h kind
  refine haccept.bind fun intake intake' halike => ?_
  have hentries : List.Forall₂ Entry.Alike intake.entries intake'.entries := by
    obtain ⟨hentries⟩ := halike
    exact hentries
  exact Agree.foldlM (fun _ _ _ _ halike hentry => halike.link hentry) hentries halike

end Intake

/-! ### Converting -/

namespace Emission

theorem convertDocument_congr (context : Context) {kind : Kind} {a b : Members}
    (h : kind.Alike a b) :
    convertDocument context kind.converter a = convertDocument context kind.converter b := by
  have himports : kind.converter.imports context a = kind.converter.imports context b := by
    funext name
    unfold Converter.imports
    rw [kind.kind_converter, h.identity, h.parentId]
  unfold convertDocument Converter.convert
  rw [h.draft, himports]

/-- Documents that read the same are converted to the same, and leave the same behind. -/
theorem convertDocuments_congr (context : Context) {kind : Kind} {xs ys : List Members}
    (h : List.Forall₂ kind.Alike xs ys) (output : KindOutput) (emission : Emission) :
    convertDocuments context kind.converter output emission xs =
      convertDocuments context kind.converter output emission ys := by
  induction h generalizing output emission with
  | nil => rfl
  | cons hfirst _ ih =>
    rw [convertDocuments, convertDocuments, convertDocument_congr context hfirst,
      hfirst.resourceOf_eq]
    split
    next result ledger _ =>
      cases result with
      | ok kept => exact ih _ _
      | error failure =>
        cases failure with
        | fault fault =>
          dsimp only
          rw [ih]
        | _ => rfl

theorem convertKinds_congr (context : Context) {documents others : Kind → List Members}
    (h : ∀ kind : Kind, List.Forall₂ kind.Alike (documents kind) (others kind)) (kinds : List Kind)
    (emission : Emission) :
    convertKinds .standard context documents emission kinds =
      convertKinds .standard context others emission kinds := by
  induction kinds generalizing emission with
  | nil => rfl
  | cons kind rest ih =>
    have hkind : emission.convertKind .standard context kind (documents kind) =
        emission.convertKind .standard context kind (others kind) := by
      unfold convertKind
      rw [ConverterRegistry.converter?_standard]
      exact convertDocuments_congr context (h kind) _ _
    unfold convertKinds
    rw [hkind]
    simp only [ih]

end Emission

/-! ### What is put out -/

namespace ExportResult

/-- What an export puts out: the configuration, the declarations and imports beside it, and the
account of the run. -/
structure Published where
  hcl : String
  inputs : String
  imports : String
  metrics : Metrics
  report : String

/-- What a result puts out. -/
def published (result : ExportResult) : Published where
  hcl := result.hcl
  inputs := result.inputs
  imports := result.imports
  metrics := result.metrics
  report := result.report.text

section Congr

variable (settings : ExportSettings) {batch other : Batch} {intake intake' : Intake}
  (outputs : List KindOutput) (ledger : Ledger)

theorem metrics_congr (h : batch.Alike other) (hintake : intake.Alike intake') :
    metrics ⟨settings, batch, intake, outputs, ledger⟩ =
      metrics ⟨settings, other, intake', outputs, ledger⟩ := by
  have hreceived : ∀ kind, (batch.of kind).length = (other.of kind).length :=
    fun kind => (h.of kind).length_eq
  have hregistered : ∀ kind, (intake.documents kind).length = (intake'.documents kind).length :=
    fun kind => (hintake.documents kind).length_eq
  obtain ⟨hentries⟩ := hintake
  unfold metrics Intake.registered
  simp only [hreceived, hregistered]
  rfl

/-- Only the documents differ between results, and they are not put out. -/
theorem published_congr (h : batch.Alike other) (hintake : intake.Alike intake') :
    published ⟨settings, batch, intake, outputs, ledger⟩ =
      published ⟨settings, other, intake', outputs, ledger⟩ := by
  have hmetrics := metrics_congr settings outputs ledger h hintake
  obtain ⟨hentries⟩ := hintake
  unfold published report
  rw [hmetrics]
  rfl

end Congr

end ExportResult

/-- **Batches whose documents read the same cannot be told apart by their exports**: both fail in
the same way, or put out the same. -/
theorem Batch.Alike.published_eq {batch other : Batch} (h : batch.Alike other)
    (settings : ExportSettings) :
    (runExport .standard settings batch).map ExportResult.published =
      (runExport .standard settings other).map ExportResult.published := by
  unfold runExport
  have hintake : Agree Intake.Alike (Intake.ofBatch .standard settings batch)
      (Intake.ofBatch .standard settings other) := Intake.agree_ofBatch h
  generalize Intake.ofBatch .standard settings batch = first at hintake
  generalize Intake.ofBatch .standard settings other = second at hintake
  cases hintake with
  | error failure => rfl
  | @ok intake intake' halike =>
    have hcontext : intake.context settings = intake'.context settings := by
      obtain ⟨hentries⟩ := halike
      rfl
    have hconvert : Emission.convertAll .standard (intake.context settings) intake.documents {} =
        Emission.convertAll .standard (intake'.context settings) intake'.documents {} := by
      rw [hcontext]
      exact Emission.convertKinds_congr _ halike.documents _ _
    simp only [bind, Except.bind, hconvert]
    cases Emission.convertAll .standard (intake'.context settings) intake'.documents {} with
    | mk outputs emission =>
      cases outputs with
      | error failure => rfl
      | ok outputs => exact congrArg Except.ok (ExportResult.published_congr settings _ _ h halike)

end HclExport
