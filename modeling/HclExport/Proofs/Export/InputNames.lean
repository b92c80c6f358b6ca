import HclExport.Proofs.Conversion.Substitution
import HclExport.Proofs.Export.Backing
import HclExport.Proofs.Export.Naming

/-!
# Names of inputs

The name of an input is put together from the name of its resource and that of its property,
with an underscore between them. Both may hold underscores themselves, so that two inputs of
different connector instances can have one name: what one has at the end of its resource name,
the other has at the start of its property. Nothing else makes two names the same.

## Main definitions

* `InputVariable.Stands` — the name of an input comes from a resource and a property.
* `InputVariable.RunsInto` — the property of an input starts with what another has at the end of
  the name of its resource.

## Main results

* `joined_eq_iff` — when two texts joined by an underscore are the same.
* `Intake.stands_of_mem_taken` — every input comes from a registered resource.
* `ExportResult.inputs_name_eq_iff` — **when two inputs have one name.**
-/

namespace HclExport

/-! ### Texts joined by an underscore -/

theorem toList_joined (a p : String) : (a ++ "_" ++ p).toList = a.toList ++ '_' :: p.toList := by
  have hseparator : "_".toList = ['_'] := by decide
  rw [String.toList_append, String.toList_append, hseparator, List.append_assoc,
    List.singleton_append]

/-- Texts joined by an underscore are the same if their parts are, or if one front goes on where
the other one ends. -/
theorem joined_eq_iff {a b p q : String} :
    a ++ "_" ++ p = b ++ "_" ++ q ↔
      (a = b ∧ p = q) ∨ (∃ m, b = a ++ "_" ++ m ∧ p = m ++ "_" ++ q) ∨
        ∃ m, a = b ++ "_" ++ m ∧ q = m ++ "_" ++ p := by
  rw [← String.toList_inj, toList_joined, toList_joined, append_cons_eq_iff]
  refine or_congr (by simp [String.toList_inj]) (or_congr ?_ ?_)
  · constructor
    · rintro ⟨m, hb, hp⟩
      refine ⟨String.ofList m, String.toList_inj.1 ?_, String.toList_inj.1 ?_⟩
      · rw [toList_joined, String.toList_ofList, hb]
      · rw [toList_joined, String.toList_ofList, hp]
    · rintro ⟨m, rfl, rfl⟩
      exact ⟨m.toList, toList_joined _ _, toList_joined _ _⟩
  · constructor
    · rintro ⟨m, ha, hq⟩
      refine ⟨String.ofList m, String.toList_inj.1 ?_, String.toList_inj.1 ?_⟩
      · rw [toList_joined, String.toList_ofList, ha]
      · rw [toList_joined, String.toList_ofList, hq]
    · rintro ⟨m, rfl, rfl⟩
      exact ⟨m.toList, toList_joined _ _, toList_joined _ _⟩

theorem stripHead_nameHead (rest : String) : stripHead (nameHead ++ rest) = rest := by
  have hhead : (nameHead ++ rest).toList = nameHead.toList ++ rest.toList := String.toList_append
  unfold stripHead
  dsimp only
  rw [hhead, if_pos (List.isPrefixOf_iff_prefix.2 (List.prefix_append _ _)),
    ← String.length_toList, List.drop_left, String.ofList_toList]

/-- A name is its head and what stands behind it. -/
theorem IsName.nameHead_stripHead {name : String} (h : IsName name) :
    nameHead ++ stripHead name = name := by
  obtain ⟨rest, rfl, -⟩ := h
  rw [stripHead_nameHead]

/-! ### Inputs -/

namespace InputVariable

/-- An input stands for a property of a connector instance, or for the value of a variable, and
its name comes from the resource and the property. -/
def Stands (v : InputVariable) : Prop :=
  (v.kind = .connectorInstance ∧ ∃ property,
    v.path = "properties." ++ property ∧ v.name = connectorInputName v.resourceName property) ∨
  (v.kind = .variable ∧ v.path = "value" ∧ v.name = valueInputName v.resourceName)

/-- The property of an input starts with what the other input has at the end of the name of its
resource, and goes on with the property of the other. -/
def RunsInto (v w : InputVariable) : Prop :=
  v.kind = .connectorInstance ∧ w.kind = .connectorInstance ∧ ∃ middle property,
    w.resourceName = v.resourceName ++ "_" ++ middle ∧
    v.path = "properties." ++ (middle ++ "_" ++ property) ∧ w.path = "properties." ++ property

end InputVariable

theorem stands_of_mem_connectorInputs {rules : PropertyRules} {document : Members}
    {resourceName : String} {v : InputVariable}
    (h : v ∈ connectorInputs rules document resourceName) :
    v.Stands ∧ v.kind = .connectorInstance ∧ v.resourceName = resourceName := by
  obtain ⟨property, value, hfrom⟩ := comesFrom_of_mem_connectorInputs h
  refine ⟨Or.inl ⟨hfrom.kind, property, hfrom.path, ?_⟩, hfrom.kind, hfrom.resourceName⟩
  rw [hfrom.resourceName]
  exact hfrom.name

theorem stands_of_mem_valueInputs {document : Members} {resourceName : String} {v : InputVariable}
    (h : v ∈ valueInputs document resourceName) :
    v.Stands ∧ v.kind = .variable ∧ v.resourceName = resourceName := by
  unfold valueInputs at h
  dsimp only at h
  split at h
  · obtain rfl := List.mem_singleton.1 h
    exact ⟨Or.inr ⟨rfl, rfl, rfl⟩, rfl, rfl⟩
  · cases h

theorem Kind.stands_of_mem_inputs {kind : Kind} {document : Members} {resourceName : String}
    {v : InputVariable} (h : v ∈ kind.converter.inputs document resourceName) :
    v.Stands ∧ v.kind = kind ∧ v.resourceName = resourceName := by
  cases kind with
  | «variable» => exact stands_of_mem_valueInputs h
  | connectorInstance => exact stands_of_mem_connectorInputs h
  | flow => cases h
  | application => cases h
  | flowPolicy => cases h

/-- A block takes from outside what its converter lists for the name of the block. -/
theorem Kind.ensures_inputs (kind : Kind) (context : Context) (document : Members)
    (answer : Request → Hcl.Expression) :
    (kind.converter.draft context document).Ensures answer fun block =>
      block.inputs = kind.converter.inputs document block.name := by
  cases kind with
  | «variable» =>
    exact .bind fun _ _ => .bind fun _ _ => .bind fun _ _ => .bind fun _ _ => .bind fun _ _ =>
      .pure rfl
  | connectorInstance =>
    exact .bind fun _ _ => .bind fun _ _ => .bind fun _ _ => .bind fun _ _ => .pure rfl
  | flow =>
    refine .bind fun _ _ => .bind fun _ _ => .bind fun _ _ => .bind fun _ _ => ?_
    exact .bind fun _ _ => .bind fun _ _ => .bind fun _ _ => .bind fun _ _ => .bind fun _ _ =>
      .pure rfl
  | application =>
    exact .bind fun _ _ => .bind fun _ _ => .bind fun _ _ => .pure rfl
  | flowPolicy =>
    refine .bind fun _ _ => .bind fun _ _ => .bind fun _ _ => ?_
    exact .bind fun _ _ => .bind fun _ _ => .bind fun _ _ => .bind fun _ _ => .pure rfl

/-- Every input of a document that takes part stands for a property of its resource, under the
registered name. -/
theorem Intake.Registered.stands_of_mem_taken {intake : Intake} (h : intake.Registered)
    {settings : ExportSettings} {entry : Entry} (hentry : entry ∈ intake.entries)
    {v : InputVariable} (hv : v ∈ entry.taken (intake.context settings)) :
    v.Stands ∧ ∃ r ∈ intake.graph.resources, r.ref.kind = v.kind ∧ r.name = v.resourceName := by
  unfold Entry.taken Converter.taken at hv
  split at hv
  next block hblock =>
    have hblock' : entry.block? (intake.context settings) = some block := hblock
    obtain ⟨imports, houtcome⟩ := Entry.block?_eq_some_iff.1 hblock'
    rw [Kind.ensures_inputs _ _ _ _ block (Entry.result_of_outcome_ok houtcome)] at hv
    obtain ⟨hstands, hkind, hname⟩ := Kind.stands_of_mem_inputs hv
    obtain ⟨r, hr, hrname⟩ := (h.isFor_of_block? hentry hblock').registered
    refine ⟨hstands, r, Graph.mem_of_find? hr, ?_, hrname.trans hname.symm⟩
    rw [hkind, Graph.ref_of_find? hr]
  next => cases hv

/-! ### When names are the same -/

/-- The name of an input of a connector instance is never that of a value. -/
theorem connectorInputName_ne_valueInputName (a property b : String) :
    connectorInputName a property ≠ valueInputName b := by
  intro h
  have hconnection :
      "davinci_connection_".toList = "davinci_".toList ++ 'c' :: "onnection_".toList := by decide
  have hvariable : "davinci_variable_".toList = "davinci_".toList ++ 'v' :: "ariable_".toList := by
    decide
  -- they differ in the word behind the first underscore
  unfold connectorInputName valueInputName at h
  rw [← String.toList_inj] at h
  simp only [String.toList_append, hconnection, hvariable, List.append_assoc, List.cons_append,
    List.append_cancel_left_eq] at h
  exact absurd (List.head_eq_of_cons_eq h) (by decide)

theorem valueInputName_inj {a b : String} (ha : IsName a) (hb : IsName b) :
    valueInputName a = valueInputName b ↔ a = b := by
  constructor
  · intro h
    unfold valueInputName at h
    have hstrip := (String.append_right_inj _).1 ((String.append_left_inj _).1 h)
    rw [← ha.nameHead_stripHead, ← hb.nameHead_stripHead, hstrip]
  · rintro rfl
    rfl

theorem connectorInputName_eq_iff {a b p q : String} (ha : IsName a) (hb : IsName b) :
    connectorInputName a p = connectorInputName b q ↔
      (a = b ∧ p = q) ∨ (∃ m, b = a ++ "_" ++ m ∧ p = m ++ "_" ++ q) ∨
        ∃ m, a = b ++ "_" ++ m ∧ q = m ++ "_" ++ p := by
  obtain ⟨x, rfl, -⟩ := ha
  obtain ⟨y, rfl, -⟩ := hb
  unfold connectorInputName
  simp only [stripHead_nameHead, String.append_assoc, String.append_right_inj]
  have hjoined := joined_eq_iff (a := x) (b := y) (p := p) (q := q)
  simpa only [String.append_assoc] using hjoined

namespace InputVariable

/-- Two inputs have one name if they stand for the same property of the same resource, or one
of them runs into the other. -/
theorem name_eq_iff {v w : InputVariable} (hv : v.Stands) (hw : w.Stands)
    (hvName : IsName v.resourceName) (hwName : IsName w.resourceName) :
    v.name = w.name ↔
      (v.kind = w.kind ∧ v.resourceName = w.resourceName ∧ v.path = w.path) ∨ v.RunsInto w ∨
        w.RunsInto v := by
  rcases hv with ⟨hvKind, p, hvPath, hvEq⟩ | ⟨hvKind, hvPath, hvEq⟩
  · rcases hw with ⟨hwKind, q, hwPath, hwEq⟩ | ⟨hwKind, hwPath, hwEq⟩
    · -- two connector instances
      rw [hvEq, hwEq, connectorInputName_eq_iff hvName hwName]
      refine or_congr ?_ (or_congr ?_ ?_)
      · simp [hvKind, hwKind, hvPath, hwPath]
      · constructor
        · rintro ⟨m, hname, rfl⟩
          exact ⟨hvKind, hwKind, m, q, hname, hvPath, hwPath⟩
        · rintro ⟨-, -, m, property, hname, hvPath', hwPath'⟩
          have hp := (String.append_right_inj _).1 (hvPath.symm.trans hvPath')
          have hq := (String.append_right_inj _).1 (hwPath.symm.trans hwPath')
          exact ⟨m, hname, by rw [hp, hq, String.append_assoc]⟩
      · constructor
        · rintro ⟨m, hname, rfl⟩
          exact ⟨hwKind, hvKind, m, p, hname, hwPath, hvPath⟩
        · rintro ⟨-, -, m, property, hname, hwPath', hvPath'⟩
          have hp := (String.append_right_inj _).1 (hvPath.symm.trans hvPath')
          have hq := (String.append_right_inj _).1 (hwPath.symm.trans hwPath')
          exact ⟨m, hname, by rw [hq, hp, String.append_assoc]⟩
    · rw [hvEq, hwEq]
      simp [RunsInto, hvKind, hwKind, connectorInputName_ne_valueInputName]
  · rcases hw with ⟨hwKind, q, hwPath, hwEq⟩ | ⟨hwKind, hwPath, hwEq⟩
    · rw [hvEq, hwEq]
      simp [RunsInto, hvKind, hwKind, (connectorInputName_ne_valueInputName _ _ _).symm]
    · rw [hvEq, hwEq, valueInputName_inj hvName hwName]
      simp [RunsInto, hvKind, hwKind, hvPath, hwPath]

end InputVariable

namespace ExportResult

variable {settings : ExportSettings} {batch : Batch} {result : ExportResult}

/-- **When two inputs of an export have one name.** Every input belongs to exactly one registered
resource, and two of them share a name if they stand for the same property of the same resource,
or if one runs into the other, and in no other case. -/
theorem inputs_name_eq_iff (h : runExport .standard settings batch = .ok result)
    {v w : InputVariable} (hv : v ∈ result.ledger.inputs) (hw : w ∈ result.ledger.inputs) :
    (∃ r ∈ result.graph.graph.resources, r.ref.kind = v.kind ∧
      ∀ s ∈ result.graph.graph.resources, s.name = v.resourceName ↔ s = r) ∧
    (v.name = w.name ↔
      (v.kind = w.kind ∧ v.resourceName = w.resourceName ∧ v.path = w.path) ∨ v.RunsInto w ∨
        w.RunsInto v) := by
  obtain ⟨-, rfl⟩ := runExport_standard.1 h
  have hregistered := (batch.complete_intake settings).toRegistered
  have hgiven : ∀ input ∈ (batch.result settings).ledger.inputs, input.Stands ∧
      ∃ r ∈ (batch.intake settings).graph.resources, r.ref.kind = input.kind ∧
        r.name = input.resourceName := by
    intro input hinput
    obtain ⟨entry, hentry, htaken⟩ :=
      List.mem_flatMap.1 ((batch.inputs_perm settings).mem_iff.1 hinput)
    exact hregistered.stands_of_mem_taken hentry htaken
  obtain ⟨hvStands, r, hr, hrKind, hrName⟩ := hgiven v hv
  obtain ⟨hwStands, s, hs, -, hsName⟩ := hgiven w hw
  refine ⟨⟨r, hr, hrKind, fun t ht => ?_⟩, InputVariable.name_eq_iff hvStands hwStands ?_ ?_⟩
  · rw [← hrName]
    exact ⟨List.inj_on_of_nodup_map hregistered.wellFormed.names_nodup ht hr, congrArg _⟩
  · rw [← hrName]
    exact Batch.isName_intake r hr
  · rw [← hsName]
    exact Batch.isName_intake s hs

end ExportResult

/-- Two connector instances; the property of the one starts with what the name of the other has
at its end. -/
def overlappingConnectors : Batch where
  documents :=
    [(.connectorInstance, connector "c" "A" [("b_secret", .obj [("value", .str "one")])]),
     (.connectorInstance, connector "d" "A_b" [("secret", .str mask)])]
where
  connector (id name : String) (properties : Members) : Members :=
    [("id", .str id), ("name", .str name), ("connector", .obj [("id", .str "f")]),
     ("properties", .obj properties)]

namespace ExportResult

/-- What is told apart of an input: its resource, its path, its name and whether it is secret. -/
def inputRows (result : ExportResult) : List (String × String × String × Bool) :=
  result.ledger.inputs.map fun v => (v.resourceName, v.path, v.name, v.isSensitive)

/-- The inputs that are declared. -/
def declared (result : ExportResult) : List InputVariable :=
  declareOnce [] (groupInputs Kind.all result.ledger.inputs)

theorem inputs_name_eq_iff_overlappingConnectors :
    ∃ result, runExport .standard .skipping overlappingConnectors = .ok result ∧
      ∃ v ∈ result.ledger.inputs, ∃ w ∈ result.ledger.inputs, v.name = w.name ∧
        v.resourceName ≠ w.resourceName ∧ (v.RunsInto w ∨ w.RunsInto v) := by
  have h : (runExport .standard .skipping overlappingConnectors).toOption.any (fun result =>
      result.ledger.inputs.any fun v => result.ledger.inputs.any fun w =>
        v.name == w.name && v.resourceName != w.resourceName) = true := by
    decide +kernel
  obtain ⟨result, hresult, htest⟩ := exists_ok_of_any h
  obtain ⟨v, hv, htest⟩ := List.any_eq_true.1 htest
  obtain ⟨w, hw, htest⟩ := List.any_eq_true.1 htest
  obtain ⟨hname, hresource⟩ := Bool.and_eq_true_iff.1 htest
  have hname : v.name = w.name := eq_of_beq hname
  have hresource : v.resourceName ≠ w.resourceName := bne_iff_ne.1 hresource
  rcases (inputs_name_eq_iff hresult hv hw).2.1 hname with ⟨-, hsame, -⟩ | hruns
  · exact absurd hsame hresource
  · exact ⟨result, hresult, v, hv, w, hw, hname, hresource, hruns⟩

/-- The secret of one connector instance has the name of a property of the other: it is not
declared itself, and takes the value that the other has by default. -/
theorem inputs_share_name_overlappingConnectors :
    ∃ result, runExport .standard .skipping overlappingConnectors = .ok result ∧
      result.inputRows =
        [("pingcli__A", "properties.b_secret", "davinci_connection_A_b_secret", false),
         ("pingcli__A_b", "properties.secret", "davinci_connection_A_b_secret", true)] ∧
      result.declared.map (fun v => (v.name, v.default?.map Json.display, v.isSensitive)) =
        [("davinci_connection_A_b_secret", some "one", false)] := by
  have h : (runExport .standard .skipping overlappingConnectors).toOption.any (fun result =>
      result.inputRows ==
        [("pingcli__A", "properties.b_secret", "davinci_connection_A_b_secret", false),
         ("pingcli__A_b", "properties.secret", "davinci_connection_A_b_secret", true)] &&
      result.declared.map (fun v => (v.name, v.default?.map Json.display, v.isSensitive)) ==
        [("davinci_connection_A_b_secret", some "one", false)]) = true := by
    decide +kernel
  obtain ⟨result, hresult, htest⟩ := exists_ok_of_any h
  obtain ⟨hinputs, hdeclared⟩ := Bool.and_eq_true_iff.1 htest
  exact ⟨result, hresult, eq_of_beq hinputs, eq_of_beq hdeclared⟩

end ExportResult

end HclExport
