import HclExport.Proofs.Export.Headers
import HclExport.Proofs.Export.InputNames

/-!
# The inputs of an export

What connector instances and variables take from outside is listed with their blocks, and every
variable that stands in a block is that of an input in the list. The inputs of the blocks that are
kept are put in order, kind by kind and by name, and of those with one name the first is declared.
So as long as no name holds what ends a literal, a reader finds one declaration of each name and no
other.

## Main definitions

* `InputVariable.Precedes` — the order in which inputs are declared.
* `Declares` — the first input of each name, in order.
* `InputVariable.header`, `InputVariable.attributes`, `InputVariable.text` — a declaration.
* `InputVariable.IsScalar` — an input with a word for its type and a plain value.
* `ExportResult.orderedInputs` — the inputs of an export in the order in which they are declared.

## Main results

* `groupInputs_perm`, `groupInputs_pairwise` — inputs in order.
* `declares_declareOnce` — what is declared of inputs in order.
* `ExportResult.ledger_inputs` — the inputs of an export are those of its blocks.
* `ExportResult.topHeaders_inputs` — the headers of the declarations.
* `ExportResult.inputs_declared` — **which variables stand in an export, and which are declared.**
-/

namespace HclExport

open Hcl (Item Value topHeaders Outlines Neutral)

/-! ### Inputs in order -/

/-- The order in which inputs are declared: by kind, and those of a kind by name without regard to
case; where this does not tell them apart, as they stand in a list. -/
def InputVariable.Precedes (listed : List InputVariable) (v w : InputVariable) : Prop :=
  v.kind.rank < w.kind.rank ∨
    v.kind = w.kind ∧ lower v.name ≤ lower w.name ∧
      (lower v.name = lower w.name → [v, w].Sublist listed)

theorem groupInputs_perm (inputs : List InputVariable) :
    (groupInputs Kind.all inputs).Perm inputs := by
  have hkinds := flatMap_filter_perm InputVariable.kind inputs Kind.nodup_all
  have hall : inputs.filter (fun v => v.kind ∈ Kind.all) = inputs :=
    List.filter_eq_self.2 fun v _ => decide_eq_true (Kind.mem_all v.kind)
  rw [hall] at hkinds
  refine List.Perm.trans ?_ hkinds
  apply List.Perm.flatMap_left
  intro kind _
  exact sortOn_perm _ _

theorem groupInputs_pairwise (inputs : List InputVariable) :
    (groupInputs Kind.all inputs).Pairwise (InputVariable.Precedes inputs) := by
  have hranks : Kind.all.Pairwise fun kind other => kind.rank < other.rank := by
    decide
  have hkind : ∀ {kind : Kind} {v : InputVariable},
      v ∈ sortOn (fun v => lower v.name) (inputs.filter fun v => v.kind = kind) → v.kind = kind := by
    intro kind v hv
    simpa using (List.mem_filter.1 (mem_sortOn.1 hv)).2
  unfold groupInputs
  rw [List.pairwise_flatMap]
  constructor
  · intro kind _
    -- within a kind, inputs are sorted by their names
    refine (sortOn_stable _ _).imp_of_mem ?_
    intro v w hv hw hle
    refine Or.inr ⟨(hkind hv).trans (hkind hw).symm, hle.1, ?_⟩
    intro heq
    exact (hle.2 heq).trans List.filter_sublist
  · apply hranks.imp
    intro kind other hlt v hv w hw
    rw [← hkind hv, ← hkind hw] at hlt
    exact Or.inl hlt

/-! ### What is declared -/

/-- Of inputs in order, the first of each name. -/
structure Declares (order declared : List InputVariable) : Prop where
  sublist : declared.Sublist order
  nodup : (declared.map InputVariable.name).Nodup
  names : ∀ name, name ∈ declared.map InputVariable.name ↔ name ∈ order.map InputVariable.name
  first : ∀ v ∈ declared, order.find? (fun w => w.name = v.name) = some v

/-- The inputs that are declared are the first of their names that are not declared yet. -/
theorem declareOnce_eq_filter (declared : List String) (order : List InputVariable) :
    declareOnce declared order =
      (firstsBy InputVariable.name order).filter fun v => v.name ∉ declared := by
  induction order generalizing declared with
  | nil => rfl
  | cons v rest ih =>
    rw [declareOnce, firstsBy]
    by_cases hv : v.name ∈ declared
    · rw [if_pos (by simpa using hv), ih, List.filter_cons_of_neg (by simpa using hv),
        List.filter_filter]
      apply List.filter_congr
      intro w _
      -- what has the name of `v` is declared already
      by_cases hw : w.name = v.name
      · simp [hw, hv]
      · simp [hw]
    · rw [if_neg (by simpa using hv), ih, List.filter_cons_of_pos (by simpa using hv),
        List.filter_filter]
      congr 1
      apply List.filter_congr
      intro w _
      by_cases hw : w.name = v.name
      · simp [hw]
      · simp [hw]

theorem declares_declareOnce (order : List InputVariable) :
    Declares order (declareOnce [] order) := by
  have hfirsts : declareOnce [] order = firstsBy InputVariable.name order := by
    rw [declareOnce_eq_filter]
    exact List.filter_eq_self.2 (by simp)
  rw [hfirsts]
  refine ⟨firstsBy_sublist _ _, nodup_map_firstsBy _, ?_, fun v => find?_of_mem_firstsBy⟩
  intro name
  constructor
  · intro hname
    exact ((firstsBy_sublist InputVariable.name order).map _).subset hname
  · intro hname
    exact map_firstsBy_subset InputVariable.name order hname

/-! ### Declarations -/

namespace InputVariable

/-- The header of a declaration. -/
def header (v : InputVariable) : String :=
  "variable \"" ++ v.name ++ "\""

/-- The attributes of a declaration. -/
def attributes (v : InputVariable) : List (String × String) :=
  [("type", v.type)] ++
  (if v.description = "" then [] else [("description", Hcl.quote v.description)]) ++
  (match v.default? with
    | some value => [("default", (Value.ofJson value).nativeText 2)]
    | none => []) ++
  (if v.isSensitive then [("sensitive", "true")] else [])

/-- The text of a declaration with given attributes. -/
def declaration (header : String) (attributes : List (String × String)) : String :=
  trimRight (Item.renderAll [.braced header [.assignAll attributes]])

/-- The text of a declaration. -/
def text (v : InputVariable) : String :=
  declaration v.header v.attributes

/-- The type is a word, and the value is a text, a truth value or a number. -/
structure IsScalar (v : InputVariable) : Prop where
  type : IsWord v.type
  current : ∀ value, v.current = some value → isPrimitive value = true

theorem isWord_inferType (value : Json) : IsWord (inferType value) := by
  unfold inferType
  split
  · decide
  · decide
  · decide

theorem ComesFrom.isScalar {rules : PropertyRules} {resource property : String} {value : Json}
    {v : InputVariable} (h : v.ComesFrom rules resource property value) : v.IsScalar := by
  have htype := h.type
  have hcurrent := h.current
  constructor
  · rw [htype]
    split
    · decide
    · exact isWord_inferType value
  · intro found hfound
    rw [hcurrent] at hfound
    split at hfound
    · cases hfound
    · rw [← Option.some.inj hfound]
      exact h.primitive

end InputVariable

theorem isScalar_of_mem_valueInputs {document : Members} {resourceName : String}
    {v : InputVariable} (h : v ∈ valueInputs document resourceName) : v.IsScalar := by
  unfold valueInputs at h
  dsimp only at h
  split at h
  next hgiven =>
    obtain rfl := List.mem_singleton.1 h
    obtain ⟨hprimitive, -⟩ := Bool.and_eq_true_iff.1 hgiven
    constructor
    · dsimp only
      split
      · decide
      · exact InputVariable.isWord_inferType _
    · intro value hvalue
      dsimp only at hvalue
      split at hvalue
      · cases hvalue
      · rw [← Option.some.inj hvalue]
        exact hprimitive
  next => cases h

theorem Kind.isScalar_of_mem_inputs {kind : Kind} {document : Members} {resourceName : String}
    {v : InputVariable} (h : v ∈ kind.converter.inputs document resourceName) : v.IsScalar := by
  cases kind with
  | «variable» => exact isScalar_of_mem_valueInputs h
  | connectorInstance =>
    obtain ⟨_, _, hfrom⟩ := comesFrom_of_mem_connectorInputs h
    exact hfrom.isScalar
  | flow => cases h
  | application => cases h
  | flowPolicy => cases h

namespace InputVariable

/-- A value that is not an array or an object is neutral where it is written. -/
theorem neutral_nativeText {value : Json} (h : isPrimitive value = true) (indent : Int) :
    Neutral ((Value.ofJson value).nativeText indent) := by
  cases value with
  | str s =>
    simp only [Value.ofJson, Value.nativeText]
    exact Hcl.neutral_quote s
  | bool b =>
    simp only [Value.ofJson, Value.nativeText]
    exact Hcl.neutral_boolText b
  | num n =>
    simp only [Value.ofJson, Value.nativeText]
    exact Hcl.neutral_numberText n
  | _ => cases h

theorem IsScalar.neutral_default {v : InputVariable} (h : v.IsScalar) {value : Json}
    (hvalue : v.default? = some value) : Neutral ((Value.ofJson value).nativeText 2) := by
  unfold default? at hvalue
  split at hvalue
  next current hcurrent =>
    obtain rfl := Option.some.inj hvalue
    exact neutral_nativeText (h.current _ hcurrent) 2
  next =>
    split at hvalue
    · obtain rfl := Option.some.inj hvalue
      simp only [Value.ofJson, Value.nativeText]
      exact Hcl.neutral_quote ""
    · cases hvalue

/-- The attributes of a declaration are tidy. -/
theorem IsScalar.tidyPairs_attributes {v : InputVariable} (h : v.IsScalar) :
    Hcl.TidyPairs v.attributes := by
  unfold attributes
  apply tidyPairs_append
  · apply tidyPairs_append
    · apply tidyPairs_append
      · exact tidyPairs_singleton (by decide) (Hcl.neutral_of_isWord h.type)
      · split
        · exact tidyPairs_nil
        · exact tidyPairs_singleton (by decide) (Hcl.neutral_quote _)
    · split
      next value hvalue =>
        exact tidyPairs_singleton (by decide) (h.neutral_default hvalue)
      next => exact tidyPairs_nil
  · split
    · exact tidyPairs_singleton (by decide) (Hcl.neutral_of_isWord (by decide))
    · exact tidyPairs_nil

/-- A declaration has its header, if nothing in the name ends a literal. -/
theorem IsScalar.outlines {v : InputVariable} (h : v.IsScalar)
    (hname : v.name.toList.all Hcl.isPlain = true) : Outlines (v.text ++ "\n") [v.header] := by
  have hbody : TidyItems [.assignAll v.attributes] :=
    tidyItems_singleton (.assignAll h.tidyPairs_attributes)
  have hparts : ∀ part ∈ [(v.header, [Item.assignAll v.attributes])],
      Hcl.IsHeader part.1 ∧ ∀ item ∈ part.2, item.Tidy :=
    List.forall_mem_singleton.2 ⟨Hcl.isHeader_variable hname, hbody⟩
  have houtlines := Item.outlines_renderAll_blocks (List.cons_ne_nil _ _) hparts
  exact houtlines

end InputVariable

/-! ### Exports -/

/-- The values that a block takes from outside are those that its kind takes for it. -/
theorem KindOutput.inputs_output (context : Context) (documents : Kind → List Members)
    (kind : Kind) : (kind.output context documents).inputs =
      (documents kind).flatMap (kind.converter.taken context) := by
  unfold KindOutput.inputs
  rw [Kind.blocks_output]
  induction documents kind with
  | nil => rfl
  | cons document rest ih =>
    rw [List.filterMap_cons, List.flatMap_cons, Converter.taken]
    split
    next hnone =>
      rw [hnone]
      exact ih
    next block hblock =>
      rw [hblock, List.flatMap_cons, ih]

namespace ExportResult

variable {settings : ExportSettings} {batch : Batch} {result : ExportResult}

/-- The inputs of an export are those of its blocks. -/
theorem ledger_inputs (h : runExport .standard settings batch = .ok result) :
    result.ledger.inputs = result.outputs.flatMap KindOutput.inputs := by
  obtain ⟨-, rfl⟩ := runExport_standard.1 h
  have hledger := Emission.inputs_recordKinds (batch.context settings)
    (batch.intake settings).documents Kind.all {}
  refine hledger.trans ?_
  show _ = (Kind.all.map _).flatMap KindOutput.inputs
  rw [List.nil_append, List.flatMap_map]
  apply List.flatMap_congr
  intro kind _
  exact (KindOutput.inputs_output _ _ kind).symm

/-- A block of a result is what a document of the batch comes to. -/
theorem exists_document (h : runExport .standard settings batch = .ok result)
    {output : KindOutput} (houtput : output ∈ result.outputs) {block : Block}
    (hblock : block ∈ output.blocks) :
    ∃ document ∈ batch.of output.kind,
      (output.kind.converter.draft (result.intake.context settings) document).result
        (result.intake.context settings).answer = .ok block := by
  obtain ⟨entry, hentry, hkind, hgiven⟩ :=
    (follows_of_runExport h).exists_entry houtput hblock
  obtain ⟨imports, houtcome⟩ := Entry.block?_eq_some_iff.1 hgiven
  rw [← hkind]
  exact ⟨entry.document, document_mem h hentry, Entry.result_of_outcome_ok houtcome⟩

/-- An input belongs to a block that is kept. -/
theorem exists_block_of_mem_inputs (h : runExport .standard settings batch = .ok result)
    {v : InputVariable} (hv : v ∈ result.ledger.inputs) :
    ∃ output ∈ result.outputs, ∃ block ∈ output.blocks, v ∈ block.inputs := by
  rw [ledger_inputs h] at hv
  obtain ⟨output, houtput, hv⟩ := List.mem_flatMap.1 hv
  obtain ⟨block, hblock, hv⟩ := List.mem_flatMap.1 hv
  exact ⟨output, houtput, block, hblock, hv⟩

/-- An input is one of what a document of the batch comes to. -/
theorem exists_document_of_mem_inputs (h : runExport .standard settings batch = .ok result)
    {v : InputVariable} (hv : v ∈ result.ledger.inputs) :
    ∃ kind : Kind, ∃ document ∈ batch.of kind, ∃ block,
      (kind.converter.draft (result.intake.context settings) document).result
        (result.intake.context settings).answer = .ok block ∧ v ∈ block.inputs := by
  obtain ⟨output, houtput, block, hblock, hv⟩ := exists_block_of_mem_inputs h hv
  obtain ⟨document, hdocument, hresult⟩ := exists_document h houtput hblock
  exact ⟨output.kind, document, hdocument, block, hresult, hv⟩

/-- Every input comes from a block, and so has a word for its type and a plain value. -/
theorem isScalar_of_mem (h : runExport .standard settings batch = .ok result) {v : InputVariable}
    (hv : v ∈ result.ledger.inputs) : v.IsScalar := by
  obtain ⟨kind, document, -, block, hresult, hv⟩ := exists_document_of_mem_inputs h hv
  rw [Kind.ensures_inputs _ _ _ _ block hresult] at hv
  exact Kind.isScalar_of_mem_inputs hv

/-- The inputs in the order in which they are declared. -/
def orderedInputs (result : ExportResult) : List InputVariable :=
  groupInputs Kind.all result.ledger.inputs

theorem declares (result : ExportResult) : Declares result.orderedInputs result.declared :=
  declares_declareOnce _

theorem mem_of_mem_declared {v : InputVariable} (hv : v ∈ result.declared) :
    v ∈ result.ledger.inputs :=
  (groupInputs_perm _).mem_iff.1 (result.declares.sublist.subset hv)

/-- The declarations, one below the other. -/
theorem inputs_eq (result : ExportResult) :
    result.inputs = match result.declared.map InputVariable.text with
      | [] => ""
      | texts => "\n\n".intercalate texts ++ "\n" := by
  have hdeclared : declareOnce [] (groupInputs Kind.all result.ledger.inputs) = result.declared := rfl
  unfold inputs renderInputs
  rw [hdeclared]
  cases result.declared with
  | nil => rfl
  | cons v rest => rfl

/-- The headers of the declarations can be read off their text, if nothing in a name ends a
literal. -/
theorem topHeaders_inputs (h : runExport .standard settings batch = .ok result)
    (hplain : ∀ v ∈ result.declared, v.name.toList.all Hcl.isPlain = true) :
    topHeaders result.inputs = result.declared.map InputVariable.header := by
  have houtlines : ∀ v ∈ result.declared, Outlines (v.text ++ "\n") [v.header] := by
    intro v hv
    exact (isScalar_of_mem h (mem_of_mem_declared hv)).outlines (hplain v hv)
  rw [result.inputs_eq]
  generalize result.declared = declared at houtlines
  cases declared with
  | nil => exact Hcl.outlines_empty.topHeaders_eq
  | cons v rest =>
    rw [List.map_eq_flatMap (f := InputVariable.header)]
    exact (Hcl.outlines_intercalate houtlines).topHeaders_eq

/-- **Which variables stand in an export, and which are declared.** The inputs of an export are
those of its blocks; and what stands in place of a value in the block of a connector instance or of
a variable is that value, or the variable of an input of the block. The inputs are put in order,
kind by kind and by name, and the first of each name is declared, in that order. As long as nothing
in a name ends a literal, the headers that can be read off the declarations are these. -/
theorem inputs_declared (h : runExport .standard settings batch = .ok result) :
    result.ledger.inputs = result.outputs.flatMap KindOutput.inputs ∧
    (∀ output ∈ result.outputs, ∀ block ∈ output.blocks, ∃ document ∈ batch.of output.kind,
      (output.kind = .connectorInstance →
        block.LinksProperties (result.intake.context settings) document) ∧
      (output.kind = .variable → block.LinksValue (result.intake.context settings) document)) ∧
    result.orderedInputs.Perm result.ledger.inputs ∧
    result.orderedInputs.Pairwise (InputVariable.Precedes result.ledger.inputs) ∧
    Declares result.orderedInputs result.declared ∧
    (result.inputs = match result.declared.map InputVariable.text with
      | [] => ""
      | texts => "\n\n".intercalate texts ++ "\n") ∧
    ((∀ v ∈ result.declared, v.name.toList.all Hcl.isPlain = true) →
      topHeaders result.inputs = result.declared.map InputVariable.header) := by
  refine ⟨ledger_inputs h, ?_, groupInputs_perm _, groupInputs_pairwise _, result.declares,
    result.inputs_eq, topHeaders_inputs h⟩
  intro output houtput block hblock
  obtain ⟨document, hdocument, hresult⟩ := exists_document h houtput hblock
  refine ⟨document, hdocument, ?_, ?_⟩
  · intro hkind
    rw [hkind] at hresult
    exact ensures_linksProperties {} _ document _ block hresult
  · intro hkind
    rw [hkind] at hresult
    exact ensures_linksValue _ document _ block hresult

theorem inputs_declared_overlappingConnectors :
    ∃ result, runExport .standard .skipping overlappingConnectors = .ok result ∧
      result.ledger.inputs.length = 2 ∧
      topHeaders result.inputs = ["variable \"davinci_connection_A_b_secret\""] := by
  have h : (runExport .standard .skipping overlappingConnectors).toOption.any (fun result =>
      result.ledger.inputs.length == 2 &&
      result.declared.all (fun v => v.name.toList.all Hcl.isPlain) &&
      result.declared.map InputVariable.header ==
        ["variable \"davinci_connection_A_b_secret\""]) = true := by
    decide +kernel
  obtain ⟨result, hresult, htest⟩ := exists_ok_of_any h
  obtain ⟨htest, hheaders⟩ := Bool.and_eq_true_iff.1 htest
  obtain ⟨hlength, hplain⟩ := Bool.and_eq_true_iff.1 htest
  obtain ⟨-, -, -, -, -, -, hread⟩ := inputs_declared hresult
  refine ⟨result, hresult, eq_of_beq hlength, ?_⟩
  rw [hread (List.all_eq_true.1 hplain), eq_of_beq hheaders]

/-- Two connector instances; a property of the one closes the header in which it is written, and
goes on with that of the other. -/
def redeclaringConnectors : Batch where
  documents :=
    [(.connectorInstance, connector "c" "F" "a\" \x7b\x7d\nvariable \"davinci_connection_G_k" "x"),
     (.connectorInstance, connector "d" "G" "k" "y")]
where
  connector (id name property value : String) : Members :=
    [("id", .str id), ("name", .str name), ("connector", .obj [("id", .str "f")]),
     ("properties", .obj [(property, .obj [("value", .str value)])])]

/-- The input of the one is not declared, and that of the other is declared twice. -/
theorem topHeaders_inputs_redeclaring :
    ∃ result, runExport .standard .plain redeclaringConnectors = .ok result ∧
      topHeaders result.inputs =
        ["variable \"davinci_connection_F_a\"", "variable \"davinci_connection_G_k\"",
         "variable \"davinci_connection_G_k\""] ∧
      ¬(topHeaders result.inputs).Nodup := by
  have h : (runExport .standard .plain redeclaringConnectors).toOption.any (fun result =>
      result.declared.map (fun v => (v.header, v.attributes)) ==
        [("variable \"davinci_connection_F_a\" \x7b\x7d\nvariable \"davinci_connection_G_k\"",
          [("type", "string"),
           ("description", "\"a\\\" \x7b\x7d\\nvariable \\\"davinci_connection_G_k for F connector\""),
           ("default", "\"x\"")]),
         ("variable \"davinci_connection_G_k\"",
          [("type", "string"), ("description", "\"k for G connector\""),
           ("default", "\"y\"")])]) = true := by
    decide +kernel
  obtain ⟨result, hresult, htest⟩ := exists_ok_of_any h
  have htexts : result.declared.map InputVariable.text =
      (result.declared.map fun v => (v.header, v.attributes)).map fun part =>
        InputVariable.declaration part.1 part.2 := by
    rw [List.map_map]
    rfl
  rw [eq_of_beq htest] at htexts
  have hheaders : topHeaders result.inputs =
      ["variable \"davinci_connection_F_a\"", "variable \"davinci_connection_G_k\"",
       "variable \"davinci_connection_G_k\""] := by
    -- the two declarations are read line by line, with an empty line between them
    have hsplit : ∀ first second : String,
        ("\n\n".intercalate [first, second] ++ "\n").toList =
          (first ++ "\n").toList ++ '\n' :: (second ++ "\n").toList := by
      intro first second
      have hfeeds : "\n\n" = "\n" ++ "\n" := by decide
      have hfeed : "\n".toList = ['\n'] := by decide
      rw [String.intercalate_cons_cons, String.intercalate_singleton, hfeeds]
      simp only [String.toList_append, hfeed, List.append_assoc, List.cons_append, List.nil_append]
    rw [result.inputs_eq, htexts]
    dsimp only [List.map]
    rw [topHeaders, hsplit, InputVariable.declaration, InputVariable.declaration,
      Item.toList_renderAll_braced, Item.toList_renderAll_braced]
    decide +kernel
  refine ⟨result, hresult, hheaders, ?_⟩
  rw [hheaders]
  decide

end ExportResult

end HclExport
