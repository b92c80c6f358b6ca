import HclExport.Proofs.Conversion.Masks
import HclExport.Proofs.Hcl.Header
import HclExport.Proofs.Hcl.Tidy

/-!
# The line with the value of a variable

The line with the value of a variable, what is taken from outside for it and whether the block says
that the variable is mutable are found out from the value one by one. They fit together: what is
taken from outside has a line, which is a reference in the right cases only, and a variable without
a line is mutable. What is said here of the line and of `mutable` is said of the text of the block,
since a block has no other line and no other `mutable`.

## Main definitions

* `variableFront`, `variableForm` — the block of a variable, for any `mutable` and any line.
* `InputVariable.IsReferredTo` — a line is a reference to an input.
* `Block.ValueAgrees` — how a line and `mutable` fit the inputs of a block and its document.

## Main results

* `Hcl.Writer.exists_text_assignAll_concat`, `Hcl.Item.exists_text_writeAll` — what stands in front
  of a value, and in front of what is added.
* `Hcl.Item.renderAll_braced` — the text of one block.
* `variableForm_inj` — a block has one line and one `mutable`.
* `isReferredTo_valueLine?` — the lines that are references.
* `Converter.variable_valueLine` — the line and `mutable` of a converted variable.
-/

namespace HclExport

open Hcl (Item Writer)

/-! ### What is added to a text -/

namespace Hcl

namespace Writer

/-- A text with further lines behind it. -/
theorem exists_text_of_suffix {w next : Writer} (h : w.written <:+ next.written) :
    ∃ more, next.text = w.text ++ more := by
  obtain ⟨lines, hlines⟩ := h
  refine ⟨linesText lines.reverse, ?_⟩
  unfold text
  rw [← hlines, List.reverse_append, linesText_append]

theorem text_leave {w : Writer} {closer : String} {rest : List String}
    (h : w.closers = closer :: rest) :
    w.leave.text = w.text ++ (indented (2 * rest.length) closer ++ "\n") := by
  have hleave : w.leave = ({ w with closers := rest } : Writer).line closer := by
    unfold leave
    rw [h]
  rw [hleave, text_line]
  rfl

/-- The last of several attributes ends with its value, and what is in front of the value does not
depend on it. -/
theorem exists_text_assignAll_concat (pairs : List (String × String)) (key : String) (w : Writer) :
    ∃ before, ∀ value,
      (w.assignAll (pairs ++ [(key, value)])).text = before ++ (value ++ "\n") := by
  have hwidth : ∀ value, keyWidth (pairs ++ [(key, value)]) = keyWidth (pairs ++ [(key, "")]) := by
    intro value
    unfold keyWidth
    rw [List.foldl_append, List.foldl_append]
    rfl
  unfold assignAll
  simp only [hwidth, List.foldl_append]
  generalize keyWidth (pairs ++ [(key, "")]) = width
  generalize pairs.foldl (fun w pair => w.line (padRight width pair.1 ++ " = " ++ pair.2)) w = above
  refine ⟨above.text ++ (spaces above.column ++ (padRight width key ++ " = ")), fun value => ?_⟩
  have hne : padRight width key ++ " = " ++ value ≠ "" := by simp [String.append_eq_empty_iff]
  show (above.line (padRight width key ++ " = " ++ value)).text = _
  rw [text_line, indented_of_ne hne]
  simp only [String.append_assoc]

end Writer

/-- What was written stays in front of what is added. -/
theorem Item.exists_text_writeAll (w : Writer) (items : List Item) :
    ∃ more, (writeAll w items).text = w.text ++ more :=
  Writer.exists_text_of_suffix (written_writeAll w items)

/-- The writer inside of a block that stands in no other block. -/
def Writer.inside (header : String) : Writer :=
  ({} : Writer).enter header "\x7b" "\x7d"

/-- The text of one block: what is written inside of it, and the closer. -/
theorem Item.renderAll_braced (header : String) (body : List Item) :
    renderAll [braced header body] = (writeAll (.inside header) body).text ++ "\x7d\n" := by
  have hclosers : (writeAll (.inside header) body).closers = ["\x7d"] := closers_writeAll _ body
  have hwritten : (writeAll (.inside header) body).leave.written ≠ [] := by
    unfold Writer.leave
    rw [hclosers]
    exact List.cons_ne_nil _ _
  show (writeAll (.inside header) body).leave.render = _
  rw [Writer.render_eq_text hwritten, Writer.text_leave hclosers]
  rfl

end Hcl

/-! ### The block of a variable -/

/-- What stands in the block of a variable above its value, with a given `mutable`. -/
def variableFront (context : Context) (document : Members) (isMutable : Bool) : List Item :=
  [.assign "environment_id" context.environment, .blank,
   .assignAll
     [("name", Hcl.quote (document.text "name")), ("context", Hcl.quote (document.text "context")),
      ("data_type", Hcl.quote (document.text "dataType")),
      ("mutable", Hcl.boolText isMutable)]] ++
  (if isMutable && !(document.flag? "mutable").getD false then
    [.line "# NOTE: mutable overridden to true because no value is provided"] else []) ++
  [.assignAll
    (textPair document "displayName" "display_name" ++ numberPair document "min" "min" ++
      numberPair document "max" "max")] ++
  owningFlowItems document ++ [.blank]

/-- The block of a variable with a given `mutable` and a given line for its value. -/
def variableForm (context : Context) (document : Members) (name : String) (isMutable : Bool)
    (line : Option String) : String :=
  Item.renderAll [.braced (Hcl.resourceHeader Kind.variable.type name)
    (variableFront context document isMutable ++ valueItems (document.text "dataType") line)]

/-- Without a value a variable is mutable, and otherwise if its document says so. -/
theorem variableText_eq_form (context : Context) (document : Members) (name : String)
    (line : Option String) :
    variableText context document name line = variableForm context document name
      ((document.flag? "mutable").getD false || line.isNone) line := by
  have hhead : variableHead context document line.isNone =
      variableFront context document ((document.flag? "mutable").getD false || line.isNone) := by
    unfold variableHead variableFront
    cases (document.flag? "mutable").getD false with
    | false => cases line <;> rfl
    | true => cases line <;> rfl
  unfold variableText variableForm
  rw [hhead]

/-- What is written above the value is the same up to `mutable`. -/
theorem exists_text_variableFront (context : Context) (document : Members) (w : Writer) :
    ∃ before, ∀ isMutable, ∃ more,
      (Item.writeAll w (variableFront context document isMutable)).text =
        before ++ (Hcl.boolText isMutable ++ more) := by
  obtain ⟨before, hbefore⟩ := Writer.exists_text_assignAll_concat
    [("name", Hcl.quote (document.text "name")), ("context", Hcl.quote (document.text "context")),
      ("data_type", Hcl.quote (document.text "dataType"))] "mutable"
    (w.assign "environment_id" context.environment).blank
  refine ⟨before, fun isMutable => ?_⟩
  unfold variableFront
  rw [List.append_assoc, List.append_assoc, List.append_assoc, Item.writeAll_append]
  obtain ⟨more, hmore⟩ := Item.exists_text_writeAll _ _
  refine ⟨"\n" ++ more, hmore.trans ?_⟩
  rw [← String.append_assoc, ← String.append_assoc, String.append_left_inj, String.append_assoc]
  exact hbefore (Hcl.boolText isMutable)

/-- The two truth values do not start alike. -/
theorem boolText_append_inj {b b' : Bool} {s s' : String}
    (h : Hcl.boolText b ++ s = Hcl.boolText b' ++ s') : b = b' := by
  have hhead := congrArg (fun text => text.toList.head?) h
  cases b <;> cases b' <;> simp [Hcl.boolText] at hhead ⊢

/-! ### The value in a block -/

/-- A line with a value, as it stands in the block of a variable. -/
theorem text_valueItems_some (dataType text : String) {w : Writer} (h : w.closers = ["\x7d"]) :
    (Item.writeAll w (valueItems dataType (some text))).text =
      w.text ++ ("  value = \x7b\n" ++ (Writer.indented 4 text ++ "\n  \x7d\n")) := by
  have hwrite : Item.writeAll w (valueItems dataType (some text)) =
      ((w.enter "value =" "\x7b" "\x7d").line text).leave := rfl
  have hinside : ((w.enter "value =" "\x7b" "\x7d").line text).closers = ["\x7d", "\x7d"] :=
    congrArg _ h
  have hopened : (w.enter "value =" "\x7b" "\x7d").text =
      w.text ++ (Writer.indented w.column "value = \x7b" ++ "\n") := Writer.text_line _ w
  have hcolumn : w.column = 2 := by
    unfold Writer.column
    rw [h]
    rfl
  have hdeeper : (w.enter "value =" "\x7b" "\x7d").column = 4 :=
    congrArg (2 * List.length ·) hinside
  rw [hwrite, Writer.text_leave hinside, Writer.text_line, hopened, hcolumn, hdeeper]
  simp only [String.append_assoc]
  rfl

/-- What stands in place of a line is a comment. -/
theorem exists_text_valueItems_none (dataType : String) {w : Writer} (h : w.closers = ["\x7d"]) :
    ∃ more, (Item.writeAll w (valueItems dataType none)).text = w.text ++ ("  #" ++ more) := by
  obtain ⟨comment, rest, hitems⟩ : ∃ comment rest,
      valueItems dataType none = .line ("#" ++ comment) :: rest := by
    dsimp only [valueItems]
    split
    · exact ⟨" TODO: Add secret value manually", _, rfl⟩
    · refine ⟨" TODO: Add " ++ (dataType ++ " value"),
        [.line "# Value omitted - will be set dynamically by flow execution"], ?_⟩
      rw [← String.append_assoc, ← String.append_assoc]
      rfl
  have hcolumn : w.column = 2 := by
    unfold Writer.column
    rw [h]
    rfl
  have hne : "#" ++ comment ≠ "" := by simp [String.append_eq_empty_iff]
  rw [hitems]
  obtain ⟨more, hmore⟩ := Item.exists_text_writeAll (w.line ("#" ++ comment)) rest
  refine ⟨comment ++ "\n" ++ more, hmore.trans ?_⟩
  rw [Writer.text_line, Writer.indented_of_ne hne, hcolumn]
  simp only [String.append_assoc]
  rfl

/-- What is written for the value tells its line. -/
theorem valueItems_inj (dataType : String) {w : Writer} (h : w.closers = ["\x7d"])
    {line other : Option String} (htext : (Item.writeAll w (valueItems dataType line)).text =
      (Item.writeAll w (valueItems dataType other)).text) : line = other := by
  have hcomment : ∀ (text more : String),
      "  value = \x7b\n" ++ text ≠ "  #" ++ more := by
    intro text more hsame
    have hhead := congrArg (fun text => text.toList[2]?) hsame
    simp at hhead
  obtain ⟨more, hnone⟩ := exists_text_valueItems_none dataType h
  cases line with
  | none =>
    cases other with
    | none => rfl
    | some text =>
      rw [hnone, text_valueItems_some dataType text h] at htext
      exact absurd ((String.append_right_inj _).1 htext).symm (hcomment _ _)
  | some text =>
    cases other with
    | none =>
      rw [hnone, text_valueItems_some dataType text h] at htext
      exact absurd ((String.append_right_inj _).1 htext) (hcomment _ _)
    | some text' =>
      rw [text_valueItems_some dataType text h, text_valueItems_some dataType text' h,
        String.append_right_inj, String.append_right_inj, String.append_left_inj] at htext
      rw [Writer.indented_inj htext]

/-- A block of a variable has one line for the value and one `mutable`. -/
theorem variableForm_inj {context : Context} {document : Members} {name : String}
    {isMutable isMutable' : Bool} {line line' : Option String}
    (h : variableForm context document name isMutable line =
      variableForm context document name isMutable' line') :
    isMutable = isMutable' ∧ line = line' := by
  unfold variableForm at h
  rw [Item.renderAll_braced, Item.renderAll_braced, String.append_left_inj, Item.writeAll_append,
    Item.writeAll_append] at h
  have hsame : isMutable = isMutable' := by
    obtain ⟨before, hbefore⟩ := exists_text_variableFront context document
      (.inside (Hcl.resourceHeader Kind.variable.type name))
    obtain ⟨more, hmore⟩ := hbefore isMutable
    obtain ⟨more', hmore'⟩ := hbefore isMutable'
    obtain ⟨rest, hrest⟩ := Item.exists_text_writeAll _
      (valueItems (document.text "dataType") line)
    obtain ⟨rest', hrest'⟩ := Item.exists_text_writeAll _
      (valueItems (document.text "dataType") line')
    rw [hrest, hrest', hmore, hmore'] at h
    simp only [String.append_assoc] at h
    exact boolText_append_inj ((String.append_right_inj _).1 h)
  subst hsame
  exact ⟨rfl, valueItems_inj _ (Item.closers_writeAll _ _) h⟩

/-! ### References -/

/-- A line is a reference to an input, under whatever key. -/
def InputVariable.IsReferredTo (v : InputVariable) (line : String) : Prop :=
  ∃ key, line = key ++ " = " ++ v.reference.render

/-- A primitive value that is written itself is not a reference. -/
theorem not_isReferredTo_valueText {value : Json} (hprimitive : isPrimitive value = true)
    {key resource : String} (hkey : valueKey? value = some key) {v : InputVariable}
    (hname : v.name = valueInputName resource) :
    ¬ v.IsReferredTo (key ++ " = " ++ valueText value) := by
  rintro ⟨front, h⟩
  rw [v.render_reference, hname] at h
  have hv : 'v' ∈ (key ++ " = " ++ valueText value).toList := by
    rw [h]
    simp
  cases value with
  | null => cases hprimitive
  | arr items => cases hprimitive
  | obj members => cases hprimitive
  | str s =>
    -- the literal ends with a quotation mark, and a name with a letter
    have hliteral : (key ++ " = " ++ Hcl.quote s).toList.getLast? = some '"' := by
      rw [String.toList_append, Hcl.toList_quote, ← List.append_assoc, List.getLast?_concat]
    have hreference : (front ++ " = " ++ ("var." ++ valueInputName resource)).toList.getLast? =
        some 'e' := by
      have hvalue : "_value".toList = "_valu".toList ++ ['e'] := by decide
      unfold valueInputName
      simp only [String.toList_append, hvalue, ← List.append_assoc, List.getLast?_concat]
    rw [show valueText (.str s) = Hcl.quote s from rfl] at h
    rw [h, hreference] at hliteral
    revert hliteral
    decide
  | bool b =>
    obtain rfl := Option.some.inj hkey
    revert hv
    cases b <;> decide
  | num n =>
    obtain rfl := Option.some.inj hkey
    rw [String.toList_append] at hv
    obtain hfront | hnumber := List.mem_append.1 hv
    · revert hfront
      decide
    · have hchar := Hcl.mem_numberChars_numberText n _ hnumber
      revert hchar
      decide

theorem isSome_valueKey?_of_isPrimitive {value : Json} (h : isPrimitive value = true) :
    (valueKey? value).isSome := by
  cases value with
  | null => cases h
  | arr items => cases h
  | obj members => cases h
  | bool b => rfl
  | num n => rfl
  | str s =>
    have hne : s ≠ "" := by simpa [isPrimitive] using h
    simp [valueKey?, hne]

section Line

variable {document : Members} (usesVariables : Bool) (resource : String)

/-- What is taken from outside has a line. -/
theorem isSome_valueLine? (hgiven : document.text "dataType" ≠ "")
    (h : valueInputs document resource ≠ []) :
    (valueLine? usesVariables (document.text "dataType") (document.get "value")
      (valueInputs document resource)).isSome := by
  obtain ⟨hprimitive, -, v, hone, -, hsecret⟩ := valueInputs_of_ne_nil h resource
  rw [isSecretValue_eq hgiven] at hsecret
  unfold valueLine?
  rw [hone]
  by_cases hlower : lower (document.text "dataType") = "secret"
  · rw [hlower, beq_self_eq_true] at hsecret
    rw [if_pos hlower]
    dsimp only [List.head?_cons]
    rw [if_pos hsecret]
    rfl
  · rw [if_neg hlower, Option.isSome_map]
    exact isSome_valueKey?_of_isPrimitive hprimitive

/-- A secret has a line if it is masked, and only then. -/
theorem isSome_valueLine?_secret (hgiven : document.text "dataType" ≠ "")
    (hlower : lower (document.text "dataType") = "secret") :
    (valueLine? usesVariables (document.text "dataType") (document.get "value")
      (valueInputs document resource)).isSome ↔ isMasked (document.get "value") = true := by
  constructor
  · intro hline
    have hne : valueInputs document resource ≠ [] := by
      intro hnil
      unfold valueLine? at hline
      rw [if_pos hlower, hnil] at hline
      cases hline
    obtain ⟨-, hmasked, -⟩ := valueInputs_of_ne_nil hne resource
    apply hmasked
    rw [isSecretValue_eq hgiven, hlower, beq_self_eq_true]
  · intro hmasked
    apply isSome_valueLine? _ _ hgiven
    obtain ⟨v, hone, -⟩ := valueInputs_of_isMasked hmasked resource
    rw [hone]
    exact List.cons_ne_nil _ _

/-- **The lines that are references**: those of secrets, and those of other values that are taken
from outside, if variables are asked for. -/
theorem isReferredTo_valueLine? {line : String}
    (hline : valueLine? usesVariables (document.text "dataType") (document.get "value")
      (valueInputs document resource) = some line) :
    (∃ v ∈ valueInputs document resource, v.IsReferredTo line) ↔
      lower (document.text "dataType") = "secret" ∨
        usesVariables = true ∧ valueInputs document resource ≠ [] := by
  by_cases hnil : valueInputs document resource = []
  · -- a line without an input is that of a value which is no secret
    have hlower : ¬ lower (document.text "dataType") = "secret" := by
      intro hlower
      unfold valueLine? at hline
      rw [if_pos hlower, hnil] at hline
      cases hline
    simp [hnil, hlower]
  · obtain ⟨hprimitive, -, v, hone, hname, -⟩ := valueInputs_of_ne_nil hnil resource
    rw [hone] at hline ⊢
    simp only [List.mem_singleton, exists_eq_left, ne_eq, List.cons_ne_self, not_false_eq_true,
      and_true]
    unfold valueLine? at hline
    by_cases hlower : lower (document.text "dataType") = "secret"
    · rw [if_pos hlower] at hline
      obtain ⟨-, htext⟩ := Option.ite_none_right_eq_some.1 hline
      obtain rfl := Option.some.inj htext
      exact iff_of_true ⟨"secret_string", rfl⟩ (.inl hlower)
    · rw [if_neg hlower] at hline
      obtain ⟨key, hkey, htext⟩ := Option.map_eq_some_iff.1 hline
      dsimp only [List.head?_cons] at htext
      by_cases huses : usesVariables = true
      · rw [if_pos huses] at htext
        exact iff_of_true ⟨key, htext.symm⟩ (.inr huses)
      · rw [if_neg huses] at htext
        rw [← htext]
        refine iff_of_false (not_isReferredTo_valueText hprimitive hkey hname) ?_
        rintro (hsecret | hasked)
        · exact hlower hsecret
        · exact huses hasked

end Line

/-! ### Agreement -/

/-- The line with the value and `mutable`, as they stand in the block of a variable, fit what the
block takes from outside and the document that it was written for. -/
structure Block.ValueAgrees (context : Context) (document : Members) (block : Block)
    (isMutable : Bool) (line : Option String) : Prop where
  inputs : block.inputs = valueInputs document block.name
  text : ∀ b l, block.hcl = variableForm context document block.name b l ↔ b = isMutable ∧ l = line
  written : block.inputs ≠ [] → line.isSome
  reference : ∀ given, line = some given →
    ((∃ v ∈ block.inputs, v.IsReferredTo given) ↔
      lower (document.text "dataType") = "secret" ∨
        context.usesVariables = true ∧ block.inputs ≠ [])
  secret : lower (document.text "dataType") = "secret" →
    (line.isSome ↔ isMasked (document.get "value") = true)
  mutable : isMutable = true ↔ document.flag? "mutable" = some true ∨ line = none

/-- **The value of a variable.** Whatever the options of a conversion are, the block of a variable
has a line with the value if anything is taken from outside for it. The line is a reference to what
is taken from outside if the variable is a secret, or if variables are asked for and something is
taken from outside, and not otherwise. A secret has a line exactly if its value is masked. A
variable without a line is mutable. -/
theorem Converter.variable_valueLine {context : Context} {document : Members}
    {ledger after : Ledger} {block : Block}
    (h : (Converter.variable.convert context document).run ledger = (.ok block, after)) :
    ∃ isMutable line, block.ValueAgrees context document isMutable line := by
  obtain ⟨hgiven, hinputs, hhcl⟩ :=
    Converter.of_run_convert h (ensures_variableText context document _)
  rw [variableText_eq_form, hinputs] at hhcl
  generalize hline : valueLine? context.usesVariables (document.text "dataType")
    (document.get "value") (valueInputs document block.name) = line at hhcl
  refine ⟨(document.flag? "mutable").getD false || line.isNone, line, hinputs, fun b l => ?_,
    ?_, ?_, ?_, ?_⟩
  · rw [hhcl]
    constructor
    · intro hsame
      obtain ⟨rfl, rfl⟩ := variableForm_inj hsame
      exact ⟨rfl, rfl⟩
    · rintro ⟨rfl, rfl⟩
      rfl
  · rw [hinputs, ← hline]
    exact isSome_valueLine? _ _ hgiven
  · intro given hsome
    rw [hinputs]
    exact isReferredTo_valueLine? _ _ (hline.trans hsome)
  · rw [← hline]
    exact isSome_valueLine?_secret _ _ hgiven
  · rw [Bool.or_eq_true, Option.isNone_iff_eq_none]
    cases document.flag? "mutable" with
    | none => simp
    | some declared => simp

/-- A secret that is masked, in a document that does not say whether it is mutable. -/
def maskedSecret : Members :=
  [("id", .str "v"), ("name", .str "token"), ("context", .str "company"),
   ("dataType", .str "Secret"), ("value", .str "******")]

/-- A context in which that variable is registered, and in which variables are not asked for. -/
def secretContext : Context where
  graph := Graph.close { resources := [⟨⟨.variable, "v"⟩, "pingcli__token_company"⟩] }

theorem Converter.variable_valueLine_maskedSecret :
    ∃ block after,
      (Converter.variable.convert secretContext maskedSecret).run {} = (.ok block, after) ∧
      ∃ isMutable line, block.ValueAgrees secretContext maskedSecret isMutable line ∧
        ∃ given, line = some given ∧ ∃ v ∈ block.inputs, v.IsReferredTo given := by
  have hrun : ∃ block after,
      (Converter.variable.convert secretContext maskedSecret).run {} = (.ok block, after) :=
    ⟨_, _, rfl⟩
  obtain ⟨block, after, h⟩ := hrun
  obtain ⟨isMutable, line, hagrees⟩ := Converter.variable_valueLine h
  have hsecret : lower (maskedSecret.text "dataType") = "secret" := by decide
  obtain ⟨given, hgiven⟩ := Option.isSome_iff_exists.1 ((hagrees.secret hsecret).2 (by decide))
  exact ⟨block, after, h, isMutable, line, hagrees, given, hgiven,
    (hagrees.reference given hgiven).2 (.inl hsecret)⟩

end HclExport
