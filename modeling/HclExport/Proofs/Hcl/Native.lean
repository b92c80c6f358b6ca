import HclExport.Proofs.Hcl.Comments

/-!
# The structure of native values

In a native value the comment of an expression runs over what follows it on its line. Behind a
member of an object nothing follows, but behind an item of a list stands a comma or the closing
bracket. And keys are left bare when they are identifiers, or would be without a line feed at their
end.

## Main definitions

* `Piece`, `Piece.signs` — what a text is put together of, and its characters.
* `Piece.KeepsKeys` — the keys are quoted, or they are identifiers.
* `Swallowed` — a comma or a closing bracket stands in a comment.
* `stepRemark`, `reads` — a reader that follows comments to the ends of their lines.
* `Value.nativePieces` — the pieces of a native value.

## Main results

* `runRemark_eq_none_iff` — the reader stops at swallowed signs, and only there.
* `Value.textOf_nativePieces`, `Value.reads_nativePieces` — the text of the pieces, and how they are
  read.
* `Value.native_structure` — **when native values keep their structure.**
-/

namespace HclExport
namespace Hcl

/-! ### Pieces -/

/-- What a text is put together of: what the layout adds, keys, what stands for leaves, and
comments. -/
inductive Piece
  | mark (text : String)
  | key (name : String)
  | leaf (text : String)
  | comment (text : String)

namespace Piece

/-- A piece as it is written. -/
def text : Piece → String
  | .mark text => text
  | .key name => Value.keyText name
  | .leaf text => text
  | .comment text => text

/-- Whether a piece is added by the layout. -/
def isMark : Piece → Bool
  | .mark _ => true
  | _ => false

/-- Whether a piece is a comment. -/
def isComment : Piece → Bool
  | .comment _ => true
  | _ => false

/-- The characters of pieces, each with the piece in which it stands. -/
def signs (pieces : List Piece) : List (Piece × Char) :=
  pieces.flatMap fun p => p.text.toList.map (p, ·)

/-- Every key is quoted, or it is an identifier and left as it is. -/
def KeepsKeys (pieces : List Piece) : Prop :=
  ∀ name, .key name ∈ pieces → (Piece.key name).text = quote name ∨
    ((Piece.key name).text = name ∧ Value.isIdentifier name.toList = true)

@[simp] theorem text_mark (text : String) : (Piece.mark text).text = text := rfl

theorem signs_cons (p : Piece) (rest : List Piece) :
    signs (p :: rest) = p.text.toList.map (p, ·) ++ signs rest := rfl

theorem signs_append (pieces more : List Piece) :
    signs (pieces ++ more) = signs pieces ++ signs more :=
  List.flatMap_append

end Piece

/-! ### Swallowed signs -/

/-- Whether a character separates what is listed or closes the list. -/
def isSeparating (c : Char) : Bool :=
  c == ',' || isCloser c

/-- Whether a character is a comma or a closing bracket of the layout. -/
def isStructural (sign : Piece × Char) : Bool :=
  sign.1.isMark && isSeparating sign.2

/-- Whether a character is a number sign in a comment. -/
def opensRemark (sign : Piece × Char) : Bool :=
  sign.1.isComment && sign.2 == '#'

/-- A comma or a closing bracket of the layout stands on the line that starts here. -/
def Reached (signs : List (Piece × Char)) : Prop :=
  ∃ between sign behind, signs = between ++ sign :: behind ∧
    (∀ passed ∈ between, passed.2 ≠ '\n') ∧ isStructural sign = true

/-- A comma or a closing bracket of the layout stands in a comment: behind its number sign, on the
same line. -/
def Swallowed (signs : List (Piece × Char)) : Prop :=
  ∃ front sign rest, signs = front ++ sign :: rest ∧ opensRemark sign = true ∧ Reached rest

theorem reached_cons {sign : Piece × Char} {rest : List (Piece × Char)} :
    Reached (sign :: rest) ↔ isStructural sign = true ∨ (sign.2 ≠ '\n' ∧ Reached rest) := by
  constructor
  · rintro ⟨_ | ⟨first, between⟩, found, behind, hsigns, hbetween, hfound⟩
    · obtain ⟨rfl, -⟩ := List.cons.inj hsigns
      exact Or.inl hfound
    · obtain ⟨rfl, hrest⟩ := List.cons.inj hsigns
      obtain ⟨hfirst, hbetween⟩ := List.forall_mem_cons.1 hbetween
      exact Or.inr ⟨hfirst, between, found, behind, hrest, hbetween, hfound⟩
  · rintro (hfound | ⟨hfirst, between, found, behind, rfl, hbetween, hfound⟩)
    · exact ⟨[], sign, rest, rfl, by simp, hfound⟩
    · exact ⟨sign :: between, found, behind, rfl, List.forall_mem_cons.2 ⟨hfirst, hbetween⟩, hfound⟩

theorem swallowed_cons {sign : Piece × Char} {rest : List (Piece × Char)} :
    Swallowed (sign :: rest) ↔ (opensRemark sign = true ∧ Reached rest) ∨ Swallowed rest := by
  constructor
  · rintro ⟨_ | ⟨first, front⟩, found, behind, hsigns, hfound, hreached⟩
    · obtain ⟨rfl, rfl⟩ := List.cons.inj hsigns
      exact Or.inl ⟨hfound, hreached⟩
    · obtain ⟨rfl, hrest⟩ := List.cons.inj hsigns
      exact Or.inr ⟨front, found, behind, hrest, hfound, hreached⟩
  · rintro (⟨hfound, hreached⟩ | ⟨front, found, behind, rfl, hfound, hreached⟩)
    · exact ⟨[], sign, rest, rfl, hfound, hreached⟩
    · exact ⟨sign :: front, found, behind, rfl, hfound, hreached⟩

/-- Read a character: whether a comment runs behind it. There is no reading if the character is
structural and stands in a comment. -/
def stepRemark (runs : Bool) (sign : Piece × Char) : Option Bool :=
  if runs && isStructural sign then none else some (sign.2 != '\n' && (runs || opensRemark sign))

/-- Read characters. -/
def runRemark (runs : Bool) (signs : List (Piece × Char)) : Option Bool :=
  signs.foldlM stepRemark runs

theorem runRemark_cons (runs : Bool) (sign : Piece × Char) (rest : List (Piece × Char)) :
    runRemark runs (sign :: rest) = (stepRemark runs sign).bind fun next => runRemark next rest :=
  List.foldlM_cons

theorem runRemark_append (runs : Bool) (signs more : List (Piece × Char)) :
    runRemark runs (signs ++ more) = (runRemark runs signs).bind fun next => runRemark next more :=
  List.foldlM_append

/-- **The reader stops exactly at swallowed signs**, also at one in a comment that runs from the
start. -/
theorem runRemark_eq_none_iff {runs : Bool} {signs : List (Piece × Char)} :
    runRemark runs signs = none ↔ Swallowed signs ∨ (runs = true ∧ Reached signs) := by
  induction signs generalizing runs with
  | nil =>
    have hswallowed : ¬Swallowed [] := by
      rintro ⟨front, sign, rest, hsigns, -⟩
      simp at hsigns
    have hreached : ¬Reached [] := by
      rintro ⟨between, sign, behind, hsigns, -⟩
      simp at hsigns
    simp [runRemark, hswallowed, hreached]
  | cons sign rest ih =>
    rw [runRemark_cons, swallowed_cons, reached_cons, stepRemark]
    split
    next hstructural =>
      rw [Bool.and_eq_true] at hstructural
      exact iff_of_true rfl (Or.inr ⟨hstructural.1, Or.inl hstructural.2⟩)
    next hstructural =>
      have hopens : opensRemark sign = true → sign.2 ≠ '\n' := by
        intro hopens
        simp only [opensRemark, Bool.and_eq_true, beq_iff_eq] at hopens
        rw [hopens.2]
        decide
      simp only [Bool.and_eq_true, not_and] at hstructural
      rw [Option.bind_some, ih, Bool.and_eq_true, Bool.or_eq_true, bne_iff_ne]
      tauto

/-! ### Reading pieces -/

/-- Whether a comment runs behind pieces. -/
def reads (runs : Bool) (pieces : List Piece) : Option Bool :=
  runRemark runs (Piece.signs pieces)

theorem reads_nil (runs : Bool) : reads runs [] = some runs := rfl

theorem reads_append (runs : Bool) (pieces more : List Piece) :
    reads runs (pieces ++ more) = (reads runs pieces).bind fun next => reads next more := by
  rw [reads, Piece.signs_append, runRemark_append]
  rfl

theorem reads_cons (runs : Bool) (p : Piece) (rest : List Piece) :
    reads runs (p :: rest) =
      (runRemark runs (p.text.toList.map (p, ·))).bind fun next => reads next rest := by
  rw [reads, Piece.signs_cons, runRemark_append]
  rfl

/-- Only comments start one. -/
theorem runRemark_of_not_isComment {p : Piece} (h : p.isComment = false) (cs : List Char) :
    runRemark false (cs.map (p, ·)) = some false := by
  induction cs with
  | nil => rfl
  | cons c rest ih =>
    have hstep : stepRemark false (p, c) = some false := by simp [stepRemark, opensRemark, h]
    rw [List.map_cons, runRemark_cons, hstep, Option.bind_some, ih]

theorem reads_false_cons {p : Piece} (h : p.isComment = false) (rest : List Piece) :
    reads false (p :: rest) = reads false rest := by
  rw [reads_cons, runRemark_of_not_isComment h, Option.bind_some]

/-- A line feed ends a comment. -/
theorem reads_feed_cons (runs : Bool) (text : String) (rest : List Piece) :
    reads runs (.mark ("\n" ++ text) :: rest) = reads false rest := by
  have hstep : stepRemark runs (.mark ("\n" ++ text), '\n') = some false := by
    simp [stepRemark, isStructural, isSeparating, isCloser]
  have hchars : ("\n" ++ text).toList = '\n' :: text.toList := by
    rw [String.toList_append]
    rfl
  rw [reads_cons, Piece.text_mark, hchars, List.map_cons, runRemark_cons, hstep, Option.bind_some,
    runRemark_of_not_isComment rfl, Option.bind_some]

/-- A separating sign is swallowed by a comment that runs. -/
theorem reads_true_mark (text : String) (h : text.toList.head?.any isSeparating = true)
    (rest : List Piece) : reads true (.mark text :: rest) = none := by
  obtain ⟨c, hfirst, hc⟩ := (Option.any_eq_true _ _).1 h
  obtain ⟨cs, hchars⟩ := List.head?_eq_some_iff.1 hfirst
  have hstep : stepRemark true (.mark text, c) = none := by
    simp [stepRemark, isStructural, Piece.isMark, hc]
  rw [reads_cons, Piece.text_mark, hchars, List.map_cons, runRemark_cons, hstep]
  rfl

/-- A comment runs from its first number sign. -/
theorem runRemark_comment {text : String} {cs : List Char} (hfeed : '\n' ∉ cs) (runs : Bool) :
    runRemark runs (cs.map (Piece.comment text, ·)) = some (runs || cs.contains '#') := by
  induction cs generalizing runs with
  | nil => simp [runRemark]
  | cons c rest ih =>
    rw [List.mem_cons, not_or] at hfeed
    have hstep : stepRemark runs (.comment text, c) = some (runs || c == '#') := by
      have hc : (c != '\n') = true := bne_iff_ne.2 (Ne.symm hfeed.1)
      simp [stepRemark, isStructural, opensRemark, Piece.isMark, Piece.isComment, hc]
    rw [List.map_cons, runRemark_cons, hstep, Option.bind_some, ih hfeed.2, List.contains_cons,
      Bool.or_assoc, BEq.comm]

/-! ### Expressions and lists -/

/-- The pieces of an expression. -/
def Expression.pieces (e : Expression) : List Piece :=
  if e.comment = "" then [.leaf e.text] else [.leaf e.text, .mark " ", .comment e.comment]

/-- Entries in a row, with a comma and a space between them. -/
def rowPieces : List (List Piece) → List Piece
  | [] => []
  | [entry] => entry
  | entry :: rest => entry ++ .mark ", " :: rowPieces rest

/-- Pieces on lines of their own, each line with some code before them. -/
def linePieces (pad : String) (lines : List (List Piece)) : List Piece :=
  lines.flatMap fun line => .mark ("\n" ++ pad) :: line

/-- Lines between brackets, the closing one below the start of the first line. -/
def enclosedPieces (opening closing : String) (indent : Int) (lines : List (List Piece)) :
    List Piece :=
  let pad := spaces indent.toNat
  .mark opening :: linePieces (pad ++ "  ") lines ++ [.mark ("\n" ++ (pad ++ closing))]

theorem rowPieces_cons {entries : List (List Piece)} (h : entries ≠ []) (entry : List Piece) :
    rowPieces (entry :: entries) = entry ++ .mark ", " :: rowPieces entries := by
  cases entries with
  | nil => exact absurd rfl h
  | cons second rest => rfl

theorem linePieces_cons (pad : String) (line : List Piece) (rest : List (List Piece)) :
    linePieces pad (line :: rest) = .mark ("\n" ++ pad) :: (line ++ linePieces pad rest) := rfl

/-- The text of pieces. -/
def textOf (pieces : List Piece) : String :=
  String.join (pieces.map Piece.text)

theorem textOf_cons (p : Piece) (rest : List Piece) : textOf (p :: rest) = p.text ++ textOf rest :=
  String.join_cons

theorem textOf_append (pieces more : List Piece) :
    textOf (pieces ++ more) = textOf pieces ++ textOf more := by
  rw [textOf, List.map_append, String.join_append]
  rfl

theorem textOf_singleton (p : Piece) : textOf [p] = p.text := by
  rw [textOf_cons, textOf, List.map_nil, String.join_nil, String.append_empty]

theorem Expression.textOf_pieces (e : Expression) : textOf e.pieces = e.render := by
  rw [pieces, render, renderBefore, remark]
  split
  · rw [textOf_singleton, String.append_empty, String.append_empty]
    rfl
  · rw [textOf_cons, textOf_cons, textOf_singleton, String.append_empty]
    rfl

/-- Whether the comment of an expression has a number sign in it. -/
def Expression.isRemarked (e : Expression) : Bool :=
  e.comment.toList.contains '#'

/-- The comment of an expression runs on behind it. -/
theorem Expression.reads_pieces {e : Expression} (h : e.IsOneLine) :
    reads false e.pieces = some e.isRemarked := by
  rw [pieces]
  split
  next hcomment =>
    rw [reads_false_cons rfl, reads_nil, isRemarked, hcomment]
    rfl
  next hcomment =>
    have htext : (Piece.comment e.comment).text = e.comment := rfl
    rw [reads_false_cons rfl, reads_false_cons rfl, reads_cons, htext, runRemark_comment h.2,
      Option.bind_some, Bool.false_or]
    rfl

theorem textOf_rowPieces (entries : List (List Piece)) :
    textOf (rowPieces entries) = ", ".intercalate (entries.map textOf) := by
  induction entries with
  | nil => rfl
  | cons entry rest ih =>
    by_cases hrest : rest = []
    · subst hrest
      rw [rowPieces, List.map_singleton, String.intercalate_singleton]
    · rw [rowPieces_cons hrest, textOf_append, textOf_cons, ih, Piece.text_mark, List.map_cons,
        String.intercalate_cons_of_ne_nil (by simpa using hrest), String.append_assoc]

/-- The lines and the one behind them, which is the line of the closing bracket. -/
theorem textOf_linePieces (pad last : String) (lines : List (List Piece)) :
    textOf (linePieces pad lines ++ [.mark ("\n" ++ last)]) =
      "\n" ++ "\n".intercalate ((lines.map textOf).map (pad ++ ·) ++ [last]) := by
  induction lines with
  | nil => exact textOf_singleton _
  | cons line rest ih =>
    rw [linePieces_cons, List.cons_append, List.append_assoc, textOf_cons, textOf_append, ih,
      List.map_cons, List.map_cons, List.cons_append, String.intercalate_cons_of_ne_nil (by simp),
      Piece.text_mark]
    simp only [String.append_assoc]

theorem textOf_enclosedPieces (opening closing : String) (indent : Int)
    (lines : List (List Piece)) : textOf (enclosedPieces opening closing indent lines) =
      Value.enclosedLines opening closing indent (lines.map textOf) := by
  rw [enclosedPieces, List.cons_append, textOf_cons, textOf_linePieces, Piece.text_mark,
    Value.enclosedLines]
  show _ = "\n".intercalate (opening :: (_ ++ [_]))
  rw [String.intercalate_cons_of_ne_nil (by simp), String.append_assoc]

/-- A comment runs at most to the end of its line. -/
theorem reads_linePieces (pad last : String) (lines : List (List Piece)) (runs : Bool) :
    reads runs (linePieces pad lines ++ [.mark ("\n" ++ last)]) =
      if ∀ line ∈ lines, reads false line ≠ none then some false else none := by
  induction lines generalizing runs with
  | nil =>
    rw [linePieces, List.flatMap_nil, List.nil_append, reads_feed_cons, reads_nil]
    rfl
  | cons line rest ih =>
    rw [linePieces_cons, List.cons_append, List.append_assoc, reads_feed_cons, reads_append]
    simp only [List.forall_mem_cons]
    cases hline : reads false line with
    | none => simp
    | some runs => simp [ih]

theorem reads_enclosedPieces (opening closing : String) (indent : Int)
    (lines : List (List Piece)) : reads false (enclosedPieces opening closing indent lines) =
      if ∀ line ∈ lines, reads false line ≠ none then some false else none := by
  rw [enclosedPieces, List.cons_append, reads_false_cons rfl, reads_linePieces]

/-- A separating sign is swallowed if a comment runs behind the entry before it. -/
theorem reads_separated (text : String) (h : text.toList.head?.any isSeparating = true)
    (entry rest : List Piece) : reads false (entry ++ .mark text :: rest) =
      if reads false entry = some false then reads false rest else none := by
  rw [reads_append]
  match reads false entry with
  | none => rfl
  | some false => rw [Option.bind_some, reads_false_cons rfl, if_pos rfl]
  | some true =>
    rw [Option.bind_some, reads_true_mark text h, if_neg (by decide)]

/-- In a row nothing is swallowed if no comment runs behind any of the entries. -/
theorem reads_rowPieces (entries : List (List Piece)) :
    reads false (rowPieces entries ++ [.mark "]"]) =
      if ∀ entry ∈ entries, reads false entry = some false then some false else none := by
  induction entries with
  | nil => rfl
  | cons entry rest ih =>
    by_cases hrest : rest = []
    · subst hrest
      rw [rowPieces, reads_separated "]" rfl]
      simp [reads_nil]
    · rw [rowPieces_cons hrest, List.append_assoc, List.cons_append, reads_separated ", " rfl, ih]
      by_cases hentry : reads false entry = some false
      · rw [if_pos hentry]
        refine if_congr ?_ rfl rfl
        rw [List.forall_mem_cons (l := rest)]
        exact (and_iff_right hentry).symm
      · rw [if_neg hentry, if_neg]
        exact fun hall => hentry (hall entry List.mem_cons_self)

/-! ### Native values -/

namespace Value

mutual

/-- The pieces of the native value whose first line starts in column `indent`. -/
def nativePieces (indent : Int) : Value → List Piece
  | .object members =>
    if members.isEmpty then [.mark "\x7b\x7d"]
    else enclosedPieces "\x7b" "\x7d" indent (nativeMemberPieces (indent + 2) members)
  | .tuple items =>
    if items.all isScalar then
      .mark "[" :: rowPieces (nativeItemPieces (indent + 2) items) ++ [.mark "]"]
    else
      enclosedPieces "[" "]" indent ((nativeItemPieces (indent + 2) items).map (· ++ [.mark ","]))
  | .expr e => e.pieces
  | .described text comment => (Expression.ofParts text comment).pieces
  | .null => [.leaf "null"]
  | .bool b => [.leaf (boolText b)]
  | .num n => [.leaf (numberText n)]
  | .str s => [.leaf (quote s)]

/-- The pieces of the items of a native tuple. -/
def nativeItemPieces (indent : Int) : List Value → List (List Piece)
  | [] => []
  | item :: rest => nativePieces indent item :: nativeItemPieces indent rest

/-- The pieces of the members of a native object. -/
def nativeMemberPieces (indent : Int) : List (String × Value) → List (List Piece)
  | [] => []
  | (key, value) :: rest =>
    (.key key :: .mark " = " :: nativePieces indent value) :: nativeMemberPieces indent rest

end

theorem nativeItemPieces_eq_map (indent : Int) (items : List Value) :
    nativeItemPieces indent items = items.map (nativePieces indent) := by
  induction items with
  | nil => rfl
  | cons item rest ih => rw [nativeItemPieces, ih, List.map_cons]

theorem nativeMemberPieces_eq_map (indent : Int) (members : List (String × Value)) :
    nativeMemberPieces indent members =
      members.map fun m => .key m.1 :: .mark " = " :: nativePieces indent m.2 := by
  induction members with
  | nil => rfl
  | cons member rest ih => rw [nativeMemberPieces, ih, List.map_cons]

theorem nativeItems_eq_map (indent : Int) (items : List Value) :
    nativeItems indent items = items.map (nativeText indent) := by
  induction items with
  | nil => rfl
  | cons item rest ih => rw [nativeItems, ih, List.map_cons]

theorem nativeMembers_eq_map (indent : Int) (members : List (String × Value)) :
    nativeMembers indent members =
      members.map fun m => keyText m.1 ++ " = " ++ nativeText indent m.2 := by
  induction members with
  | nil => rfl
  | cons member rest ih => rw [nativeMembers, ih, List.map_cons]

/-- The pieces of a native value are those of its text. -/
theorem textOf_nativePieces (value : Value) (indent : Int) :
    textOf (nativePieces indent value) = nativeText indent value := by
  induction value using Value.induction generalizing indent with
  | null => exact textOf_singleton _
  | bool b => exact textOf_singleton _
  | num n => exact textOf_singleton _
  | str s => exact textOf_singleton _
  | expr e => exact e.textOf_pieces
  | described text comment => exact (Expression.ofParts text comment).textOf_pieces
  | tuple items ih =>
    have htexts : (nativeItemPieces (indent + 2) items).map textOf =
        nativeItems (indent + 2) items := by
      rw [nativeItemPieces_eq_map, nativeItems_eq_map, List.map_map]
      exact List.map_congr_left fun item hitem => ih item hitem (indent + 2)
    rw [nativePieces, nativeText]
    split
    · rw [List.cons_append, textOf_cons, textOf_append, textOf_rowPieces, htexts, textOf_singleton,
        Piece.text_mark, Piece.text_mark, String.append_assoc]
    · rw [textOf_enclosedPieces, ← htexts, List.map_map, List.map_map]
      refine congrArg _ (List.map_congr_left fun entry _ => ?_)
      exact (textOf_append _ _).trans (congrArg _ (textOf_singleton _))
  | object members ih =>
    rw [nativePieces, nativeText]
    split
    · exact textOf_singleton _
    · rw [textOf_enclosedPieces, nativeMemberPieces_eq_map, nativeMembers_eq_map, List.map_map]
      refine congrArg _ (List.map_congr_left fun member hmember => ?_)
      rw [Function.comp_apply, textOf_cons, textOf_cons, ih member hmember, Piece.text_mark,
        String.append_assoc]
      rfl

/-! ### Comments in native values -/

/-- Whether a value is an expression whose comment has a number sign in it. -/
def isRemarked (value : Value) : Bool :=
  value.expression?.any Expression.isRemarked

/-- Whether such an expression is an item of a tuple, at any depth. -/
def listsRemark (value : Value) : Bool :=
  value.parts.any fun part =>
    match part with
    | .tuple items => items.any isRemarked
    | _ => false

theorem listsRemark_eq_true_iff {value : Value} : value.listsRemark = true ↔
    ∃ items, .tuple items ∈ value.parts ∧ ∃ item ∈ items, item.isRemarked = true := by
  rw [listsRemark, List.any_eq_true]
  constructor
  · rintro ⟨part, hpart, hremarked⟩
    split at hremarked
    next items => exact ⟨items, hpart, List.any_eq_true.1 hremarked⟩
    next => exact absurd hremarked (by decide)
  · rintro ⟨items, hpart, hremarked⟩
    exact ⟨.tuple items, hpart, List.any_eq_true.2 hremarked⟩

theorem listsRemark_tuple (items : List Value) : listsRemark (.tuple items) = false ↔
    ∀ item ∈ items, item.listsRemark = false ∧ item.isRemarked = false := by
  rw [listsRemark, parts, itemParts_eq_flatMap, List.any_cons, List.any_flatMap]
  change (items.any isRemarked || items.any listsRemark) = false ↔ _
  simp only [Bool.or_eq_false_iff, List.any_eq_false, Bool.not_eq_true]
  constructor
  · rintro ⟨hremarked, hlists⟩ item hitem
    exact ⟨hlists item hitem, hremarked item hitem⟩
  · intro h
    exact ⟨fun item hitem => (h item hitem).2, fun item hitem => (h item hitem).1⟩

theorem listsRemark_object (members : List (String × Value)) :
    listsRemark (.object members) = false ↔ ∀ member ∈ members, member.2.listsRemark = false := by
  rw [listsRemark, parts, memberParts_eq_flatMap, List.any_cons, List.any_flatMap]
  change (false || members.any fun member => member.2.listsRemark) = false ↔ _
  simp only [Bool.false_or, List.any_eq_false, Bool.not_eq_true]

/-- **How a native value is read.** There is no reading if a tuple in it has an item with a comment;
otherwise a comment runs behind it only if it is an expression with one. -/
theorem reads_nativePieces (value : Value) (h : ∀ e ∈ value.expressions, e.IsOneLine)
    (indent : Int) : reads false (nativePieces indent value) =
      if value.listsRemark = false then some value.isRemarked else none := by
  induction value using Value.induction generalizing indent with
  | null => rfl
  | bool b => exact reads_false_cons rfl []
  | num n => exact reads_false_cons rfl []
  | str s => exact reads_false_cons rfl []
  | expr e => exact Expression.reads_pieces (h e List.mem_cons_self)
  | described text comment => exact Expression.reads_pieces (h _ List.mem_cons_self)
  | tuple items ih =>
    rw [expressions_tuple] at h
    have hitems : (∀ entry ∈ nativeItemPieces (indent + 2) items, reads false entry = some false) ↔
        listsRemark (.tuple items) = false := by
      rw [nativeItemPieces_eq_map, List.forall_mem_map, listsRemark_tuple]
      refine forall₂_congr fun item hitem => ?_
      rw [ih item hitem fun e he => h e (List.mem_flatMap.2 ⟨item, hitem, he⟩)]
      cases item.listsRemark <;> simp
    rw [nativePieces]
    split
    · rw [List.cons_append, reads_false_cons rfl, reads_rowPieces]
      exact if_congr hitems rfl rfl
    · rw [reads_enclosedPieces]
      refine if_congr ?_ rfl rfl
      rw [List.forall_mem_map, ← hitems]
      refine forall₂_congr fun entry _ => ?_
      rw [reads_separated "," rfl, ite_ne_right_iff]
      exact and_iff_left (by decide)
  | object members ih =>
    rw [expressions_object] at h
    rw [nativePieces]
    split
    next hempty =>
      rw [List.isEmpty_iff.1 hempty]
      rfl
    next =>
      rw [reads_enclosedPieces]
      refine if_congr ?_ rfl rfl
      rw [nativeMemberPieces_eq_map, List.forall_mem_map, listsRemark_object]
      refine forall₂_congr fun member hmember => ?_
      rw [reads_false_cons rfl, reads_false_cons rfl,
        ih member hmember fun e he => h e (List.mem_flatMap.2 ⟨member, hmember, he⟩),
        ite_ne_right_iff]
      exact and_iff_left (Option.some_ne_none _)

/-! ### Keys of native values -/

theorem key_mem_enclosedPieces {name opening closing : String} {indent : Int}
    {lines : List (List Piece)} : .key name ∈ enclosedPieces opening closing indent lines ↔
      ∃ line ∈ lines, .key name ∈ line := by
  simp [enclosedPieces, linePieces]

theorem key_mem_rowPieces {name : String} {entries : List (List Piece)} :
    .key name ∈ rowPieces entries ↔ ∃ entry ∈ entries, .key name ∈ entry := by
  induction entries with
  | nil => simp [rowPieces]
  | cons entry rest ih =>
    cases rest with
    | nil => simp [rowPieces]
    | cons second rest => simp [rowPieces, ih]

theorem key_not_mem_pieces {name : String} (e : Expression) : .key name ∉ e.pieces := by
  rw [Expression.pieces]
  split <;> simp

/-- Whether a text is a key of an object in a value, at any depth. -/
def HasKey (value : Value) (name : String) : Prop :=
  ∃ members, .object members ∈ value.parts ∧ name ∈ members.map Prod.fst

theorem hasKey_tuple {items : List Value} {name : String} :
    HasKey (.tuple items) name ↔ ∃ item ∈ items, item.HasKey name := by
  simp only [HasKey, parts, itemParts_eq_flatMap, List.mem_cons, List.mem_flatMap, reduceCtorEq,
    false_or]
  constructor
  · rintro ⟨members, ⟨item, hitem, hmembers⟩, hname⟩
    exact ⟨item, hitem, members, hmembers, hname⟩
  · rintro ⟨item, hitem, members, hmembers, hname⟩
    exact ⟨members, ⟨item, hitem, hmembers⟩, hname⟩

theorem hasKey_object {members : List (String × Value)} {name : String} :
    HasKey (.object members) name ↔ ∃ member ∈ members, name = member.1 ∨ member.2.HasKey name := by
  simp only [HasKey, parts, memberParts_eq_flatMap, List.mem_cons, List.mem_flatMap, List.mem_map,
    Value.object.injEq]
  constructor
  · rintro ⟨inner, rfl | ⟨member, hmember, hinner⟩, hname⟩
    · obtain ⟨member, hmember, rfl⟩ := hname
      exact ⟨member, hmember, Or.inl rfl⟩
    · exact ⟨member, hmember, Or.inr ⟨inner, hinner, hname⟩⟩
  · rintro ⟨member, hmember, rfl | ⟨inner, hinner, hname⟩⟩
    · exact ⟨members, Or.inl rfl, member, hmember, rfl⟩
    · exact ⟨inner, Or.inr ⟨member, hmember, hinner⟩, hname⟩

/-- The keys of all objects in a value are written, and no others. -/
theorem key_mem_nativePieces {name : String} (value : Value) (indent : Int) :
    .key name ∈ nativePieces indent value ↔ value.HasKey name := by
  induction value using Value.induction generalizing indent with
  | null => simp [nativePieces, HasKey, parts]
  | bool b => simp [nativePieces, HasKey, parts]
  | num n => simp [nativePieces, HasKey, parts]
  | str s => simp [nativePieces, HasKey, parts]
  | expr e => simp [nativePieces, HasKey, parts, key_not_mem_pieces]
  | described text comment => simp [nativePieces, HasKey, parts, key_not_mem_pieces]
  | tuple items ih =>
    have hitems : (∃ entry ∈ nativeItemPieces (indent + 2) items, .key name ∈ entry) ↔
        HasKey (.tuple items) name := by
      simp only [nativeItemPieces_eq_map, List.mem_map, exists_exists_and_eq_and, hasKey_tuple]
      exact exists_congr fun item => and_congr_right fun hitem => ih item hitem (indent + 2)
    rw [nativePieces, ← hitems]
    split
    · simp [key_mem_rowPieces]
    · simp [key_mem_enclosedPieces]
  | object members ih =>
    rw [nativePieces, hasKey_object]
    split
    next hempty => simp [List.isEmpty_iff.1 hempty]
    next =>
      simp only [key_mem_enclosedPieces, nativeMemberPieces_eq_map, List.mem_map,
        exists_exists_and_eq_and]
      refine exists_congr fun member => and_congr_right fun hmember => ?_
      rw [← ih member hmember (indent + 2)]
      simp

theorem feed_not_mem_of_isIdentifier {cs : List Char} (h : isIdentifier cs = true) : '\n' ∉ cs := by
  cases cs with
  | nil => simp
  | cons c rest =>
    simp only [isIdentifier, Bool.and_eq_true, List.all_eq_true] at h
    rw [List.mem_cons, not_or]
    constructor
    · rintro rfl
      exact absurd h.1 (by decide)
    · intro hfeed
      exact absurd (h.2 _ hfeed) (by decide)

/-- A key is neither quoted nor a bare identifier exactly if it is an identifier with a line feed
behind it. -/
theorem keyText_cases (name : String) :
    (keyText name = quote name ∨ (keyText name = name ∧ isIdentifier name.toList = true)) ↔
      ¬∃ cs, isIdentifier cs = true ∧ name.toList = cs ++ ['\n'] := by
  by_cases hbroken : ∃ cs, isIdentifier cs = true ∧ name.toList = cs ++ ['\n']
  · obtain ⟨cs, hcs, hname⟩ := hbroken
    have hfeed : '\n' ∈ name.toList := by simp [hname]
    have hbare : isBareKey name = true := by simp [isBareKey, hname, hcs]
    refine iff_of_false ?_ (not_not_intro ⟨cs, hcs, hname⟩)
    rw [keyText, if_pos hbare]
    rintro (hquote | ⟨-, hidentifier⟩)
    · rw [hquote] at hfeed
      exact feed_not_mem_quote name hfeed
    · exact feed_not_mem_of_isIdentifier hidentifier hfeed
  · refine iff_of_true ?_ hbroken
    rw [keyText]
    split
    next hbare =>
      refine Or.inr ⟨rfl, ?_⟩
      simp only [isBareKey, Bool.or_eq_true, Bool.and_eq_true, beq_iff_eq] at hbare
      rcases hbare with hidentifier | ⟨hlast, hidentifier⟩
      · exact hidentifier
      · exact absurd ⟨_, hidentifier, (List.dropLast_append_getLast? _ hlast).symm⟩ hbroken
    next => exact Or.inl rfl

/-! ### The structure of native values -/

/-- A comma or a closing bracket is swallowed exactly if an expression with a number sign in its
comment is an item of a tuple. -/
theorem swallowed_nativePieces_iff {value : Value} (h : ∀ e ∈ value.expressions, e.IsOneLine)
    (indent : Int) : Swallowed (Piece.signs (nativePieces indent value)) ↔
      ∃ items, .tuple items ∈ value.parts ∧ ∃ item ∈ items, item.isRemarked = true := by
  have hstops : reads false (nativePieces indent value) = none ↔
      Swallowed (Piece.signs (nativePieces indent value)) := by
    rw [reads, runRemark_eq_none_iff]
    simp
  rw [← hstops, reads_nativePieces value h, ← listsRemark_eq_true_iff]
  cases value.listsRemark <;> simp

theorem keepsKeys_nativePieces_iff {value : Value} {indent : Int} :
    Piece.KeepsKeys (nativePieces indent value) ↔ ∀ name, value.HasKey name →
      ¬∃ cs, isIdentifier cs = true ∧ name.toList = cs ++ ['\n'] := by
  refine forall_congr' fun name => ?_
  rw [key_mem_nativePieces]
  exact forall_congr' fun _ => keyText_cases name

/-- **When native values keep their structure.** The pieces are those of the text, and their keys
those of all objects. If no expression holds a line feed, a comma or a closing bracket stands in a
comment exactly if an expression with a number sign in its comment is an item of a tuple. And every
key is quoted or a bare identifier, unless it is an identifier with a line feed behind it. -/
theorem native_structure (value : Value) (h : ∀ e ∈ value.expressions, e.IsOneLine) (indent : Int) :
    textOf (nativePieces indent value) = nativeText indent value ∧
    (∀ name, .key name ∈ nativePieces indent value ↔ value.HasKey name) ∧
    (Swallowed (Piece.signs (nativePieces indent value)) ↔
      ∃ items, .tuple items ∈ value.parts ∧ ∃ item ∈ items, item.isRemarked = true) ∧
    (Piece.KeepsKeys (nativePieces indent value) ↔ ∀ name, value.HasKey name →
      ¬∃ cs, isIdentifier cs = true ∧ name.toList = cs ++ ['\n']) :=
  ⟨textOf_nativePieces value indent, fun _ => key_mem_nativePieces value indent,
    swallowed_nativePieces_iff h indent, keepsKeys_nativePieces_iff⟩

/-- An object with comments behind members at any depth, and a tuple whose items have none. -/
def remarkedMembers : Value :=
  .object [("a", .expr ⟨"x", "# first"⟩), ("needs space", .tuple [.expr ⟨"y", ""⟩, .str "z"]),
    ("b", .tuple [.object [("c", .expr ⟨"w", "# last"⟩)]])]

theorem native_structure_remarkedMembers :
    (∀ e ∈ remarkedMembers.expressions, e.IsOneLine) ∧
    textOf (nativePieces 2 remarkedMembers) = nativeText 2 remarkedMembers ∧
    (∀ name, .key name ∈ nativePieces 2 remarkedMembers ↔ remarkedMembers.HasKey name) ∧
    (Swallowed (Piece.signs (nativePieces 2 remarkedMembers)) ↔
      ∃ items, .tuple items ∈ remarkedMembers.parts ∧ ∃ item ∈ items, item.isRemarked = true) ∧
    (Piece.KeepsKeys (nativePieces 2 remarkedMembers) ↔ ∀ name, remarkedMembers.HasKey name →
      ¬∃ cs, isIdentifier cs = true ∧ name.toList = cs ++ ['\n']) :=
  have h : ∀ e ∈ remarkedMembers.expressions, e.IsOneLine := by decide
  ⟨h, native_structure remarkedMembers h 2⟩

/-- A row whose first comment swallows the comma and the closing bracket. -/
def remarkedRow : Value :=
  .tuple [.expr ⟨"a", "# b"⟩, .num (.int 1)]

/-- A list on several lines whose comment swallows the comma behind it. -/
def remarkedLines : Value :=
  .tuple [.expr ⟨"a", "# b"⟩, .tuple []]

/-- An object with a key that is an identifier but for the line feed at its end. -/
def brokenKey : Value :=
  .object [("a\n", .null)]

/-- Comments swallow what follows them in lists, and a key on two lines is left bare. -/
theorem native_structure_lost :
    ((∀ e ∈ remarkedRow.expressions, e.IsOneLine) ∧
      Swallowed (Piece.signs (nativePieces 0 remarkedRow))) ∧
    ((∀ e ∈ remarkedLines.expressions, e.IsOneLine) ∧
      Swallowed (Piece.signs (nativePieces 0 remarkedLines))) ∧
    ((∀ e ∈ brokenKey.expressions, e.IsOneLine) ∧
      ¬Piece.KeepsKeys (nativePieces 0 brokenKey)) := by
  have hrow : ∀ e ∈ remarkedRow.expressions, e.IsOneLine := by decide
  have hlines : ∀ e ∈ remarkedLines.expressions, e.IsOneLine := by decide
  have hkey : ∀ e ∈ brokenKey.expressions, e.IsOneLine := by decide
  refine ⟨⟨hrow, (swallowed_nativePieces_iff hrow 0).2 ?_⟩,
    ⟨hlines, (swallowed_nativePieces_iff hlines 0).2 ?_⟩, hkey, fun h => ?_⟩
  · exact ⟨_, List.mem_cons_self, _, List.mem_cons_self, rfl⟩
  · exact ⟨_, List.mem_cons_self, _, List.mem_cons_self, rfl⟩
  · refine keepsKeys_nativePieces_iff.1 h "a\n" ?_ ⟨['a'], rfl, rfl⟩
    exact ⟨_, List.mem_cons_self, List.mem_cons_self⟩

/-- What these values are written as. -/
example : nativeText 0 remarkedRow = "[a # b, 1]" ∧
    nativeText 0 remarkedLines = "[\n  a # b,\n  [],\n]" ∧
    nativeText 0 brokenKey = "\x7b\n  a\n = null\n\x7d" := by
  decide

end Value

end Hcl
end HclExport
