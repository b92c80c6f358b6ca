import HclExport.Proofs.Hcl.Header
import HclExport.Proofs.Hcl.Tidy

/-!
# The blocks of a configuration

What a configuration declares can be read off the headers of those blocks that stand in no other
block. The reader of a configuration finds them: a header is what stands on the line before a
bracket that opens outside of all others. For resources that are written one after the other these
are the headers that were written, provided that the bodies are tidy.

## Main definitions

* `headersFrom`, `topHeaders` — the headers of the blocks of a text that stand in no other block.
* `Flat` — a text that belongs to a header wherever it stands on its line.
* `Outlines` — a text that has given headers, and leaves a reader at the start of a line.
* `IsHeader` — a text that can be the header of a block.

## Main results

* `headersFrom_inside` — what stands in brackets has no headers.
* `outlines_intercalate` — texts with an empty line between them.
* `Item.outlines_renderAll_blocks` — tidy blocks with an empty line between them.
-/

namespace HclExport
namespace Hcl

/-! ### Headers -/

/-- The headers in what is left of a text, given where a reader stands and what was read of the
line so far. What stands in brackets is passed over. -/
def headersFrom : Reading → List Char → List Char → List (List Char)
  | _, _, [] => []
  | r, line, c :: rest =>
    match r.step c with
    | none => []
    | some next =>
      if r.closers ≠ [] then headersFrom next line rest
      else if next.closers ≠ [] then line :: headersFrom next [] rest
      else if c = '\n' then headersFrom next [] rest
      else headersFrom next (line ++ [c]) rest

/-- The headers of a text, without the blanks at their ends. -/
def headersOf (cs : List Char) : List String :=
  (headersFrom ⟨.code, []⟩ [] cs).map fun line => trimRight (String.ofList line)

/-- The headers of the blocks of a text that stand in no other block. -/
def topHeaders (text : String) : List String :=
  headersOf text.toList

/-! ### In brackets -/

/-- Further brackets around a text do not change how it is read. -/
theorem Reading.step_around {region region' : Region} {closers closers' : List Char} {c : Char}
    (h : (⟨region, closers⟩ : Reading).step c = some ⟨region', closers'⟩) (outer : List Char) :
    (⟨region, closers ++ outer⟩ : Reading).step c = some ⟨region', closers' ++ outer⟩ := by
  have hsame : ∀ {kept kept' : Region}, (some ⟨kept, closers⟩ : Option Reading) =
      some ⟨kept', closers'⟩ → (some ⟨kept, closers ++ outer⟩ : Option Reading) =
        some ⟨kept', closers' ++ outer⟩ := by
    intro kept kept' heq
    obtain ⟨rfl, rfl⟩ := Reading.mk.inj (Option.some.inj heq)
    rfl
  cases region with
  | code =>
    simp only [step, stepCode] at h ⊢
    by_cases hquote : c = '"'
    · rw [if_pos hquote] at h ⊢
      exact hsame h
    by_cases hsign : c = '#'
    · rw [if_neg hquote, if_pos hsign] at h ⊢
      exact hsame h
    rw [if_neg hquote, if_neg hsign] at h ⊢
    cases hopens : closer? c with
    | some closer =>
      rw [hopens] at h
      obtain ⟨rfl, rfl⟩ := Reading.mk.inj (Option.some.inj h)
      rfl
    | none =>
      rw [hopens] at h
      dsimp only at h ⊢
      by_cases hcloses : isCloser c = true
      · rw [if_pos hcloses] at h ⊢
        -- the bracket that is closed is one of the inner ones
        cases closers with
        | nil => cases h
        | cons expected rest =>
          dsimp only [List.cons_append] at h ⊢
          by_cases hexpected : c = expected
          · rw [if_pos hexpected] at h ⊢
            obtain ⟨rfl, rfl⟩ := Reading.mk.inj (Option.some.inj h)
            rfl
          · rw [if_neg hexpected] at h
            cases h
      · rw [if_neg hcloses] at h ⊢
        exact hsame h
  | literal =>
    simp only [step] at h ⊢
    by_cases hfeed : c = '\n'
    · rw [if_pos hfeed] at h
      cases h
    rw [if_neg hfeed] at h ⊢
    by_cases hquote : c = '"'
    · rw [if_pos hquote] at h ⊢
      exact hsame h
    rw [if_neg hquote] at h ⊢
    by_cases hbackslash : c = '\\'
    · rw [if_pos hbackslash] at h ⊢
      exact hsame h
    · rw [if_neg hbackslash] at h ⊢
      exact hsame h
  | escaped =>
    simp only [step] at h ⊢
    by_cases hfeed : c = '\n'
    · rw [if_pos hfeed] at h
      cases h
    · rw [if_neg hfeed] at h ⊢
      exact hsame h
  | remark =>
    simp only [step] at h ⊢
    by_cases hfeed : c = '\n'
    · rw [if_pos hfeed] at h ⊢
      exact hsame h
    · rw [if_neg hfeed] at h ⊢
      exact hsame h

/-- What stands in brackets has no headers. -/
theorem headersFrom_inside {cs : List Char} {r next : Reading} (h : r.after cs = some next)
    {outer : List Char} (houter : outer ≠ []) (line more : List Char) :
    headersFrom ⟨r.region, r.closers ++ outer⟩ line (cs ++ more) =
      headersFrom ⟨next.region, next.closers ++ outer⟩ line more := by
  induction cs generalizing r with
  | nil =>
    obtain rfl := Option.some.inj h
    rfl
  | cons c rest ih =>
    rw [Reading.after_cons] at h
    obtain ⟨mid, hstep, hrest⟩ := Option.bind_eq_some_iff.1 h
    have hinside : r.closers ++ outer ≠ [] := by
      simp [houter]
    rw [List.cons_append, headersFrom, Reading.step_around hstep outer]
    dsimp only
    rw [if_pos hinside]
    exact ih hrest

/-! ### On the line of a header -/

/-- A text that belongs to a header wherever it stands on its line. -/
def Flat (s : String) : Prop :=
  ∀ line more, headersFrom ⟨.code, []⟩ line (s.toList ++ more) =
    headersFrom ⟨.code, []⟩ (line ++ s.toList) more

theorem Flat.append {s t : String} (hs : Flat s) (ht : Flat t) : Flat (s ++ t) := by
  intro line more
  rw [String.toList_append, List.append_assoc, hs, ht, List.append_assoc]

/-- Outside of brackets, what opens none and ends no line is read as part of a header. -/
theorem headersFrom_onLine {region next : Region} {c : Char}
    (h : (⟨region, []⟩ : Reading).step c = some ⟨next, []⟩) (hfeed : c ≠ '\n')
    (line rest : List Char) :
    headersFrom ⟨region, []⟩ line (c :: rest) = headersFrom ⟨next, []⟩ (line ++ [c]) rest := by
  rw [headersFrom, h]
  dsimp only
  rw [if_neg (by simp), if_neg (by simp), if_neg hfeed]

/-- A text without structuring signs and line feeds belongs to a header. -/
theorem flat_of_inert {s : String} (h : s.toList.all isInert = true) (hfeed : '\n' ∉ s.toList) :
    Flat s := by
  intro line more
  generalize s.toList = cs at h hfeed
  induction cs generalizing line with
  | nil => simp
  | cons c rest ih =>
    simp only [List.all_cons, Bool.and_eq_true] at h
    obtain ⟨hc, hrest⟩ := List.ne_and_not_mem_of_not_mem_cons hfeed
    have hstep : (⟨.code, []⟩ : Reading).step c = some ⟨.code, []⟩ :=
      Reading.stepCode_of_inert h.1 []
    rw [List.cons_append, headersFrom_onLine hstep (Ne.symm hc), ih _ h.2 hrest,
      List.append_assoc, List.singleton_append]

/-- The inside of a literal belongs to a header. -/
theorem headersFrom_literal {cs : List Char} (h : cs.all isPlain = true) (line more : List Char) :
    headersFrom ⟨.literal, []⟩ line (cs ++ more) = headersFrom ⟨.literal, []⟩ (line ++ cs) more := by
  induction cs generalizing line with
  | nil => simp
  | cons c rest ih =>
    simp only [List.all_cons, Bool.and_eq_true, isPlain, bne_iff_ne] at h
    obtain ⟨⟨⟨hquote, hbackslash⟩, hfeed⟩, hrest⟩ := h
    have hstep : (⟨.literal, []⟩ : Reading).step c = some ⟨.literal, []⟩ := by
      simp [Reading.step, hquote, hbackslash, hfeed]
    rw [List.cons_append, headersFrom_onLine hstep hfeed, ih hrest, List.append_assoc,
      List.singleton_append]

/-- A text in quotes belongs to a header, unless it holds a quote, a backslash or a line feed. -/
theorem flat_between_quotes {s : String} (h : s.toList.all isPlain = true) :
    Flat ("\"" ++ s ++ "\"") := by
  intro line more
  have hquote : "\"".toList = ['"'] := by decide
  have hopen : ∀ cs, headersFrom ⟨.code, []⟩ line ('"' :: cs) =
      headersFrom ⟨.literal, []⟩ (line ++ ['"']) cs := fun _ => rfl
  have hclose : ∀ line cs, headersFrom ⟨.literal, []⟩ line ('"' :: cs) =
      headersFrom ⟨.code, []⟩ (line ++ ['"']) cs := fun _ _ => rfl
  rw [String.toList_append, String.toList_append, hquote, List.append_assoc, List.append_assoc,
    List.singleton_append, hopen, headersFrom_literal h, List.singleton_append, hclose]
  simp only [List.append_assoc, List.singleton_append]

/-! ### Texts with headers -/

/-- A text that has given headers, and leaves a reader at the start of a line. -/
def Outlines (s : String) (headers : List String) : Prop :=
  ∀ more, headersOf (s.toList ++ more) = headers ++ headersOf more

theorem Outlines.topHeaders_eq {s : String} {headers : List String} (h : Outlines s headers) :
    topHeaders s = headers := by
  have hall := h []
  rw [List.append_nil] at hall
  rw [topHeaders, hall]
  exact List.append_nil headers

theorem outlines_empty : Outlines "" [] := by
  intro more
  rfl

theorem outlines_lineFeed : Outlines "\n" [] := by
  intro more
  rfl

theorem Outlines.append {s t : String} {headers more : List String} (hs : Outlines s headers)
    (ht : Outlines t more) : Outlines (s ++ t) (headers ++ more) := by
  intro rest
  rw [String.toList_append, List.append_assoc, hs, ht, List.append_assoc]

/-- Texts with an empty line between them have the headers of all. -/
theorem outlines_intercalate {α : Type} {text : α → String} {headers : α → List String}
    {parts : List α} (h : ∀ part ∈ parts, Outlines (text part ++ "\n") (headers part)) :
    Outlines ("\n\n".intercalate (parts.map text) ++ "\n") (parts.flatMap headers) := by
  have hfeeds : "\n\n" = "\n" ++ "\n" := by decide
  induction parts with
  | nil => exact outlines_lineFeed
  | cons first rest ih =>
    obtain ⟨hfirst, hrest⟩ := List.forall_mem_cons.1 h
    cases rest with
    | nil => simpa using hfirst
    | cons second rest =>
      rw [List.map_cons, List.map_cons, String.intercalate_cons_cons, List.flatMap_cons, hfeeds]
      have hall := (hfirst.append outlines_lineFeed).append (ih hrest)
      rw [List.map_cons, hfeeds, List.append_nil] at hall
      simpa only [String.append_assoc] using hall

/-! ### Blocks -/

/-- A header: a text that belongs to one line and ends with a quote. -/
structure IsHeader (header : String) : Prop where
  flat : Flat header
  quoted : header.toList.getLast? = some '"'

theorem flat_space : Flat " " :=
  flat_of_inert (by decide) (by decide)

theorem getLast?_append_quote (s : String) : (s ++ "\"").toList.getLast? = some '"' := by
  have hquote : "\"".toList = ['"'] := by decide
  rw [String.toList_append, hquote, List.getLast?_concat]

theorem isHeader_resource {type name : String} (htype : IsWord type) (hname : IsWord name) :
    IsHeader (resourceHeader type name) := by
  have hplain : ∀ {word : String}, IsWord word → word.toList.all isPlain = true :=
    fun hword => List.all_eq_true.2 fun c hc => isPlain_of_isWordChar (hword c hc)
  constructor
  · rw [resourceHeader_eq]
    exact (((flat_of_inert (by decide) (by decide)).append (flat_between_quotes (hplain htype))).append
      flat_space).append (flat_between_quotes (hplain hname))
  · exact getLast?_append_quote _

theorem isHeader_variable {name : String} (hname : name.toList.all isPlain = true) :
    IsHeader ("variable \"" ++ name ++ "\"") := by
  have hopen : "variable \"" = "variable " ++ "\"" := by decide
  constructor
  · have hflat : Flat ("variable " ++ ("\"" ++ name ++ "\"")) :=
      (flat_of_inert (by decide) (by decide)).append (flat_between_quotes hname)
    rw [hopen]
    simpa only [String.append_assoc] using hflat
  · exact getLast?_append_quote _

theorem IsHeader.ne_empty {header : String} (h : IsHeader header) : header ≠ "" := by
  rintro rfl
  have hquoted := h.quoted
  simp at hquoted

/-- A block has its header, if the body is neutral. -/
theorem IsHeader.outlines_braces {header body : String} (h : IsHeader header)
    (hbody : Neutral body) : Outlines (header ++ " \x7b" ++ body ++ "\x7d" ++ "\n") [header] := by
  have hopen : " \x7b" = " " ++ "\x7b" := by decide
  have hbrace : "\x7b".toList = ['\x7b'] := by decide
  have hclose : "\x7d".toList = ['\x7d'] := by decide
  have hfeed : "\n".toList = ['\n'] := by decide
  intro more
  have htext : (header ++ " \x7b" ++ body ++ "\x7d" ++ "\n").toList ++ more =
      (header ++ " ").toList ++ '\x7b' :: (body.toList ++ '\x7d' :: '\n' :: more) := by
    rw [hopen]
    simp only [String.toList_append, List.append_assoc, hbrace, hclose, hfeed, List.cons_append,
      List.nil_append]
  have hread : headersFrom ⟨.code, []⟩ [] ((header ++ " \x7b" ++ body ++ "\x7d" ++ "\n").toList ++ more) =
      (header ++ " ").toList :: headersFrom ⟨.code, []⟩ [] more := by
    rw [htext, h.flat.append flat_space, List.nil_append]
    -- the brace opens the block, and whatever is inside is passed over
    show (header ++ " ").toList :: headersFrom ⟨.code, ['\x7d']⟩ []
      (body.toList ++ '\x7d' :: '\n' :: more) = _
    have hinside := headersFrom_inside (hbody []) (List.cons_ne_nil '\x7d' []) []
      ('\x7d' :: '\n' :: more)
    dsimp only [List.nil_append] at hinside
    rw [hinside]
    rfl
  unfold headersOf
  rw [hread, List.map_cons, String.ofList_toList,
    trimRight_append_blanks h.quoted (by decide) (by decide), List.singleton_append]

/-! ### What is written -/

/-- An empty line has no header. -/
theorem Writer.outlines_blank {w : Writer} (hw : w.closers = []) :
    ∃ more, Outlines more [] ∧ w.blank.text = w.text ++ more := by
  have hsame : ∃ more, Outlines more [] ∧ w.text = w.text ++ more :=
    ⟨"", outlines_empty, String.append_empty.symm⟩
  unfold blank
  split
  · exact hsame
  · split
    · exact hsame
    · obtain ⟨front, -, houtside, htext⟩ := exists_text_line "" w
      refine ⟨"\n", outlines_lineFeed, ?_⟩
      rw [htext, houtside hw, String.empty_append, String.empty_append]

namespace Item

/-- A tidy block has its header. -/
theorem outlines_write_braced {header : String} {body : List Item} (hheader : IsHeader header)
    (hbody : ∀ item ∈ body, item.Tidy) {w : Writer} (hw : w.closers = []) :
    ∃ more, Outlines more [header] ∧ (write w (braced header body)).text = w.text ++ more := by
  have hinside := adds_writeAll (fun item hitem => (hbody item hitem).adds)
    (w.enter header "\x7b" "\x7d")
  obtain ⟨-, front, inside, -, houtside, hneutral, htext⟩ := Writer.exists_text_block hinside
  have hopen : " \x7b" = " " ++ "\x7b" := by decide
  unfold braced write
  refine ⟨_, hheader.outlines_braces hneutral, ?_⟩
  rw [htext, houtside hw, Writer.blockHead, if_neg hheader.ne_empty, hopen]
  simp only [String.empty_append, String.append_assoc]

/-- Tidy blocks have their headers. -/
theorem outlines_writeAll_blocks {parts : List (String × List Item)}
    (h : ∀ part ∈ parts, IsHeader part.1 ∧ ∀ item ∈ part.2, item.Tidy) {w : Writer}
    (hw : w.closers = []) :
    ∃ more, Outlines more (parts.map Prod.fst) ∧
      (writeAll w (blocks parts)).text = w.text ++ more := by
  induction parts generalizing w with
  | nil => exact ⟨"", outlines_empty, String.append_empty.symm⟩
  | cons part rest ih =>
    obtain ⟨⟨hheader, hbody⟩, hrest⟩ := List.forall_mem_cons.1 h
    obtain ⟨first, hfirst, htext⟩ := outlines_write_braced hheader hbody hw
    have hclosers := (closers_write w (braced part.1 part.2)).trans hw
    cases rest with
    | nil => exact ⟨first, hfirst, htext⟩
    | cons second rest =>
      obtain ⟨empty, hempty, hblank⟩ := Writer.outlines_blank hclosers
      obtain ⟨more, hmore, hlast⟩ := ih hrest ((closers_write _ .blank).trans hclosers)
      refine ⟨first ++ empty ++ more, (hfirst.append hempty).append hmore, ?_⟩
      refine hlast.trans ?_
      unfold write
      rw [hblank, htext]
      simp only [String.append_assoc]

/-- The text of items that end with a block. -/
theorem renderAll_append_braced (items : List Item) (header : String) (body : List Item) :
    renderAll (items ++ [braced header body]) =
        (writeAll {} (items ++ [braced header body])).text ∧
      trimRight (renderAll (items ++ [braced header body])) ++ "\n" =
        renderAll (items ++ [braced header body]) := by
  obtain ⟨lines, hwritten⟩ := written_writeAll_braced items header body
  have hrender : renderAll (items ++ [braced header body]) =
      (writeAll {} (items ++ [braced header body])).text :=
    Writer.render_eq_text (by rw [hwritten]; simp)
  have hbrace : (linesText lines.reverse ++ "\x7d").toList.getLast? = some '\x7d' := by
    have hclose : "\x7d".toList = ['\x7d'] := by decide
    rw [String.toList_append, hclose, List.getLast?_concat]
  have hends : (writeAll {} (items ++ [braced header body])).text =
      linesText lines.reverse ++ "\x7d" ++ "\n" := by
    rw [Writer.text, hwritten, List.reverse_cons, linesText_append, linesText_cons, linesText_nil,
      String.append_empty, String.append_assoc]
  refine ⟨hrender, ?_⟩
  rw [hrender, hends, trimRight_append_blanks hbrace (by decide) (by decide)]

/-- The characters of a block, line by line. -/
theorem toList_renderAll_braced (header : String) (body : List Item) :
    (trimRight (renderAll [braced header body]) ++ "\n").toList =
      (writeAll {} [braced header body]).written.reverse.flatMap fun line =>
        line.toList ++ ['\n'] := by
  obtain ⟨hrender, htrim⟩ := renderAll_append_braced [] header body
  rw [List.nil_append] at hrender htrim
  rw [htrim, hrender, Writer.text, toList_linesText]

/-- The text of tidy blocks has their headers. -/
theorem outlines_renderAll_blocks {parts : List (String × List Item)} (hne : parts ≠ [])
    (h : ∀ part ∈ parts, IsHeader part.1 ∧ ∀ item ∈ part.2, item.Tidy) :
    Outlines (trimRight (renderAll (blocks parts)) ++ "\n") (parts.map Prod.fst) := by
  obtain ⟨more, houtlines, htext⟩ := outlines_writeAll_blocks h (w := {}) rfl
  obtain ⟨items, header, body, hblocks⟩ := exists_blocks_eq hne
  obtain ⟨hrender, htrim⟩ := renderAll_append_braced items header body
  rw [← hblocks] at hrender htrim
  rw [htrim, hrender, htext]
  exact houtlines

end Item

end Hcl
end HclExport
