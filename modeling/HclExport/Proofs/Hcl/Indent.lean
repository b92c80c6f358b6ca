import HclExport.Proofs.Hcl.Comments

/-!
# Indentation is uniform

The lines of an argument of `jsonencode` carry their own indentation. Where it starts further to the
right, all of its lines but the first start as much further to the right, and nothing else changes.

## Main definitions

* `hang` — a text with spaces at the start of every line but the first.

## Main results

* `hang_intercalate` — a text put together of lines.
* `Value.entry_add` — **the entry of a value some columns further to the right.**
* `Value.jsonText_add` — arguments of `jsonencode`, and attributes at any depth of blocks.
-/

namespace HclExport
namespace Hcl

/-! ### Hanging lines -/

/-- A text with spaces at the start of every line but the first, which is behind every line feed. -/
def hang (m : Nat) (s : String) : String :=
  String.ofList (s.toList.flatMap fun c => if c = '\n' then c :: List.replicate m ' ' else [c])

theorem hang_append (m : Nat) (s t : String) : hang m (s ++ t) = hang m s ++ hang m t := by
  rw [hang, String.toList_append, List.flatMap_append, String.ofList_append]
  rfl

theorem hang_of_feed_not_mem {s : String} (h : '\n' ∉ s.toList) (m : Nat) : hang m s = s := by
  have hsame : s.toList.flatMap (fun c => if c = '\n' then c :: List.replicate m ' ' else [c]) =
      s.toList.flatMap fun c => [c] := by
    refine List.flatMap_congr fun c hc => ?_
    rw [if_neg]
    rintro rfl
    exact h hc
  rw [hang, hsame, List.flatMap_singleton', String.ofList_toList]

theorem hang_feed (m : Nat) : hang m "\n" = "\n" ++ spaces m := by
  rw [← String.toList_inj, hang, String.toList_ofList, String.toList_append, spaces,
    String.toList_ofList]
  simp

theorem spaces_add (n m : Nat) : spaces (n + m) = spaces m ++ spaces n := by
  rw [spaces, spaces, spaces, ← String.ofList_append, List.replicate_append_replicate,
    Nat.add_comm]

/-- A text put together of lines: the spaces are put before each of them but the first. -/
theorem hang_intercalate (m : Nat) (first : String) (rest : List String) :
    hang m ("\n".intercalate (first :: rest)) =
      "\n".intercalate (hang m first :: rest.map fun line => spaces m ++ hang m line) := by
  induction rest generalizing first with
  | nil => simp
  | cons second rest ih =>
    rw [String.intercalate_cons_cons, hang_append, hang_append, hang_feed, ih, List.map_cons,
      String.intercalate_cons_cons, String.intercalate_cons_append]
    simp only [String.append_assoc]

/-! ### Entries -/

namespace Value

/-- An entry of which both parts hang. -/
def Entry.hang (m : Nat) (e : Entry) : Entry :=
  ⟨Hcl.hang m e.text, Hcl.hang m e.remark⟩

theorem feed_not_mem_remark {e : Expression} (h : e.IsOneLine) : '\n' ∉ e.remark.toList := by
  rw [Expression.remark]
  split
  next => decide
  next => exact feed_not_mem_append (by decide) h.2

theorem memberEntry_hang (key : String) (e : Entry) (m : Nat) :
    memberEntry (key, e.hang m) = (memberEntry (key, e)).hang m := by
  have hkey := Hcl.hang_of_feed_not_mem
    (feed_not_mem_append (feed_not_mem_quote key) (t := " = ") (by decide)) m
  simp only [memberEntry, Entry.hang, hang_append] at hkey ⊢
  rw [hkey]

/-- Entries on lines of their own. -/
theorem entryLines_hang (pad : String) (hpad : '\n' ∉ pad.toList) (m : Nat) (entries : List Entry) :
    entryLines (spaces m ++ pad) (entries.map (Entry.hang m)) =
      (entryLines pad entries).map fun line => spaces m ++ hang m line := by
  have hcomma : hang m "," = "," := Hcl.hang_of_feed_not_mem (by decide) m
  induction entries with
  | nil => rfl
  | cons e rest ih =>
    cases rest with
    | nil =>
      simp only [List.map_cons, List.map_nil, entryLines, hang_append, Entry.hang,
        Hcl.hang_of_feed_not_mem hpad, String.append_assoc]
    | cons second rest =>
      have hcons (pad : String) (e next : Entry) (more : List Entry) :
          entryLines pad (e :: next :: more) =
            (pad ++ e.text ++ "," ++ e.remark) :: entryLines pad (next :: more) := rfl
      rw [List.map_cons] at ih
      rw [List.map_cons, List.map_cons, hcons, hcons, ih, List.map_cons]
      simp only [hang_append, Entry.hang, Hcl.hang_of_feed_not_mem hpad, hcomma,
        String.append_assoc]

/-- Entries between brackets that stand on lines of their own. -/
theorem enclosed_hang {opening closing : String} (hopening : '\n' ∉ opening.toList)
    (hclosing : '\n' ∉ closing.toList) (n m : Nat) (entries : List Entry) :
    enclosed opening closing (n + m) (entries.map (Entry.hang m)) =
      hang m (enclosed opening closing n entries) := by
  have hpad : '\n' ∉ (spaces n ++ "  ").toList :=
    feed_not_mem_append (feed_not_mem_spaces n) (by decide)
  have hshifted : spaces (n + m) ++ "  " = spaces m ++ (spaces n ++ "  ") := by
    rw [spaces_add, String.append_assoc]
  have hlast : spaces (n + m) ++ closing = spaces m ++ hang m (spaces n ++ closing) := by
    rw [Hcl.hang_of_feed_not_mem (feed_not_mem_append (feed_not_mem_spaces n) hclosing), spaces_add,
      String.append_assoc]
  cases entries with
  | nil => exact (Hcl.hang_of_feed_not_mem (feed_not_mem_append hopening hclosing) m).symm
  | cons e rest =>
    have hcolumn : ((n : Int) + m).toNat = n + m := by omega
    rw [enclosed, enclosed, hcolumn, Int.toNat_natCast, if_neg (by simp), if_neg (by simp)]
    show "\n".intercalate (opening :: (_ ++ [_])) =
      hang m ("\n".intercalate (opening :: (_ ++ [_])))
    rw [hshifted, hlast, entryLines_hang _ hpad, hang_intercalate,
      Hcl.hang_of_feed_not_mem hopening, List.map_append]
    rfl

/-- An entry on one line is the same in every column. -/
theorem entry_add_of_oneLine {value : Value} {text remark : String}
    (hentry : ∀ indent, entry indent value = ⟨text, remark⟩) (htext : '\n' ∉ text.toList)
    (hremark : '\n' ∉ remark.toList) (n m : Nat) :
    entry (n + m) value = (entry n value).hang m := by
  rw [hentry, hentry, Entry.hang, Hcl.hang_of_feed_not_mem htext, Hcl.hang_of_feed_not_mem hremark]

/-- **The entry of a value some columns further to the right.** -/
theorem entry_add (value : Value) (h : ∀ e ∈ value.expressions, e.IsOneLine) (n m : Nat) :
    entry (n + m) value = (entry n value).hang m := by
  have hempty : '\n' ∉ "".toList := by decide
  induction value using Value.induction generalizing n with
  | null => exact entry_add_of_oneLine (fun _ => rfl) (by decide) hempty n m
  | bool b =>
    exact entry_add_of_oneLine (fun _ => rfl) (feed_not_mem_of_isWord (isWord_boolText b)) hempty
      n m
  | num number =>
    exact entry_add_of_oneLine (fun _ => rfl) (feed_not_mem_of_isWord (isWord_numberText number))
      hempty n m
  | str s => exact entry_add_of_oneLine (fun _ => rfl) (feed_not_mem_quote s) hempty n m
  | expr e =>
    have he := h e List.mem_cons_self
    exact entry_add_of_oneLine (fun _ => rfl) he.1 (feed_not_mem_remark he) n m
  | described text comment =>
    have he := h (.ofParts text comment) List.mem_cons_self
    exact entry_add_of_oneLine (fun _ => rfl) he.1 (feed_not_mem_remark he) n m
  | tuple items ih =>
    rw [expressions_tuple] at h
    have hitems : items.map (entry (n + m + 2)) =
        (items.map (entry (n + 2))).map (Entry.hang m) := by
      rw [List.map_map]
      refine List.map_congr_left fun item hitem => ?_
      have hcolumn : (n + m + 2 : Int) = (n + 2 : Nat) + m := by omega
      rw [hcolumn]
      exact ih item hitem (fun e he => h e (List.mem_flatMap.2 ⟨item, hitem, he⟩)) (n + 2)
    rw [entry, entry, itemEntries_eq_map, itemEntries_eq_map, hitems,
      enclosed_hang (by decide) (by decide)]
    rfl
  | object members ih =>
    rw [expressions_object] at h
    have hmembers : ((sortOn Prod.fst members).map fun member =>
          memberEntry (member.1, entry (n + m + 2) member.2)) =
        ((sortOn Prod.fst members).map fun member =>
          memberEntry (member.1, entry (n + 2) member.2)).map (Entry.hang m) := by
      rw [List.map_map]
      refine List.map_congr_left fun member hmember => ?_
      rw [mem_sortOn] at hmember
      have hcolumn : (n + m + 2 : Int) = (n + 2 : Nat) + m := by omega
      have hvalue := ih member hmember
        (fun e he => h e (List.mem_flatMap.2 ⟨member, hmember, he⟩)) (n + 2)
      rw [hcolumn, hvalue, memberEntry_hang]
      rfl
    rw [entry_object, entry_object, hmembers, enclosed_hang (by decide) (by decide)]
    rfl

/-! ### Arguments of jsonencode -/

/-- **Indentation is uniform.** If no expression holds a line feed, an argument of `jsonencode` that
starts further to the right has as many more spaces at the start of every line but the first. So a
writer puts the argument that stands outside of all blocks into blocks of any depth, with the spaces
of its column before each line; and if the key is on one line, that is true of the whole
attribute. -/
theorem jsonText_add (value : Value) (h : ∀ e ∈ value.expressions, e.IsOneLine) :
    (∀ n m : Nat, jsonText (n + m) value = hang m (jsonText n value)) ∧
    ∀ (key : String) (w : Writer),
      w.assignJson key value =
        { w with written := (spaces w.column ++
          (key ++ " = jsonencode(" ++ hang w.column (jsonText 0 value) ++ ")")) :: w.written } ∧
      ('\n' ∉ key.toList → ∃ line, (Writer.assignJson key value {}).written = [line] ∧
        (w.assignJson key value).written =
          (spaces w.column ++ hang w.column line) :: w.written) := by
  have hadd : ∀ n m : Nat, jsonText (n + m) value = hang m (jsonText n value) := by
    intro n m
    rw [jsonText, jsonText, entry_add value h, hang_append]
    rfl
  have hassign : ∀ (key : String) (w : Writer), w.assignJson key value =
      { w with written := (spaces w.column ++
        (key ++ " = jsonencode(" ++ hang w.column (jsonText 0 value) ++ ")")) :: w.written } := by
    intro key w
    have hcolumn := hadd 0 w.column
    rw [Nat.cast_zero, zero_add] at hcolumn
    rw [Writer.assignJson, Writer.line, if_neg (by simp), hcolumn]
  refine ⟨hadd, fun key w => ⟨hassign key w, fun hkey => ?_⟩⟩
  refine ⟨key ++ " = jsonencode(" ++ jsonText 0 value ++ ")", ?_, ?_⟩
  · rw [Writer.assignJson, Writer.line, if_neg (by simp)]
    simp [Writer.column, spaces]
  · have hfront := Hcl.hang_of_feed_not_mem
      (feed_not_mem_append hkey (t := " = jsonencode(") (by decide)) w.column
    have hlast : hang w.column ")" = ")" := Hcl.hang_of_feed_not_mem (by decide) w.column
    rw [hassign, hang_append, hang_append, hfront, hlast]

/-- A tuple in an object, with a remark and a text on two lines in it, inside of two blocks. -/
theorem jsonText_add_remarked :
    let value : Value := .object [("a", .tuple [.expr ⟨"x", "# first"⟩, .str "two\nlines"])]
    (∀ e ∈ value.expressions, e.IsOneLine) ∧
    jsonText (2 + 3 : Nat) value = hang 3 (jsonText 2 value) ∧
    ∃ line, (Writer.assignJson "k" value {}).written = [line] ∧
      (Writer.assignJson "k" value ⟨[], ["\x7d", "\x7d"]⟩).written = [spaces 4 ++ hang 4 line] := by
  intro value
  have h : ∀ e ∈ value.expressions, e.IsOneLine := by decide
  exact ⟨h, (jsonText_add value h).1 2 3,
    ((jsonText_add value h).2 "k" ⟨[], ["\x7d", "\x7d"]⟩).2 (by decide)⟩

end Value

end Hcl
end HclExport
