import HclExport.Text.Utf8

/-!
# Which octets are text

The decoder reads one octet at a time and keeps a character of which some octets are still to come.
It reads every text back from the octets that encode it, and whatever it reads is encoded by the
octets that it was given: it decodes no other sequence of octets.

## Main definitions

* `Utf8.encode` — the octets of some characters.

## Main results

* `Utf8.encodeChar_one` to `Utf8.encodeChar_four`, `Utf8.begin?_two` to `Utf8.begin?_four` — the
  octets of one character, and what the first of them says.
* `Utf8.decodeFrom_encodeChar`, `Utf8.exists_char_of_decodeFrom` — how one character is read.
* `Utf8.decode_eq_ok_iff` — **what is decoded are the octets that encode a text.**
-/

namespace HclExport
namespace Utf8

/-- The octets of some characters, one character after another. -/
def encode (cs : List Char) : List UInt8 :=
  cs.flatMap String.utf8EncodeChar

@[simp] theorem encode_nil : encode [] = [] := rfl

@[simp] theorem encode_cons (c : Char) (cs : List Char) :
    encode (c :: cs) = String.utf8EncodeChar c ++ encode cs := rfl

/-- The octets of a text are those of its characters. -/
theorem toByteArray_eq_toUTF8_iff {octets : List UInt8} {s : String} :
    octets.toByteArray = s.toUTF8 ↔ octets = encode s.toList := by
  have hs : s.toUTF8 = (encode s.toList).toByteArray := by
    rw [String.toUTF8_eq_toByteArray, ← String.utf8Encode_toList]
    rfl
  rw [hs, List.toByteArray_inj]

/-! ### One character -/

section Char

variable {c : Char}

/-- A character of one octet. -/
theorem encodeChar_one (h : c.toNat < 0x80) :
    String.utf8EncodeChar c = [UInt8.ofNat c.toNat] := by
  have h1 : c.toNat ≤ 0x7F := by omega
  unfold String.utf8EncodeChar
  rw [Char.toNat_val]
  simp only [if_pos h1]

/-- A character of two octets. -/
theorem encodeChar_two (hlow : 0x80 ≤ c.toNat) (hhigh : c.toNat < 0x800) :
    String.utf8EncodeChar c =
      [UInt8.ofNat (c.toNat / 64 + 0xC0), UInt8.ofNat (c.toNat % 64 + 0x80)] := by
  have h1 : ¬ c.toNat ≤ 0x7F := by omega
  have h2 : c.toNat ≤ 0x7FF := by omega
  have hlead : c.toNat / 64 % 32 = c.toNat / 64 := by omega
  unfold String.utf8EncodeChar
  rw [Char.toNat_val]
  simp only [if_neg h1, if_pos h2, hlead]

/-- A character of three octets. -/
theorem encodeChar_three (hlow : 0x800 ≤ c.toNat) (hhigh : c.toNat < 0x10000) :
    String.utf8EncodeChar c =
      [UInt8.ofNat (c.toNat / 4096 + 0xE0), UInt8.ofNat (c.toNat / 64 % 64 + 0x80),
       UInt8.ofNat (c.toNat % 64 + 0x80)] := by
  have h1 : ¬ c.toNat ≤ 0x7F := by omega
  have h2 : ¬ c.toNat ≤ 0x7FF := by omega
  have h3 : c.toNat ≤ 0xFFFF := by omega
  have hlead : c.toNat / 4096 % 16 = c.toNat / 4096 := by omega
  unfold String.utf8EncodeChar
  rw [Char.toNat_val]
  simp only [if_neg h1, if_neg h2, if_pos h3, hlead]

/-- A character of four octets. -/
theorem encodeChar_four (hlow : 0x10000 ≤ c.toNat) :
    String.utf8EncodeChar c =
      [UInt8.ofNat (c.toNat / 262144 + 0xF0), UInt8.ofNat (c.toNat / 4096 % 64 + 0x80),
       UInt8.ofNat (c.toNat / 64 % 64 + 0x80), UInt8.ofNat (c.toNat % 64 + 0x80)] := by
  have hvalid : c.toNat < 0xD800 ∨ 0xDFFF < c.toNat ∧ c.toNat < 0x110000 := c.valid
  have h1 : ¬ c.toNat ≤ 0x7F := by omega
  have h2 : ¬ c.toNat ≤ 0x7FF := by omega
  have h3 : ¬ c.toNat ≤ 0xFFFF := by omega
  have hlead : c.toNat / 262144 % 8 = c.toNat / 262144 := by omega
  unfold String.utf8EncodeChar
  rw [Char.toNat_val]
  simp only [if_neg h1, if_neg h2, if_neg h3, hlead]

/-- Every code but those of half a pair belongs to a character. -/
theorem exists_char_of_code {n : Nat} (h : n < 0xD800 ∨ 0xDFFF < n ∧ n < 0x110000) :
    ∃ c : Char, c.toNat = n := by
  refine ⟨Char.ofNat n, ?_⟩
  unfold Char.ofNat
  rw [dif_pos h]
  rfl

end Char

section First

variable {octet : UInt8} {position : Nat}

/-- The first octet of two. -/
theorem begin?_two (hlow : 0xC2 ≤ octet.toNat) (hhigh : octet.toNat < 0xE0) :
    begin? octet position = some ⟨octet, position, 1, 0x80, 0xBF, octet.toNat - 0xC0⟩ := by
  unfold begin?
  simp only [if_neg (show ¬ octet.toNat < 0xC2 by omega), if_pos hhigh]

/-- The first octet of three; the second has bounds that depend on it. -/
theorem begin?_three (hlow : 0xE0 ≤ octet.toNat) (hhigh : octet.toNat < 0xF0) :
    begin? octet position = some ⟨octet, position, 2,
      if octet.toNat = 0xE0 then 0xA0 else 0x80, if octet.toNat = 0xED then 0x9F else 0xBF,
      octet.toNat - 0xE0⟩ := by
  unfold begin?
  simp only [if_neg (show ¬ octet.toNat < 0xC2 by omega),
    if_neg (show ¬ octet.toNat < 0xE0 by omega), if_pos hhigh]

/-- The first octet of four; the second has bounds that depend on it. -/
theorem begin?_four (hlow : 0xF0 ≤ octet.toNat) (hhigh : octet.toNat < 0xF5) :
    begin? octet position = some ⟨octet, position, 3,
      if octet.toNat = 0xF0 then 0x90 else 0x80, if octet.toNat = 0xF4 then 0x8F else 0xBF,
      octet.toNat - 0xF0⟩ := by
  unfold begin?
  simp only [if_neg (show ¬ octet.toNat < 0xC2 by omega),
    if_neg (show ¬ octet.toNat < 0xE0 by omega), if_neg (show ¬ octet.toNat < 0xF0 by omega),
    if_pos hhigh]

/-- No other octet begins a character of several. -/
theorem bounds_of_begin? {p : Partial} (h : begin? octet position = some p) :
    0xC2 ≤ octet.toNat ∧ octet.toNat < 0xF5 := by
  unfold begin? at h
  by_cases h1 : octet.toNat < 0xC2
  · simp [h1] at h
  by_cases h2 : octet.toNat < 0xF5
  · omega
  · simp [h1, show ¬ octet.toNat < 0xE0 by omega, show ¬ octet.toNat < 0xF0 by omega, h2] at h

end First

/-! ### Steps of the decoder -/

section Steps

variable {done cs : List Char} {position : Nat} {p : Partial} {octet : UInt8} {rest : List UInt8}

/-- What follows a further octet of a character that is in its bounds. -/
def advance (done : List Char) (position : Nat) (p : Partial) (octet : UInt8)
    (rest : List UInt8) : Except Utf8Error (List Char) :=
  let code := p.code * 64 + (octet.toNat - 0x80)
  if p.owed = 1 then decodeFrom (Char.ofNat code :: done) (position + 1) none rest
  else decodeFrom done (position + 1)
    (some ⟨p.first, p.start, p.owed - 1, 0x80, 0xBF, code⟩) rest

/-- Nothing is left to read, and no octet is owed. -/
theorem decodeFrom_nil : decodeFrom done position none [] = .ok done.reverse := rfl

/-- The first octet of a character. -/
theorem decodeFrom_cons :
    decodeFrom done position none (octet :: rest) =
      if octet.toNat < 0x80 then
        decodeFrom (Char.ofNat octet.toNat :: done) (position + 1) none rest
      else match begin? octet position with
        | none => .error ⟨.invalidStart, octet, position, position + 1⟩
        | some p => decodeFrom done (position + 1) (some p) rest := rfl

/-- A further octet of a character. -/
theorem decodeFrom_some_cons :
    decodeFrom done position (some p) (octet :: rest) =
      if p.low ≤ octet.toNat && octet.toNat ≤ p.high then advance done position p octet rest
      else .error ⟨.invalidContinuation, p.first, p.start, position⟩ := rfl

theorem decodeFrom_some (hlow : p.low ≤ octet.toNat) (hhigh : octet.toNat ≤ p.high) :
    decodeFrom done position (some p) (octet :: rest) = advance done position p octet rest := by
  rw [decodeFrom_some_cons]
  simp only [hlow, hhigh, decide_true, Bool.and_self, if_true]

/-- A character of which octets are owed is read only if a further octet is in its bounds. -/
theorem exists_of_decodeFrom_some {octets : List UInt8}
    (h : decodeFrom done position (some p) octets = .ok cs) :
    ∃ octet rest, octets = octet :: rest ∧ p.low ≤ octet.toNat ∧ octet.toNat ≤ p.high ∧
      advance done position p octet rest = .ok cs := by
  cases octets with
  | nil => cases h
  | cons octet rest =>
    by_cases hbounds : p.low ≤ octet.toNat ∧ octet.toNat ≤ p.high
    · rw [decodeFrom_some hbounds.1 hbounds.2] at h
      exact ⟨octet, rest, rfl, hbounds.1, hbounds.2, h⟩
    · rw [decodeFrom_some_cons] at h
      simp only [Bool.and_eq_true, decide_eq_true_eq, if_neg hbounds] at h
      cases h

theorem decodeFrom_first (hhigh : 0x80 ≤ octet.toNat) (hbegin : begin? octet position = some p) :
    decodeFrom done position none (octet :: rest) =
      decodeFrom done (position + 1) (some p) rest := by
  rw [decodeFrom_cons, if_neg (by omega), hbegin]

end Steps

/-! ### Characters and texts -/

/-- The octets of a character are read as that character. -/
theorem decodeFrom_encodeChar (done : List Char) (position : Nat) (c : Char) (rest : List UInt8) :
    decodeFrom done position none (String.utf8EncodeChar c ++ rest) =
      decodeFrom (c :: done) (position + (String.utf8EncodeChar c).length) none rest := by
  have hvalid : c.toNat < 0xD800 ∨ 0xDFFF < c.toNat ∧ c.toNat < 0x110000 := c.valid
  have hoctet : ∀ n, n < 256 → (UInt8.ofNat n).toNat = n := fun n hn => UInt8.toNat_ofNat_of_lt' hn
  by_cases hone : c.toNat < 0x80
  · have h0 := hoctet c.toNat (by omega)
    rw [encodeChar_one hone, List.singleton_append, decodeFrom_cons, if_pos (by omega), h0,
      Char.ofNat_toNat]
    rfl
  by_cases htwo : c.toNat < 0x800
  · have h0 := hoctet (c.toNat / 64 + 0xC0) (by omega)
    have h1 := hoctet (c.toNat % 64 + 0x80) (by omega)
    have hcode : (c.toNat / 64 + 0xC0 - 0xC0) * 64 + (c.toNat % 64 + 0x80 - 0x80) = c.toNat := by
      omega
    rw [encodeChar_two (by omega) htwo]
    simp only [List.cons_append, List.nil_append]
    rw [decodeFrom_first (by omega) (begin?_two (by omega) (by omega)),
      decodeFrom_some (by simp only; omega) (by simp only; omega)]
    simp only [advance, if_true, h0, h1, hcode, Char.ofNat_toNat]
    rfl
  by_cases hthree : c.toNat < 0x10000
  · have h0 := hoctet (c.toNat / 4096 + 0xE0) (by omega)
    have h1 := hoctet (c.toNat / 64 % 64 + 0x80) (by omega)
    have h2 := hoctet (c.toNat % 64 + 0x80) (by omega)
    have hcode : ((c.toNat / 4096 + 0xE0 - 0xE0) * 64 + (c.toNat / 64 % 64 + 0x80 - 0x80)) * 64 +
        (c.toNat % 64 + 0x80 - 0x80) = c.toNat := by
      omega
    rw [encodeChar_three (by omega) hthree]
    simp only [List.cons_append, List.nil_append]
    rw [decodeFrom_first (by omega) (begin?_three (by omega) (by omega)),
      decodeFrom_some (by simp only [h0, h1]; split <;> omega)
        (by simp only [h0, h1]; split <;> omega),
      advance, if_neg (by simp), decodeFrom_some (by simp only; omega) (by simp only; omega)]
    simp only [advance, if_true, h0, h1, h2, hcode, Char.ofNat_toNat]
    rfl
  · have h0 := hoctet (c.toNat / 262144 + 0xF0) (by omega)
    have h1 := hoctet (c.toNat / 4096 % 64 + 0x80) (by omega)
    have h2 := hoctet (c.toNat / 64 % 64 + 0x80) (by omega)
    have h3 := hoctet (c.toNat % 64 + 0x80) (by omega)
    have hcode : (((c.toNat / 262144 + 0xF0 - 0xF0) * 64 +
        (c.toNat / 4096 % 64 + 0x80 - 0x80)) * 64 + (c.toNat / 64 % 64 + 0x80 - 0x80)) * 64 +
        (c.toNat % 64 + 0x80 - 0x80) = c.toNat := by
      omega
    rw [encodeChar_four (by omega)]
    simp only [List.cons_append, List.nil_append]
    rw [decodeFrom_first (by omega) (begin?_four (by omega) (by omega)),
      decodeFrom_some (by simp only [h0, h1]; split <;> omega)
        (by simp only [h0, h1]; split <;> omega),
      advance, if_neg (by simp), decodeFrom_some (by simp only; omega) (by simp only; omega),
      advance, if_neg (by simp), decodeFrom_some (by simp only; omega) (by simp only; omega)]
    simp only [advance, if_true, h0, h1, h2, h3, hcode, Char.ofNat_toNat]
    rfl

/-- Whatever is read starts with a character. -/
theorem exists_char_of_decodeFrom {done cs : List Char} {position : Nat} {octet : UInt8}
    {rest : List UInt8} (h : decodeFrom done position none (octet :: rest) = .ok cs) :
    ∃ c more, octet :: rest = String.utf8EncodeChar c ++ more := by
  have hoctet : ∀ (a : UInt8) (n : Nat), n = a.toNat → UInt8.ofNat n = a := by
    intro a n hn
    rw [hn, UInt8.ofNat_toNat]
  by_cases hone : octet.toNat < 0x80
  · obtain ⟨c, hc⟩ := exists_char_of_code (n := octet.toNat) (by omega)
    refine ⟨c, rest, ?_⟩
    rw [encodeChar_one (by omega), hoctet octet _ hc]
    rfl
  cases hbegin : begin? octet position with
  | none =>
    rw [decodeFrom_cons, if_neg hone, hbegin] at h
    cases h
  | some p =>
    obtain ⟨hlow, hhigh⟩ := bounds_of_begin? hbegin
    rw [decodeFrom_first (by omega) hbegin] at h
    -- the octets that are owed are there and in their bounds, and they give the code
    by_cases htwo : octet.toNat < 0xE0
    · rw [begin?_two hlow htwo] at hbegin
      obtain rfl := Option.some.inj hbegin
      obtain ⟨b, more, rfl, hb, hb', -⟩ := exists_of_decodeFrom_some h
      simp only at hb hb'
      obtain ⟨c, hc⟩ := exists_char_of_code
        (n := (octet.toNat - 0xC0) * 64 + (b.toNat - 0x80)) (by omega)
      refine ⟨c, more, ?_⟩
      rw [encodeChar_two (by omega) (by omega), hoctet octet _ (by omega), hoctet b _ (by omega)]
      rfl
    by_cases hthree : octet.toNat < 0xF0
    · rw [begin?_three (by omega) hthree] at hbegin
      obtain rfl := Option.some.inj hbegin
      obtain ⟨a, _, rfl, ha, ha', h⟩ := exists_of_decodeFrom_some h
      rw [advance, if_neg (by simp)] at h
      obtain ⟨b, more, rfl, hb, hb', -⟩ := exists_of_decodeFrom_some h
      simp only at ha ha' hb hb'
      have hsecond : 0x80 ≤ a.toNat ∧ a.toNat < 0xC0 ∧ (octet.toNat = 0xE0 → 0xA0 ≤ a.toNat) ∧
          (octet.toNat = 0xED → a.toNat < 0xA0) := by
        split at ha <;> split at ha' <;> omega
      obtain ⟨c, hc⟩ := exists_char_of_code
        (n := ((octet.toNat - 0xE0) * 64 + (a.toNat - 0x80)) * 64 + (b.toNat - 0x80)) (by omega)
      refine ⟨c, more, ?_⟩
      rw [encodeChar_three (by omega) (by omega), hoctet octet _ (by omega),
        hoctet a _ (by omega), hoctet b _ (by omega)]
      rfl
    · rw [begin?_four (by omega) hhigh] at hbegin
      obtain rfl := Option.some.inj hbegin
      obtain ⟨a, _, rfl, ha, ha', h⟩ := exists_of_decodeFrom_some h
      rw [advance, if_neg (by simp)] at h
      obtain ⟨b, _, rfl, hb, hb', h⟩ := exists_of_decodeFrom_some h
      rw [advance, if_neg (by simp)] at h
      obtain ⟨d, more, rfl, hd, hd', -⟩ := exists_of_decodeFrom_some h
      simp only at ha ha' hb hb' hd hd'
      have hsecond : 0x80 ≤ a.toNat ∧ a.toNat < 0xC0 ∧ (octet.toNat = 0xF0 → 0x90 ≤ a.toNat) ∧
          (octet.toNat = 0xF4 → a.toNat < 0x90) := by
        split at ha <;> split at ha' <;> omega
      obtain ⟨c, hc⟩ := exists_char_of_code
        (n := (((octet.toNat - 0xF0) * 64 + (a.toNat - 0x80)) * 64 + (b.toNat - 0x80)) * 64 +
          (d.toNat - 0x80)) (by omega)
      refine ⟨c, more, ?_⟩
      rw [encodeChar_four (by omega), hoctet octet _ (by omega), hoctet a _ (by omega),
        hoctet b _ (by omega), hoctet d _ (by omega)]
      rfl

theorem decodeFrom_encode (done : List Char) (position : Nat) (cs : List Char) :
    decodeFrom done position none (encode cs) = .ok (done.reverse ++ cs) := by
  induction cs generalizing done position with
  | nil => rw [encode_nil, decodeFrom_nil, List.append_nil]
  | cons c cs ih =>
    rw [encode_cons, decodeFrom_encodeChar, ih, List.reverse_cons, List.append_assoc]
    rfl

theorem eq_encode_of_decodeFrom {done cs : List Char} {position : Nat} {octets : List UInt8}
    (h : decodeFrom done position none octets = .ok cs) :
    ∃ found, octets = encode found ∧ cs = done.reverse ++ found := by
  induction hlength : octets.length using Nat.strongRecOn
    generalizing octets done position with
  | _ n ih =>
    cases octets with
    | nil =>
      rw [decodeFrom_nil] at h
      exact ⟨[], rfl, by rw [List.append_nil, Except.ok.inj h]⟩
    | cons octet rest =>
      obtain ⟨c, more, hoctets⟩ := exists_char_of_decodeFrom h
      rw [hoctets, decodeFrom_encodeChar] at h
      have hshorter : more.length < n := by
        have hlengths := congrArg List.length hoctets
        rw [List.length_append, String.length_utf8EncodeChar] at hlengths
        have hpos := c.utf8Size_pos
        omega
      obtain ⟨found, rfl, hfound⟩ := ih more.length hshorter h rfl
      refine ⟨c :: found, hoctets, ?_⟩
      rw [hfound, List.reverse_cons, List.append_assoc]
      rfl

/-- **Which octets are decoded:** those of a text, and they give that text. -/
theorem decode_eq_ok_iff {octets : List UInt8} {s : String} :
    decode octets = .ok s ↔ octets.toByteArray = s.toUTF8 := by
  rw [toByteArray_eq_toUTF8_iff]
  unfold decode
  constructor
  · intro h
    cases hread : decodeFrom [] 0 none octets with
    | error e =>
      rw [hread] at h
      cases h
    | ok cs =>
      rw [hread] at h
      obtain ⟨found, rfl, hfound⟩ := eq_encode_of_decodeFrom hread
      obtain rfl : String.ofList cs = s := Except.ok.inj h
      rw [String.toList_ofList, hfound]
      rfl
  · rintro rfl
    rw [decodeFrom_encode]
    exact congrArg Except.ok (String.ofList_toList)

end Utf8
end HclExport
