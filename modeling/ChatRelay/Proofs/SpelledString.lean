import ChatRelay.Proofs.WrittenString

namespace ChatRelay.Json

/-- The characters that an escape of one letter denotes, each with its letter. -/
def letterEscapes : List (Char × UInt8) :=
  [('"', 0x22), ('\\', 0x5C), ('/', 0x2F), ('\x08', 0x62), ('\x0C', 0x66), ('\n', 0x6E),
    ('\r', 0x72), ('\t', 0x74)]

inductive IsHexDigit : Nat → UInt8 → Prop where
  | decimal {n : Nat} (h : n < 10) : IsHexDigit n (UInt8.ofNat (0x30 + n))
  | lower {n : Nat} (h : 10 ≤ n) (h' : n < 16) : IsHexDigit n (UInt8.ofNat (0x57 + n))
  | upper {n : Nat} (h : 10 ≤ n) (h' : n < 16) : IsHexDigit n (UInt8.ofNat (0x37 + n))

inductive IsFourHex : Nat → List UInt8 → Prop where
  | mk {i j k l : Nat} {a b c d : UInt8} (ha : IsHexDigit i a) (hb : IsHexDigit j b)
      (hc : IsHexDigit k c) (hd : IsHexDigit l d) :
      IsFourHex (((i * 16 + j) * 16 + k) * 16 + l) [a, b, c, d]

def numbered (w : List UInt8) : List UInt8 := backslash :: 0x75 :: w

/-- The ways to spell a character inside a string. -/
inductive SpellsChar (c : Char) : List UInt8 → Prop where
  | raw (hc : 0x20 ≤ c.toNat) (hq : c ≠ '"') (hb : c ≠ '\\') :
      SpellsChar c (String.utf8EncodeChar c)
  | letter {b : UInt8} (h : (c, b) ∈ letterEscapes) : SpellsChar c [backslash, b]
  | number {w : List UInt8} (h : IsFourHex c.toNat w) : SpellsChar c (numbered w)
  | pair {high low : Nat} {v w : List UInt8} (hv : IsFourHex high v) (hw : IsFourHex low w)
      (hhigh : 0xD800 ≤ high ∧ high ≤ 0xDBFF) (hlow : 0xDC00 ≤ low ∧ low ≤ 0xDFFF)
      (hc : c.toNat = 0x10000 + (high - 0xD800) * 0x400 + (low - 0xDC00)) :
      SpellsChar c (numbered v ++ numbered w)

inductive SpellsChars : List Char → List UInt8 → Prop where
  | nil : SpellsChars [] []
  | cons {c : Char} {cs : List Char} {v w : List UInt8} (h : SpellsChar c v)
      (hs : SpellsChars cs w) : SpellsChars (c :: cs) (v ++ w)

inductive SpellsString (s : String) : List UInt8 → Prop where
  | mk {w : List UInt8} (h : SpellsChars s.toList w) :
      SpellsString s (quoteMark :: w ++ [quoteMark])

theorem hexDigit?_of_isHexDigit {n : Nat} {b : UInt8} (h : IsHexDigit n b) :
    hexDigit? b = some n := by
  have hdecimal : ∀ n < 10, hexDigit? (UInt8.ofNat (0x30 + n)) = some n := by decide
  have hlower : ∀ n < 16, 10 ≤ n → hexDigit? (UInt8.ofNat (0x57 + n)) = some n := by decide
  have hupper : ∀ n < 16, 10 ≤ n → hexDigit? (UInt8.ofNat (0x37 + n)) = some n := by decide
  cases h with
  | decimal h => exact hdecimal n h
  | lower h h' => exact hlower n h' h
  | upper h h' => exact hupper n h' h

theorem fourHex_of_isFourHex {n : Nat} {w : List UInt8} (h : IsFourHex n w) (r : List UInt8) :
    fourHex (w ++ r) = .ok (n, r) := by
  obtain ⟨ha, hb, hc, hd⟩ := h
  exact fourHex_cons (hexDigit?_of_isHexDigit ha) (hexDigit?_of_isHexDigit hb)
    (hexDigit?_of_isHexDigit hc) (hexDigit?_of_isHexDigit hd) r

theorem letterEscape?_of_mem {c : Char} {b : UInt8} (h : (c, b) ∈ letterEscapes) :
    (letterEscape? b).map ([·]) = some (String.utf8EncodeChar c) := by
  have hall : ∀ p ∈ letterEscapes,
      (letterEscape? p.2).map ([·]) = some (String.utf8EncodeChar p.1) := by decide
  exact hall _ h

/-- No character is a surrogate. -/
theorem toNat_not_surrogate (c : Char) : ¬ (0xD800 ≤ c.toNat ∧ c.toNat ≤ 0xDFFF) := by
  have h : c.toNat < 0xD800 ∨ 0xDFFF < c.toNat ∧ c.toNat < 0x110000 := c.valid
  omega

/-- The numbers that are no surrogates denote themselves. -/
theorem codePoint_of_char {c : Char} {w : List UInt8} (h : IsFourHex c.toNat w) (r : List UInt8) :
    codePoint (w ++ r) = .ok (c.toNat, r) := by
  have hc := toNat_not_surrogate c
  unfold codePoint
  rw [fourHex_of_isFourHex h]
  change (if _ then _ else _) = _
  rw [if_neg (by omega), if_neg (by omega)]
  rfl

theorem lowSurrogate_of_numbered {n : Nat} {w : List UInt8} (h : IsFourHex n w)
    (hn : 0xDC00 ≤ n ∧ n ≤ 0xDFFF) (r : List UInt8) :
    lowSurrogate (numbered w ++ r) = .ok (n, r) := by
  unfold lowSurrogate numbered
  simp only [List.cons_append, ne_eq, not_true, if_false]
  rw [fourHex_of_isFourHex h]
  exact if_pos hn

/-- Two surrogates denote one character beyond the first plane. -/
theorem codePoint_of_pair {high low : Nat} {v w : List UInt8} (hv : IsFourHex high v)
    (hw : IsFourHex low w) (hhigh : 0xD800 ≤ high ∧ high ≤ 0xDBFF)
    (hlow : 0xDC00 ≤ low ∧ low ≤ 0xDFFF) (r : List UInt8) :
    codePoint (v ++ (numbered w ++ r)) =
      .ok ((high - 0xD800) * 0x400 + (low - 0xDC00) + 0x10000, r) := by
  unfold codePoint
  rw [fourHex_of_isFourHex hv]
  change (if _ then _ else _) = _
  rw [if_neg (by omega), if_pos hhigh, lowSurrogate_of_numbered hw hlow]
  rfl

def IsPlain (b : UInt8) : Prop := ¬ b < 0x20 ∧ b ≠ quoteMark ∧ b ≠ backslash

theorem isPlain_of_le {b : UInt8} (h : 0x80 ≤ b.toNat) : IsPlain b := by
  refine ⟨?_, ?_, ?_⟩
  · intro hb
    have : b.toNat < 0x20 := UInt8.lt_iff_toNat_lt.mp hb
    omega
  · rintro rfl
    exact absurd h (by decide)
  · rintro rfl
    exact absurd h (by decide)

theorem characters_of_plain {w : List UInt8} (h : ∀ b ∈ w, IsPlain b) (read r : List UInt8) :
    characters read (w ++ r) = characters (w.reverse ++ read) r := by
  induction w generalizing read with
  | nil => rfl
  | cons b w ih =>
    obtain ⟨hc, hq, hb⟩ := h b List.mem_cons_self
    rw [List.cons_append, characters_cons hq hb hc, ih fun b hb => h b (List.mem_cons_of_mem _ hb)]
    simp

/-- Beyond ASCII no octet of a character looks like one of ASCII. -/
theorem le_of_mem_utf8EncodeChar {c : Char} (h : 0x80 ≤ c.toNat) :
    ∀ b ∈ String.utf8EncodeChar c, 0x80 ≤ b.toNat := by
  have hc : ¬ c.val.toNat ≤ 127 := Nat.not_le_of_lt h
  intro b hb
  unfold String.utf8EncodeChar at hb
  simp only [hc, if_false] at hb
  split at hb
  · simp only [List.mem_cons, List.not_mem_nil, or_false] at hb
    rcases hb with rfl | rfl <;> rw [UInt8.toNat_ofNat'] <;> omega
  · split at hb
    · simp only [List.mem_cons, List.not_mem_nil, or_false] at hb
      rcases hb with rfl | rfl | rfl <;> rw [UInt8.toNat_ofNat'] <;> omega
    · simp only [List.mem_cons, List.not_mem_nil, or_false] at hb
      rcases hb with rfl | rfl | rfl | rfl <;> rw [UInt8.toNat_ofNat'] <;> omega

theorem utf8EncodeChar_of_lt {c : Char} (h : c.toNat < 0x80) :
    String.utf8EncodeChar c = [UInt8.ofNat c.toNat] := by
  have hc := utf8EncodeChar_ofNat h
  rwa [Char.ofNat_toNat] at hc

theorem isPlain_ofNat {n : Nat} (hn : n < 0x80) (hc : 0x20 ≤ n) (hq : n ≠ 0x22) (hb : n ≠ 0x5C) :
    IsPlain (UInt8.ofNat n) := by
  have hnat : (UInt8.ofNat n).toNat = n := UInt8.toNat_ofNat_of_lt' (by change n < 256; omega)
  refine ⟨?_, ?_, ?_⟩
  · intro h
    have hlt : (UInt8.ofNat n).toNat < 0x20 := UInt8.lt_iff_toNat_lt.mp h
    omega
  · intro h
    rw [h] at hnat
    exact hq hnat.symm
  · intro h
    rw [h] at hnat
    exact hb hnat.symm

/-- The octets of a character that needs no escape need none. -/
theorem isPlain_of_mem {c : Char} (hc : 0x20 ≤ c.toNat) (hq : c ≠ '"') (hb : c ≠ '\\') :
    ∀ b ∈ String.utf8EncodeChar c, IsPlain b := by
  by_cases h : c.toNat < 0x80
  · rw [utf8EncodeChar_of_lt h]
    intro b hmem
    cases List.mem_singleton.mp hmem
    exact isPlain_ofNat h hc (fun hn => hq (Char.toNat_inj.mp hn))
      (fun hn => hb (Char.toNat_inj.mp hn))
  · exact fun b hmem => isPlain_of_le (le_of_mem_utf8EncodeChar (Nat.le_of_not_lt h) b hmem)

/-- However a character is spelled, the reader of a string takes its octets. -/
theorem characters_of_spellsChar {c : Char} {w : List UInt8} (h : SpellsChar c w)
    (read r : List UInt8) :
    characters read (w ++ r) = characters ((String.utf8EncodeChar c).reverse ++ read) r := by
  cases h with
  | raw hc hq hb => exact characters_of_plain (isPlain_of_mem hc hq hb) read r
  | letter h =>
    obtain ⟨x, hx, hxc⟩ := Option.map_eq_some_iff.mp (letterEscape?_of_mem h)
    rw [← hxc]
    exact characters_backslash (escape_letter hx r)
  | number h =>
    have he := escape_number (codePoint_of_char h r)
    rw [Char.ofNat_toNat] at he
    exact characters_backslash he
  | @pair high low v w hv hw hhigh hlow hc =>
    have he := escape_number (codePoint_of_pair hv hw hhigh hlow r)
    rw [Nat.add_comm, ← Nat.add_assoc, ← hc, Char.ofNat_toNat] at he
    rw [List.append_assoc]
    exact characters_backslash he

/-- Characters are read one by one, however each is spelled. -/
theorem characters_of_spellsChars {cs : List Char} {w : List UInt8} (h : SpellsChars cs w)
    (read r : List UInt8) :
    characters read (w ++ quoteMark :: r) =
      .ok (read.reverse ++ cs.flatMap String.utf8EncodeChar, r) := by
  induction h generalizing read with
  | nil => simp [characters_quoteMark]
  | cons h _ ih =>
    rw [List.append_assoc, characters_of_spellsChar h, ih]
    simp

theorem octets_eq_flatMap (s : String) :
    Text.octets s = s.toList.flatMap String.utf8EncodeChar := by
  unfold Text.octets
  conv => lhs; rw [← String.ofList_toList (s := s)]
  simp [String.ofList, List.utf8Encode]

/-- A string is read from any of its spellings. -/
theorem readBody_of_spellsChars {s : String} {w : List UInt8} (h : SpellsChars s.toList w)
    (r : List UInt8) : readBody (w ++ quoteMark :: r) = .ok (s, r) := by
  unfold readBody
  rw [characters_of_spellsChars h, List.reverse_nil, List.nil_append, ← octets_eq_flatMap]
  simp only [bind, Except.bind, Text.ofOctets?_octets]
  rfl

theorem isHexDigit_hexDigit {n : Nat} (h : n < 16) : IsHexDigit n (hexDigit n) := by
  unfold hexDigit
  split
  · exact .decimal ‹_›
  · exact .lower (by omega) h

theorem isFourHex_hexDigit {n : Nat} (h : n < 0x10000) :
    IsFourHex n [hexDigit (n / 0x1000), hexDigit (n / 0x100 % 16), hexDigit (n / 0x10 % 16),
      hexDigit (n % 16)] := by
  have hfour := IsFourHex.mk (isHexDigit_hexDigit (n := n / 0x1000) (by omega))
    (isHexDigit_hexDigit (n := n / 0x100 % 16) (by omega))
    (isHexDigit_hexDigit (n := n / 0x10 % 16) (by omega))
    (isHexDigit_hexDigit (n := n % 16) (by omega))
  rwa [show ((n / 0x1000 * 16 + n / 0x100 % 16) * 16 + n / 0x10 % 16) * 16 + n % 16 = n by omega]
    at hfour

theorem escaped_of_isPlain {b : UInt8} (h : IsPlain b) : escaped b = [b] := by
  obtain ⟨hc, hq, hb⟩ := h
  unfold escaped
  split
  case h_8 => exact if_neg hc
  all_goals first | exact absurd rfl hq | exact absurd rfl hb | exact absurd (by decide) hc

theorem flatMap_escaped_of_isPlain {w : List UInt8} (h : ∀ b ∈ w, IsPlain b) :
    w.flatMap escaped = w := by
  induction w with
  | nil => rfl
  | cons b w ih =>
    rw [List.flatMap_cons, escaped_of_isPlain (h b List.mem_cons_self),
      ih fun b hb => h b (List.mem_cons_of_mem _ hb)]
    rfl

/-- The writer escapes a character of ASCII in one of the ways to spell it. -/
theorem spellsChar_escaped {c : Char} (h : c.toNat < 0x80) :
    SpellsChar c (escaped (UInt8.ofNat c.toNat)) := by
  have hnat : (UInt8.ofNat c.toNat).toNat = c.toNat :=
    UInt8.toNat_ofNat_of_lt' (by change c.toNat < 256; omega)
  have hchar : ∀ d : Char, (UInt8.ofNat c.toNat).toNat = d.toNat → c = d :=
    fun d hd => Char.toNat_inj.mp (hnat.symm.trans hd)
  generalize UInt8.ofNat c.toNat = b at hnat hchar
  unfold escaped
  split
  case h_1 => cases hchar '"' rfl; exact .letter (by decide)
  case h_2 => cases hchar '\\' rfl; exact .letter (by decide)
  case h_3 => cases hchar '\x08' rfl; exact .letter (by decide)
  case h_4 => cases hchar '\x0C' rfl; exact .letter (by decide)
  case h_5 => cases hchar '\n' rfl; exact .letter (by decide)
  case h_6 => cases hchar '\r' rfl; exact .letter (by decide)
  case h_7 => cases hchar '\t' rfl; exact .letter (by decide)
  case h_8 hq hb _ _ _ _ _ =>
    split
    · rename_i hc
      have hlt : c.toNat < 32 := hnat ▸ UInt8.lt_iff_toNat_lt.mp hc
      have hfour := isFourHex_hexDigit (n := c.toNat) (by omega)
      rw [← hnat, show b.toNat / 0x1000 = 0 by omega, show b.toNat / 0x100 % 16 = 0 by omega,
        show b.toNat / 0x10 % 16 = b.toNat / 16 by omega, hnat] at hfour
      rw [hnat]
      exact .number hfour
    · rename_i hc
      have hraw : SpellsChar c (String.utf8EncodeChar c) := by
        refine .raw ?_ ?_ ?_
        · rw [← hnat]
          exact UInt8.le_iff_toNat_le.mp (UInt8.not_lt.mp hc)
        · rintro rfl
          exact hq (UInt8.toNat_inj.mp hnat)
        · rintro rfl
          exact hb (UInt8.toNat_inj.mp hnat)
      rwa [utf8EncodeChar_of_lt h, ← hnat, UInt8.ofNat_toNat] at hraw

theorem spellsChar_written (c : Char) :
    SpellsChar c ((String.utf8EncodeChar c).flatMap escaped) := by
  by_cases h : c.toNat < 0x80
  · rw [utf8EncodeChar_of_lt h, List.flatMap_singleton]
    exact spellsChar_escaped h
  · have hle := Nat.le_of_not_lt h
    rw [flatMap_escaped_of_isPlain fun b hb => isPlain_of_le (le_of_mem_utf8EncodeChar hle b hb)]
    refine .raw (by omega) ?_ ?_
    · rintro rfl
      exact h (by decide)
    · rintro rfl
      exact h (by decide)

/-- What is written is one of the spellings. -/
theorem spellsString_writeString (s : String) : SpellsString s (writeString s) := by
  have hall : ∀ cs : List Char,
      SpellsChars cs ((cs.flatMap String.utf8EncodeChar).flatMap escaped) := by
    intro cs
    induction cs with
    | nil => exact .nil
    | cons c cs ih =>
      rw [List.flatMap_cons, List.flatMap_append]
      exact .cons (spellsChar_written c) ih
  have h := hall s.toList
  rw [← octets_eq_flatMap] at h
  exact .mk h

end ChatRelay.Json
