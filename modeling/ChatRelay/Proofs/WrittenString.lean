import ChatRelay.Json.Characters
import ChatRelay.Json.Writer

namespace ChatRelay.Json

theorem characters_quoteMark (read r : List UInt8) :
    characters read (quoteMark :: r) = .ok (read.reverse, r) := by
  rw [characters]
  rfl

theorem characters_backslash {read r out t : List UInt8} (h : escape r = .ok (out, t)) :
    characters read (backslash :: r) = characters (out.reverse ++ read) t := by
  rw [characters]
  simp only [show backslash ≠ quoteMark by decide, if_false, if_true]
  split
  · rename_i he
    rw [h] at he
    cases he
  · rename_i he
    rw [h] at he
    cases he
    rfl

theorem characters_cons {b : UInt8} (hq : b ≠ quoteMark) (hb : b ≠ backslash) (hc : ¬ b < 0x20)
    (read r : List UInt8) : characters read (b :: r) = characters (b :: read) r := by
  rw [characters]
  simp only [hq, hb, hc, if_false]

theorem escape_letter {b c : UInt8} (h : letterEscape? b = some c) (r : List UInt8) :
    escape (b :: r) = .ok ([c], r) := by
  simp only [escape, h]

theorem escape_number {r t : List UInt8} {n : Nat} (h : codePoint r = .ok (n, t)) :
    escape (0x75 :: r) = .ok (String.utf8EncodeChar (Char.ofNat n), t) := by
  have hl : letterEscape? 0x75 = none := by decide
  simp only [escape, hl, if_true, h]
  rfl

theorem fourHex_cons {a b c d : UInt8} {i j k l : Nat} (ha : hexDigit? a = some i)
    (hb : hexDigit? b = some j) (hc : hexDigit? c = some k) (hd : hexDigit? d = some l)
    (r : List UInt8) :
    fourHex (a :: b :: c :: d :: r) = .ok (((i * 16 + j) * 16 + k) * 16 + l, r) := by
  simp only [fourHex, ha, hb, hc, hd]

theorem codePoint_of_fourHex {r t : List UInt8} {n : Nat} (h : fourHex r = .ok (n, t))
    (hn : n < 0xD800) : codePoint r = .ok (n, t) := by
  unfold codePoint
  rw [h]
  change (if _ then _ else _) = _
  rw [if_neg (by omega), if_neg (by omega)]
  rfl

theorem utf8EncodeChar_ofNat {n : Nat} (h : n < 0x80) :
    String.utf8EncodeChar (Char.ofNat n) = [UInt8.ofNat n] := by
  have hv : n.isValidChar := Or.inl (by omega)
  have hn : (Char.ofNat n).val.toNat = n := by
    unfold Char.ofNat
    rw [dif_pos hv]
    rfl
  simp [String.utf8EncodeChar, hn]
  omega

theorem hexDigit?_hexDigit : ∀ n < 16, hexDigit? (hexDigit n) = some n := by
  decide

theorem escape_control {b : UInt8} (hb : b < 0x20) (r : List UInt8) :
    escape (0x75 :: 0x30 :: 0x30 :: hexDigit (b.toNat / 16) :: hexDigit (b.toNat % 16) :: r) =
      .ok ([b], r) := by
  have hb : b.toNat < 32 := by simpa [UInt8.lt_iff_toNat_lt] using hb
  have hz : hexDigit? 0x30 = some 0 := by decide
  have hf := fourHex_cons hz hz (hexDigit?_hexDigit (b.toNat / 16) (by omega))
    (hexDigit?_hexDigit (b.toNat % 16) (by omega)) r
  have hn : ((0 * 16 + 0) * 16 + b.toNat / 16) * 16 + b.toNat % 16 = b.toNat := by omega
  rw [hn] at hf
  rw [escape_number (codePoint_of_fourHex hf (by omega)), utf8EncodeChar_ofNat (by omega),
    UInt8.ofNat_toNat]

/-- Escaping loses nothing: a reader of a string takes an escaped octet for the octet itself. -/
theorem characters_escaped (b : UInt8) (read r : List UInt8) :
    characters read (escaped b ++ r) = characters (b :: read) r := by
  unfold escaped
  split
  case h_8 b hq hs _ _ _ _ _ =>
    split
    · exact characters_backslash (escape_control ‹_› r)
    · exact characters_cons hq hs ‹_› read r
  all_goals exact characters_backslash (escape_letter (by decide) r)

theorem characters_flatMap_escaped (bs read r : List UInt8) :
    characters read (bs.flatMap escaped ++ quoteMark :: r) = .ok (read.reverse ++ bs, r) := by
  induction bs generalizing read with
  | nil => simp [characters_quoteMark]
  | cons b bs ih =>
    rw [List.flatMap_cons, List.append_assoc, characters_escaped, ih]
    simp

theorem readBody_writeString (s : String) (r : List UInt8) :
    readBody ((Text.octets s).flatMap escaped ++ quoteMark :: r) = .ok (s, r) := by
  unfold readBody
  rw [characters_flatMap_escaped]
  simp only [bind, Except.bind, List.reverse_nil, List.nil_append, Text.ofOctets?_octets]
  rfl

end ChatRelay.Json
