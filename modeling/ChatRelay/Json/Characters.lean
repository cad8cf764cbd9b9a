import ChatRelay.Json.Reader

namespace ChatRelay.Json

def hexDigit? (b : UInt8) : Option Nat :=
  if 0x30 ≤ b ∧ b ≤ 0x39 then some (b.toNat - 0x30)
  else if 0x41 ≤ b ∧ b ≤ 0x46 then some (b.toNat - 0x41 + 10)
  else if 0x61 ≤ b ∧ b ≤ 0x66 then some (b.toNat - 0x61 + 10)
  else none

def fourHex : List UInt8 → Except Fault (Nat × List UInt8)
  | a :: b :: c :: d :: r =>
    match hexDigit? a, hexDigit? b, hexDigit? c, hexDigit? d with
    | some a, some b, some c, some d => .ok (((a * 16 + b) * 16 + c) * 16 + d, r)
    | _, _, _, _ => .error .invalidEscape
  | _ => .error .endOfString

theorem length_lt_of_fourHex {s r : List UInt8} {n : Nat} (h : fourHex s = .ok (n, r)) :
    r.length < s.length := by
  unfold fourHex at h
  split at h
  · split at h
    · cases h; simp only [List.length_cons]; omega
    · contradiction
  · contradiction

/-- The second half of a character beyond the first plane is an escape of its own. -/
def lowSurrogate : List UInt8 → Except Fault (Nat × List UInt8)
  | [] => .error .endOfString
  | b :: r =>
    if b ≠ backslash then .error .endOfEscape
    else match r with
      | [] => .error .endOfString
      | c :: r =>
        if c ≠ 0x75 then .error .endOfEscape
        else do
          let (n, r) ← fourHex r
          if 0xDC00 ≤ n ∧ n ≤ 0xDFFF then return (n, r) else throw .loneSurrogate

theorem length_lt_of_lowSurrogate {s r : List UInt8} {n : Nat} (h : lowSurrogate s = .ok (n, r)) :
    r.length < s.length := by
  unfold lowSurrogate at h
  split at h
  · contradiction
  · split at h
    · contradiction
    · split at h
      · contradiction
      · split at h
        · contradiction
        · obtain ⟨⟨m, t⟩, hm, h⟩ := bind_eq_ok.1 h
          have := length_lt_of_fourHex hm
          dsimp only at h
          split at h
          · cases h; simp only [List.length_cons]; omega
          · contradiction

/-- The code point of a numbered escape, after its `\u`. -/
def codePoint (s : List UInt8) : Except Fault (Nat × List UInt8) := do
  let (high, r) ← fourHex s
  if 0xDC00 ≤ high ∧ high ≤ 0xDFFF then throw .loneSurrogate
  else if 0xD800 ≤ high ∧ high ≤ 0xDBFF then
    let (low, r) ← lowSurrogate r
    return ((high - 0xD800) * 0x400 + (low - 0xDC00) + 0x10000, r)
  else return (high, r)

theorem length_lt_of_codePoint {s r : List UInt8} {n : Nat} (h : codePoint s = .ok (n, r)) :
    r.length < s.length := by
  obtain ⟨⟨m, t⟩, hm, h⟩ := bind_eq_ok.1 h
  have := length_lt_of_fourHex hm
  dsimp only at h
  split at h
  · contradiction
  · split at h
    · obtain ⟨⟨l, u⟩, hl, h⟩ := bind_eq_ok.1 h
      have := length_lt_of_lowSurrogate hl
      cases h; dsimp only; omega
    · cases h; omega

/-- The octet that a one-letter escape stands for. -/
def letterEscape? (b : UInt8) : Option UInt8 :=
  match b with
  | 0x22 => some 0x22
  | 0x5C => some 0x5C
  | 0x2F => some 0x2F
  | 0x62 => some 0x08
  | 0x66 => some 0x0C
  | 0x6E => some 0x0A
  | 0x72 => some 0x0D
  | 0x74 => some 0x09
  | _ => none

def escape : List UInt8 → Except Fault (List UInt8 × List UInt8)
  | [] => .error .endOfString
  | b :: r =>
    match letterEscape? b with
    | some c => .ok ([c], r)
    | none =>
      if b = 0x75 then do
        let (n, r) ← codePoint r
        return (String.utf8EncodeChar (Char.ofNat n), r)
      else .error .invalidEscape

theorem length_lt_of_escape {s r out : List UInt8} (h : escape s = .ok (out, r)) :
    r.length < s.length := by
  unfold escape at h
  split at h
  · contradiction
  · split at h
    · cases h; simp
    · split at h
      · obtain ⟨⟨n, t⟩, hn, h⟩ := bind_eq_ok.1 h
        have := length_lt_of_codePoint hn
        cases h; simp only [List.length_cons]; omega
      · contradiction

/-- The octets of a string up to its closing quote, after those already `read`, which stand in
reverse. -/
def characters (read : List UInt8) (s : List UInt8) : Except Fault (List UInt8 × List UInt8) :=
  match s with
  | [] => .error .endOfString
  | b :: r =>
    if b = quoteMark then .ok (read.reverse, r)
    else if b = backslash then
      match _h : escape r with
      | .error e => .error e
      | .ok (out, t) => characters (out.reverse ++ read) t
    else if b < 0x20 then .error .controlCharacter
    else characters (b :: read) r
termination_by s.length
decreasing_by
  · have := length_lt_of_escape _h
    simp only [List.length_cons]; omega
  · simp

theorem length_lt_of_characters {read s r out : List UInt8} (h : characters read s = .ok (out, r)) :
    r.length < s.length := by
  fun_induction characters read s with
  | case1 => contradiction
  | case2 => cases h; simp
  | case3 => contradiction
  | case4 read t out' u he _ ih =>
    have := length_lt_of_escape he
    have := ih h
    simp only [List.length_cons]; omega
  | case5 => contradiction
  | case6 read b t _ _ _ ih =>
    have := ih h
    simp only [List.length_cons]; omega

/-- The rest of a string after its opening quote. Its octets have to be a text. -/
def readBody (s : List UInt8) : Except Fault (String × List UInt8) := do
  let (out, r) ← characters [] s
  match Text.ofOctets? out with
  | some text => return (text, r)
  | none => throw .invalidCodePoint

theorem length_lt_of_readBody {s r : List UInt8} {text : String}
    (h : readBody s = .ok (text, r)) : r.length < s.length := by
  obtain ⟨⟨out, t⟩, hc, h⟩ := bind_eq_ok.1 h
  have := length_lt_of_characters hc
  dsimp only at h
  split at h
  · cases h; exact this
  · contradiction

end ChatRelay.Json
