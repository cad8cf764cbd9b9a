import ChatRelay.Json.Mismatch

namespace ChatRelay.Json

def skipString : List UInt8 → Except Fault (List UInt8)
  | [] => .error .endOfString
  | b :: r =>
    if b = quoteMark then .ok r
    else if b = backslash then
      match r with
      | [] => .error .endOfString
      | c :: t =>
        if (letterEscape? c).isSome then skipString t
        else if c = 0x75 then
          match _h : fourHex t with
          | .error e => .error e
          | .ok (_, u) => skipString u
        else .error .invalidEscape
    else if b < 0x20 then .error .controlCharacter
    else skipString r
termination_by s => s.length
decreasing_by
  · simp only [List.length_cons]; omega
  · have := length_lt_of_fourHex _h
    simp only [List.length_cons]; omega
  · simp

theorem length_lt_of_skipString {s r : List UInt8} (h : skipString s = .ok r) :
    r.length < s.length := by
  fun_induction skipString s with
  | case2 => cases h; simp
  | case4 c t _ _ ih => have := ih h; simp only [List.length_cons]; omega
  | case6 t _ u he _ _ ih =>
    have := length_lt_of_fourHex he
    have := ih h
    simp only [List.length_cons]; omega
  | case9 b t _ _ _ ih => have := ih h; simp only [List.length_cons]; omega
  | _ => contradiction

def skipScalar : List UInt8 → Except Fault (List UInt8)
  | [] => .error .endOfValue
  | b :: r =>
    if b = 0x6E then word (letters "ull") r
    else if b = 0x74 then word (letters "rue") r
    else if b = 0x66 then word (letters "alse") r
    else if startsNumber b then (Numeral.scan .invalidNumber (b :: r)).map (·.2)
    else if b = quoteMark then skipString r
    else .error .expectedValue

theorem length_lt_of_skipScalar {s r : List UInt8} (h : skipScalar s = .ok r) :
    r.length < s.length := by
  unfold skipScalar at h
  split at h
  · contradiction
  · rename_i b t
    split at h
    · have := length_le_of_word h; simp only [List.length_cons]; omega
    · split at h
      · have := length_le_of_word h; simp only [List.length_cons]; omega
      · split at h
        · have := length_le_of_word h; simp only [List.length_cons]; omega
        · split at h
          · cases hx : Numeral.scan .invalidNumber (b :: t) with
            | error e => rw [hx] at h; contradiction
            | ok p =>
              rw [hx] at h
              cases h
              exact Numeral.length_lt_of_scan hx
          · split at h
            · have := length_lt_of_skipString h; simp only [List.length_cons]; omega
            · contradiction

/-- What encloses a value. -/
inductive Frame where
  | list
  | object
deriving DecidableEq, Repr

namespace Frame

def ofOpening? (b : UInt8) : Option Frame :=
  if b = openList then some list else if b = openObject then some object else none

def closing : Frame → UInt8
  | list => closeList
  | object => closeObject

def unclosed : Frame → Fault
  | list => .endOfList
  | object => .endOfObject

def unseparated : Frame → Fault
  | list => .expectedListCommaOrEnd
  | object => .expectedObjectCommaOrEnd

/-- Goes to the next value inside a frame, in an object past its key. -/
def enter : Frame → List UInt8 → Except Fault (List UInt8)
  | list, s => .ok s
  | object, s =>
    match skipBlank s with
    | [] => .error .endOfObject
    | b :: r => if b = quoteMark then skipString r >>= afterColon else .error .keyNotString

theorem length_le_of_enter {f : Frame} {s r : List UInt8} (h : f.enter s = .ok r) :
    r.length ≤ s.length := by
  cases f with
  | list => cases h; simp
  | object =>
    unfold enter at h
    dsimp only at h
    split at h
    · contradiction
    · rename_i hs
      split at h
      · obtain ⟨t, ht, h⟩ := bind_eq_ok.1 h
        have := length_lt_of_skipString ht
        have := length_lt_of_afterColon h
        have := length_lt_of_skipBlank hs
        omega
      · contradiction

end Frame

/-- Passes over all that is left of the open frames, before or after one of their values, and
without any over one value. -/
def passOver (before : Bool) (frames : List Frame) (s : List UInt8) :
    Except Fault (List UInt8) :=
  match before, frames with
  | true, frames =>
    match _hs : skipBlank s with
    | [] => .error .endOfValue
    | b :: r =>
      match Frame.ofOpening? b with
      | none =>
        match _hu : skipScalar (b :: r) with
        | .error e => .error e
        | .ok u => passOver false frames u
      | some f =>
        match _ht : skipBlank r with
        | [] => .error f.unclosed
        | c :: t =>
          if c = f.closing then passOver false frames t
          else match _hu : f.enter r with
            | .error e => .error e
            | .ok u => passOver true (f :: frames) u
  | false, [] => .ok s
  | false, f :: frames =>
    match _hs : skipBlank s with
    | [] => .error f.unclosed
    | b :: r =>
      if b = comma then
        match _hu : f.enter r with
        | .error e => .error e
        | .ok u => passOver true (f :: frames) u
      else if b = f.closing then passOver false frames r
      else .error f.unseparated
termination_by s.length
decreasing_by
  · have := length_lt_of_skipScalar _hu
    have := length_skipBlank_le s
    rw [_hs] at this
    omega
  · have := length_lt_of_skipBlank _ht
    have := length_lt_of_skipBlank _hs
    omega
  · have := Frame.length_le_of_enter _hu
    have := length_lt_of_skipBlank _hs
    omega
  · have := Frame.length_le_of_enter _hu
    have := length_lt_of_skipBlank _hs
    omega
  · exact length_lt_of_skipBlank _hs

/-- Every round either closes a frame or takes a value, and so uses an octet up. -/
theorem length_le_of_passOver {before : Bool} {frames : List Frame} {s r : List UInt8}
    (h : passOver before frames s = .ok r) : r.length + before.toNat ≤ s.length := by
  fun_induction passOver before frames s with
  | case3 s frames b t hs _ u hu ih =>
    have := length_lt_of_skipScalar hu
    have := length_skipBlank_le s
    rw [hs] at this
    have := ih h
    simp at *; omega
  | case5 s frames b t hs f _ u hu ih =>
    have := length_lt_of_skipBlank hs
    have := length_lt_of_skipBlank hu
    have := ih h
    simp at *; omega
  | case7 s frames b t hs f _ c u hu _ v hv ih =>
    have := length_lt_of_skipBlank hs
    have := Frame.length_le_of_enter hv
    have := ih h
    simp at *; omega
  | case8 => cases h; simp
  | case11 s f frames t u hu hs ih =>
    have := length_lt_of_skipBlank hs
    have := Frame.length_le_of_enter hu
    have := ih h
    simp at *; omega
  | case12 s f frames t hs _ ih =>
    have := length_lt_of_skipBlank hs
    have := ih h
    simp at *; omega
  | _ => contradiction

def readSkipped (s : List UInt8) : Except Fault (Unit × List UInt8) := do
  let r ← passOver true [] s
  return ((), r)

theorem length_lt_of_readSkipped {s r : List UInt8} {u : Unit} (h : readSkipped s = .ok (u, r)) :
    r.length < s.length := by
  obtain ⟨t, hp, h⟩ := bind_eq_ok.1 h
  cases h
  have := length_le_of_passOver hp
  simp only [Bool.toNat_true] at this
  omega

/-- Takes a value of any form and keeps nothing of it. Only the syntax counts: numbers may have any
size, strings any octets and unpaired surrogates, and nesting any depth. -/
def skipped : Reader Unit := ⟨readSkipped, length_lt_of_readSkipped⟩

end ChatRelay.Json
