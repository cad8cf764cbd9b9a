import ChatRelay.Json.Reader

namespace ChatRelay.Json

def isDigit (b : UInt8) : Bool :=
  0x30 ≤ b && b ≤ 0x39

def digitValue (b : UInt8) : Nat :=
  b.toNat - 0x30

/-- A number as it is written. Without a point there is no fraction. -/
structure Numeral where
  negative : Bool
  whole : List UInt8
  fraction : List UInt8
  exponent : Option Int
deriving DecidableEq, Repr

namespace Numeral

/-- One digit at least. `atEnd` is the fault of a text that ends instead. -/
def digits (atEnd : Fault) : List UInt8 → Except Fault (List UInt8 × List UInt8)
  | [] => .error atEnd
  | b :: r =>
    if isDigit b then .ok (b :: r.takeWhile isDigit, r.dropWhile isDigit)
    else .error .invalidNumber

theorem length_lt_of_digits {e : Fault} {s ds r : List UInt8} (h : digits e s = .ok (ds, r)) :
    r.length < s.length := by
  unfold digits at h
  split at h
  · contradiction
  · rename_i b t
    split at h
    · cases h
      have := (List.dropWhile_sublist isDigit (l := t)).length_le
      simp only [List.length_cons]; omega
    · contradiction

/-- A zero stands alone before the point. -/
def wholePart (atEnd : Fault) (s : List UInt8) : Except Fault (List UInt8 × List UInt8) :=
  match digits atEnd s with
  | .ok (0x30 :: _ :: _, _) => .error .invalidNumber
  | result => result

theorem length_lt_of_wholePart {e : Fault} {s ds r : List UInt8}
    (h : wholePart e s = .ok (ds, r)) : r.length < s.length := by
  unfold wholePart at h
  split at h
  · contradiction
  · exact length_lt_of_digits h

def fractionPart (atEnd : Fault) : List UInt8 → Except Fault (List UInt8 × List UInt8)
  | [] => .ok ([], [])
  | b :: r => if b = point then digits atEnd r else .ok ([], b :: r)

theorem length_le_of_fractionPart {e : Fault} {s ds r : List UInt8}
    (h : fractionPart e s = .ok (ds, r)) : r.length ≤ s.length := by
  unfold fractionPart at h
  split at h
  · cases h; simp
  · split at h
    · have := length_lt_of_digits h
      simp only [List.length_cons]; omega
    · cases h; simp

def decimalValue (ds : List UInt8) : Nat :=
  ds.foldl (fun n d => 10 * n + digitValue d) 0

def sign : List UInt8 → Bool × List UInt8
  | [] => (false, [])
  | b :: r => if b = minus then (true, r) else (false, b :: r)

theorem length_sign_le (s : List UInt8) : (sign s).2.length ≤ s.length := by
  unfold sign
  split
  · simp
  · split <;> simp

def exponentSign : List UInt8 → Bool × List UInt8
  | [] => (false, [])
  | b :: r => if b = 0x2B then (false, r) else sign (b :: r)

theorem length_exponentSign_le (s : List UInt8) : (exponentSign s).2.length ≤ s.length := by
  unfold exponentSign
  split
  · simp
  · split
    · simp
    · exact length_sign_le _

def exponentPart (atEnd : Fault) : List UInt8 → Except Fault (Option Int × List UInt8)
  | [] => .ok (none, [])
  | b :: r =>
    if b = 0x65 ∨ b = 0x45 then
      match digits atEnd (exponentSign r).2 with
      | .error e => .error e
      | .ok (ds, t) =>
        let n : Int := decimalValue ds
        .ok (some (if (exponentSign r).1 then -n else n), t)
    else .ok (none, b :: r)

theorem length_le_of_exponentPart {e : Fault} {s r : List UInt8} {n : Option Int}
    (h : exponentPart e s = .ok (n, r)) : r.length ≤ s.length := by
  unfold exponentPart at h
  split at h
  · cases h; simp
  · rename_i b t
    split at h
    · split at h
      · contradiction
      · cases h
        have := length_lt_of_digits ‹_›
        have := length_exponentSign_le t
        simp only [List.length_cons]; omega
    · cases h; simp

/-- The number at the front of a text, as far as it can be continued. `atEnd` is the fault of a text
that ends where a digit has to stand. -/
def scan (atEnd : Fault) (s : List UInt8) : Except Fault (Numeral × List UInt8) := do
  let (whole, r) ← wholePart atEnd (sign s).2
  let (fraction, r) ← fractionPart atEnd r
  let (exponent, r) ← exponentPart atEnd r
  return (⟨(sign s).1, whole, fraction, exponent⟩, r)

theorem length_lt_of_scan {e : Fault} {s r : List UInt8} {x : Numeral}
    (h : scan e s = .ok (x, r)) : r.length < s.length := by
  obtain ⟨⟨w, t⟩, hw, h⟩ := bind_eq_ok.1 h
  obtain ⟨⟨f, u⟩, hf, h⟩ := bind_eq_ok.1 h
  obtain ⟨⟨n, v⟩, hn, h⟩ := bind_eq_ok.1 h
  have := length_lt_of_wholePart hw
  have := length_le_of_fractionPart hf
  have := length_le_of_exponentPart hn
  have := length_sign_le s
  cases h
  dsimp only at *
  omega

/-- Takes digits into a significand of 64 bits as long as they fit, and leaves the others. -/
def absorb (significand : Nat) : List UInt8 → Nat × List UInt8
  | [] => (significand, [])
  | d :: ds =>
    let next := 10 * significand + digitValue d
    if next < 0x10000000000000000 then absorb next ds else (significand, d :: ds)

/-- Divides by powers of ten that a double can hold, until nothing is left to divide. -/
def scaledDown (f : Float) (k : Nat) : Float :=
  if k ≤ 308 then f / Float.ofScientific 1 false k
  else if f == 0 then f
  else scaledDown (f / Float.ofScientific 1 false 308) (k - 308)
termination_by k
decreasing_by omega

def scaled? (f : Float) (k : Int) : Option Float :=
  if k < 0 then some (scaledDown f k.natAbs)
  else if k ≤ 308 then
    let g := f * Float.ofScientific 1 false k.toNat
    if g.isInf then none else some g
  else if f == 0 then some f
  else none

end Numeral

inductive Number where
  | integer (value : Int)
  | decimal (value : Decimal)
deriving DecidableEq, Repr

/-- A number without fraction and exponent is whole, unless it is too large or a negative zero.
Digits before the point that no longer fit count as powers of ten, those after it are dropped. -/
def Numeral.value (x : Numeral) : Except Fault Number :=
  let (m, surplus) := absorb 0 x.whole
  if x.fraction = [] ∧ x.exponent = none ∧ surplus = [] ∧ ¬ x.negative then .ok (.integer m)
  else if x.fraction = [] ∧ x.exponent = none ∧ surplus = [] ∧ 0 < m ∧ m ≤ 0x8000000000000000 then
    .ok (.integer (-m))
  else
    let (n, dropped) := absorb m x.fraction
    let scale : Int :=
      surplus.length - (x.fraction.length - dropped.length : Nat) + x.exponent.getD 0
    match scaled? (Float.ofNat n) scale with
    | some f => .ok (.decimal { Decimal.ofFloat f with negative := x.negative })
    | none => .error .numberOutOfRange

end ChatRelay.Json
