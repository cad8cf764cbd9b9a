import ChatRelay.Json.Characters
import ChatRelay.Json.Numeral

namespace ChatRelay.Json

def word : List UInt8 → List UInt8 → Except Fault (List UInt8)
  | [], s => .ok s
  | _ :: _, [] => .error .endOfValue
  | w :: ws, b :: s => if b = w then word ws s else .error .expectedWord

theorem length_le_of_word {ws s r : List UInt8} (h : word ws s = .ok r) : r.length ≤ s.length := by
  induction ws generalizing s with
  | nil => cases h; simp
  | cons w ws ih =>
    cases s with
    | nil => contradiction
    | cons b s =>
      unfold word at h
      split at h
      · have := ih h
        simp only [List.length_cons]; omega
      · contradiction

def letters (w : String) : List UInt8 :=
  w.toList.map Char.toUInt8

def readNumber (s : List UInt8) : Except Fault (Number × List UInt8) := do
  let (x, r) ← Numeral.scan .endOfValue s
  let n ← x.value
  return (n, r)

theorem length_lt_of_readNumber {s r : List UInt8} {n : Number}
    (h : readNumber s = .ok (n, r)) : r.length < s.length := by
  obtain ⟨⟨x, t⟩, hx, h⟩ := bind_eq_ok.1 h
  obtain ⟨v, hv, h⟩ := bind_eq_ok.1 h
  cases h
  exact Numeral.length_lt_of_scan hx

def Number.found : Number → Found
  | integer n => .integer n
  | decimal d => .decimal d

def startsNumber (b : UInt8) : Bool :=
  b = minus || isDigit b

/-- What a text without leading blanks starts with. -/
def found : List UInt8 → Except Fault Found
  | [] => .error .endOfValue
  | b :: r =>
    if b = 0x6E then (word (letters "ull") r).map fun _ => .null
    else if b = 0x74 then (word (letters "rue") r).map fun _ => .boolean true
    else if b = 0x66 then (word (letters "alse") r).map fun _ => .boolean false
    else if startsNumber b then (readNumber (b :: r)).map (·.1.found)
    else if b = quoteMark then (readBody r).map fun (text, _) => .string text
    else if b = openList then .ok .sequence
    else if b = openObject then .ok .map
    else .error .expectedValue

/-- The fault of a text that does not start with what is expected. -/
def mismatch (expected : String) (s : List UInt8) : Fault :=
  match found s with
  | .ok f => .wrongType f expected
  | .error e => e

end ChatRelay.Json
