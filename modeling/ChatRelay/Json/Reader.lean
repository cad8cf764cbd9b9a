import ChatRelay.Json.Fault
import ChatRelay.Text.Octets

namespace ChatRelay.Json

/-- A result that takes two steps is a result of the second on what the first gives. -/
theorem bind_eq_ok {ε α β : Type} {x : Except ε α} {f : α → Except ε β} {b : β} :
    (x >>= f) = .ok b ↔ ∃ a, x = .ok a ∧ f a = .ok b := by
  cases x with
  | error e => simp [bind, Except.bind]
  | ok a => simp [bind, Except.bind]

abbrev quoteMark : UInt8 := 0x22
abbrev comma : UInt8 := 0x2C
abbrev minus : UInt8 := 0x2D
abbrev point : UInt8 := 0x2E
abbrev colonMark : UInt8 := 0x3A
abbrev openList : UInt8 := 0x5B
abbrev backslash : UInt8 := 0x5C
abbrev closeList : UInt8 := 0x5D
abbrev openObject : UInt8 := 0x7B
abbrev closeObject : UInt8 := 0x7D

/-- Space, tab, line feed and carriage return separate the parts of a text. -/
def isBlank (b : UInt8) : Bool :=
  b = 0x20 || b = 0x09 || b = 0x0A || b = 0x0D

def skipBlank (s : List UInt8) : List UInt8 :=
  s.dropWhile isBlank

theorem length_skipBlank_le (s : List UInt8) : (skipBlank s).length ≤ s.length :=
  (List.dropWhile_sublist _).length_le

theorem length_lt_of_skipBlank {s r : List UInt8} {b : UInt8} (h : skipBlank s = b :: r) :
    r.length < s.length := by
  have := length_skipBlank_le s
  rw [h] at this
  exact this

def afterColon (s : List UInt8) : Except Fault (List UInt8) :=
  match skipBlank s with
  | [] => .error .endOfObject
  | b :: r => if b = colonMark then .ok r else .error .expectedColon

theorem length_lt_of_afterColon {s r : List UInt8} (h : afterColon s = .ok r) :
    r.length < s.length := by
  unfold afterColon at h
  split at h
  · contradiction
  · split at h
    · cases h
      exact length_lt_of_skipBlank ‹_›
    · contradiction

/-- What a reader leaves of a text is shorter than the text. -/
structure Reader (α : Type) where
  run : List UInt8 → Except Fault (α × List UInt8)
  shortens : ∀ {s : List UInt8} {a : α} {r : List UInt8}, run s = .ok (a, r) → r.length < s.length

namespace Reader

def map {α β : Type} (f : α → β) (p : Reader α) : Reader β where
  run s := do
    let (a, r) ← p.run s
    return (f a, r)
  shortens {s b r} h := by
    obtain ⟨⟨a, t⟩, ha, hb⟩ := bind_eq_ok.1 h
    cases hb
    exact p.shortens ha

def refine {α β : Type} (p : Reader α) (f : α → Except Fault β) : Reader β where
  run s := do
    let (a, r) ← p.run s
    let b ← f a
    return (b, r)
  shortens {s b r} h := by
    obtain ⟨⟨a, t⟩, ha, h⟩ := bind_eq_ok.1 h
    obtain ⟨c, hc, hb⟩ := bind_eq_ok.1 h
    cases hb
    exact p.shortens ha

/-- Reads a whole text: one value and nothing but blanks after it. -/
def whole {α : Type} (p : Reader α) (s : List UInt8) : Except Fault α := do
  let (a, r) ← p.run s
  if (skipBlank r).isEmpty then return a else throw .trailingCharacters

end Reader

end ChatRelay.Json
