import ChatRelay.Json.Mismatch

namespace ChatRelay.Json

def readString (s : List UInt8) : Except Fault (String × List UInt8) :=
  match skipBlank s with
  | [] => .error .endOfValue
  | b :: r => if b = quoteMark then readBody r else .error (mismatch "a string" (b :: r))

theorem length_lt_of_readString {s r : List UInt8} {text : String}
    (h : readString s = .ok (text, r)) : r.length < s.length := by
  unfold readString at h
  split at h
  · contradiction
  · have := length_lt_of_skipBlank ‹_›
    split at h
    · have := length_lt_of_readBody h
      omega
    · contradiction

def string : Reader String := ⟨readString, length_lt_of_readString⟩

def readNull (s : List UInt8) : Except Fault (Unit × List UInt8) :=
  match skipBlank s with
  | [] => .error .endOfValue
  | b :: r =>
    if b = 0x6E then do
      let t ← word (letters "ull") r
      return ((), t)
    else .error (mismatch "unit" (b :: r))

theorem length_lt_of_readNull {s r : List UInt8} {u : Unit} (h : readNull s = .ok (u, r)) :
    r.length < s.length := by
  unfold readNull at h
  split at h
  · contradiction
  · have := length_lt_of_skipBlank ‹_›
    split at h
    · obtain ⟨t, hw, h⟩ := bind_eq_ok.1 h
      cases h
      have := length_le_of_word hw
      omega
    · contradiction

/-- The value that says nothing. -/
def null : Reader Unit := ⟨readNull, length_lt_of_readNull⟩

def readNatural (limit : Nat) (expected : String) (s : List UInt8) :
    Except Fault (Nat × List UInt8) :=
  match skipBlank s with
  | [] => .error .endOfValue
  | b :: r =>
    if startsNumber b then
      match readNumber (b :: r) with
      | .error e => .error e
      | .ok (.integer n, t) =>
        if 0 ≤ n ∧ n ≤ limit then .ok (n.toNat, t)
        else .error (.wrongValue (.integer n) expected)
      | .ok (.decimal d, _) => .error (.wrongType (.decimal d) expected)
    else .error (mismatch expected (b :: r))

theorem length_lt_of_readNatural {limit n : Nat} {expected : String} {s r : List UInt8}
    (h : readNatural limit expected s = .ok (n, r)) : r.length < s.length := by
  unfold readNatural at h
  split at h
  · contradiction
  · rename_i hs
    have := length_skipBlank_le s
    rw [hs] at this
    split at h
    · split at h
      · contradiction
      · rename_i hn
        split at h
        · cases h
          have := length_lt_of_readNumber hn
          omega
        · contradiction
      · contradiction
    · contradiction

def natural (limit : Nat) (expected : String) : Reader Nat :=
  ⟨readNatural limit expected, length_lt_of_readNatural⟩

/-- What follows in a list or an object: its end, or another part of it. Either way the text that is
left starts behind the punctuation. -/
inductive Next where
  | done (rest : List UInt8)
  | more (rest : List UInt8)

/-- Goes to the end of a list or to its next item; only between items there is a comma. -/
def nextItem (first : Bool) (s : List UInt8) : Except Fault Next :=
  match skipBlank s with
  | [] => .error .endOfList
  | b :: r =>
    if b = closeList then .ok (.done r)
    else if first then .ok (.more (b :: r))
    else if b = comma then
      match skipBlank r with
      | [] => .error .endOfValue
      | c :: t => if c = closeList then .error .trailingComma else .ok (.more (c :: t))
    else .error .expectedListCommaOrEnd

theorem length_lt_of_nextItem_done {first : Bool} {s r : List UInt8}
    (h : nextItem first s = .ok (.done r)) : r.length < s.length := by
  unfold nextItem at h
  split at h
  · contradiction
  · have := length_lt_of_skipBlank ‹_›
    split at h
    · cases h; exact this
    · split at h
      · cases h
      · split at h
        · split at h
          · cases h
          · split at h <;> cases h
        · cases h

/-- Between items a comma is used up, before the first one nothing is. -/
theorem length_le_of_nextItem_more {first : Bool} {s r : List UInt8}
    (h : nextItem first s = .ok (.more r)) : r.length ≤ s.length := by
  unfold nextItem at h
  split at h
  · contradiction
  · rename_i b t hs
    have hle := length_skipBlank_le s
    rw [hs] at hle
    split at h
    · cases h
    · split at h
      · cases h; exact hle
      · split at h
        · split at h
          · contradiction
          · rename_i ht
            have := length_skipBlank_le t
            rw [ht] at this
            split at h
            · contradiction
            · cases h; simp at *; omega
        · contradiction

/-- The items of a list up to its end, after those already `read`, which stand in reverse. -/
def items {α : Type} (item : Reader α) (first : Bool) (read : List α) (s : List UInt8) :
    Except Fault (List α × List UInt8) :=
  match _hn : nextItem first s with
  | .error e => .error e
  | .ok (.done r) => .ok (read.reverse, r)
  | .ok (.more t) =>
    match _hi : item.run t with
    | .error e => .error e
    | .ok (a, r) => items item false (a :: read) r
termination_by s.length
decreasing_by
  have := length_le_of_nextItem_more _hn
  have := item.shortens _hi
  omega

theorem length_lt_of_items {α : Type} {item : Reader α} {first : Bool} {read out : List α}
    {s r : List UInt8} (h : items item first read s = .ok (out, r)) : r.length < s.length := by
  fun_induction items item first read s with
  | case2 first read s t hn => cases h; exact length_lt_of_nextItem_done hn
  | case4 first read s t hn a u hi ih =>
    have := length_le_of_nextItem_more hn
    have := item.shortens hi
    have := ih h
    omega
  | _ => contradiction

def readList {α : Type} (item : Reader α) (s : List UInt8) : Except Fault (List α × List UInt8) :=
  match skipBlank s with
  | [] => .error .endOfValue
  | b :: r =>
    if b = openList then items item true [] r else .error (mismatch "a sequence" (b :: r))

theorem length_lt_of_readList {α : Type} {item : Reader α} {xs : List α} {s r : List UInt8}
    (h : readList item s = .ok (xs, r)) : r.length < s.length := by
  unfold readList at h
  split at h
  · contradiction
  · have := length_lt_of_skipBlank ‹_›
    split at h
    · have := length_lt_of_items h
      omega
    · contradiction

def list {α : Type} (item : Reader α) : Reader (List α) :=
  ⟨readList item, length_lt_of_readList⟩

end ChatRelay.Json
