import ChatRelay.Json.Value
import ChatRelay.Json.Skipped

namespace ChatRelay.Json

structure Field (σ : Type) where
  name : String
  isSet : σ → Bool
  value : Reader (σ → σ)

/-- The form of a record `α`, which is put together as a `σ`. -/
structure Record (σ α : Type) where
  name : String
  blank : σ
  fields : List (Field σ)
  finish : σ → Except Fault α

/-- What a field holds once all of a record has been read. -/
def required {α : Type} (name : String) : Option α → Except Fault α
  | some a => .ok a
  | none => .error (.missingField name)

def endItems (s : List UInt8) : Except Fault (List UInt8) :=
  match skipBlank s with
  | [] => .error .endOfList
  | b :: r =>
    if b = closeList then .ok r
    else if b = comma ∧ (skipBlank r).head? = some closeList then .error .trailingComma
    else .error .trailingCharacters

theorem length_lt_of_endItems {s r : List UInt8} (h : endItems s = .ok r) :
    r.length < s.length := by
  unfold endItems at h
  split at h
  · contradiction
  · have := length_lt_of_skipBlank ‹_›
    split at h
    · cases h; exact this
    · split at h <;> contradiction

/-- Goes to the end of an object or into its next key; only between fields there is a comma. -/
def nextKey (first : Bool) (s : List UInt8) : Except Fault Next :=
  match skipBlank s with
  | [] => .error .endOfObject
  | b :: r =>
    if b = closeObject then .ok (.done r)
    else if first then
      if b = quoteMark then .ok (.more r) else .error .keyNotString
    else if b = comma then
      match skipBlank r with
      | [] => .error .endOfValue
      | c :: t =>
        if c = quoteMark then .ok (.more t)
        else if c = closeObject then .error .trailingComma
        else .error .keyNotString
    else .error .expectedObjectCommaOrEnd

def Next.rest : Next → List UInt8
  | done r => r
  | more r => r

theorem length_lt_of_nextKey {first : Bool} {s : List UInt8} {n : Next}
    (h : nextKey first s = .ok n) : n.rest.length < s.length := by
  unfold nextKey at h
  split at h
  · cases h
  · have := length_lt_of_skipBlank ‹_›
    split at h
    · cases h; exact this
    · split at h
      · split at h
        · cases h; exact this
        · cases h
      · split at h
        · split at h
          · cases h
          · have := length_lt_of_skipBlank ‹skipBlank _ = _ :: _›
            have := length_lt_of_skipBlank ‹skipBlank s = _›
            split at h
            · cases h
              simp only [Next.rest]
              omega
            · split at h <;> cases h
        · cases h

namespace Record

variable {σ α : Type}

/-- What a record is called where another value stands in its place. -/
def title (x : Record σ α) : String :=
  s!"struct {x.name}"

/-- What a record is called where a list has too few items for it. -/
def titleWithSize (x : Record σ α) : String :=
  s!"{x.title} with {x.fields.length} element" ++ (if x.fields.length = 1 then "" else "s")

/-- The remaining `fields` in order, of which the first is item number `i`. -/
def elements (x : Record σ α) (i : Nat) (draft : σ) :
    List (Field σ) → List UInt8 → Except Fault (σ × List UInt8)
  | [], s => .ok (draft, s)
  | f :: fields, s =>
    match nextItem (i = 0) s with
    | .error e => .error e
    | .ok (.done _) => .error (.wrongLength i x.titleWithSize)
    | .ok (.more t) =>
      match f.value.run t with
      | .error e => .error e
      | .ok (set, r) => x.elements (i + 1) (set draft) fields r

theorem length_le_of_elements {x : Record σ α} {i : Nat} {draft out : σ} {fields : List (Field σ)}
    {s r : List UInt8} (h : x.elements i draft fields s = .ok (out, r)) : r.length ≤ s.length := by
  induction fields generalizing i draft s with
  | nil => cases h; simp
  | cons f fields ih =>
    unfold elements at h
    split at h
    · contradiction
    · contradiction
    · have := length_le_of_nextItem_more ‹_›
      split at h
      · contradiction
      · have := f.value.shortens ‹_›
        have := ih h
        omega

def valueOf (x : Record σ α) (key : String) : Reader (σ → σ) :=
  match x.fields.find? (·.name = key) with
  | some f => f.value
  | none => skipped.map fun _ => id

def repeats (x : Record σ α) (draft : σ) (key : String) : Bool :=
  x.fields.any fun f => f.name = key && f.isSet draft

def member (x : Record σ α) (draft : σ) (key : String) (s : List UInt8) :
    Except Fault (σ × List UInt8) :=
  if x.repeats draft key then .error (.duplicateField key)
  else do
    let r ← afterColon s
    let (set, r) ← (x.valueOf key).run r
    return (set draft, r)

theorem length_lt_of_member {x : Record σ α} {draft out : σ} {key : String} {s r : List UInt8}
    (h : x.member draft key s = .ok (out, r)) : r.length < s.length := by
  unfold member at h
  split at h
  · contradiction
  · obtain ⟨t, ht, h⟩ := bind_eq_ok.1 h
    obtain ⟨⟨set, u⟩, hu, h⟩ := bind_eq_ok.1 h
    have := length_lt_of_afterColon ht
    have := (x.valueOf key).shortens hu
    cases h
    omega

def members (x : Record σ α) (first : Bool) (draft : σ) (s : List UInt8) :
    Except Fault (σ × List UInt8) :=
  match _hn : nextKey first s with
  | .error e => .error e
  | .ok (.done r) => .ok (draft, r)
  | .ok (.more t) =>
    match _hk : readBody t with
    | .error e => .error e
    | .ok (key, u) =>
      match _hm : x.member draft key u with
      | .error e => .error e
      | .ok (draft, r) => x.members false draft r
termination_by s.length
decreasing_by
  have := length_lt_of_nextKey _hn
  have := length_lt_of_readBody _hk
  have := length_lt_of_member _hm
  simp only [Next.rest] at *
  omega

theorem length_lt_of_members {x : Record σ α} {first : Bool} {draft out : σ} {s r : List UInt8}
    (h : x.members first draft s = .ok (out, r)) : r.length < s.length := by
  fun_induction members x first draft s with
  | case2 first draft s t hn => cases h; exact length_lt_of_nextKey hn
  | case5 first draft s t hn key u hk draft' v hm ih =>
    have := length_lt_of_nextKey hn
    have := length_lt_of_readBody hk
    have := length_lt_of_member hm
    have := ih h
    simp only [Next.rest] at *
    omega
  | _ => contradiction

/-- A record from a list or an object. Fields that are missing are told after the end of the object,
the first in declared order. -/
def read (x : Record σ α) (s : List UInt8) : Except Fault (α × List UInt8) :=
  match skipBlank s with
  | [] => .error .endOfValue
  | b :: r =>
    if b = openList then do
      let (draft, t) ← x.elements 0 x.blank x.fields r
      let a ← x.finish draft
      let t ← endItems t
      return (a, t)
    else if b = openObject then do
      let (draft, t) ← x.members true x.blank r
      let a ← x.finish draft
      return (a, t)
    else .error (mismatch x.title (b :: r))

/-- What a record leaves of a text is shorter, so that readers of records can be nested. -/
theorem length_lt_of_read {x : Record σ α} {a : α} {s r : List UInt8}
    (h : x.read s = .ok (a, r)) : r.length < s.length := by
  unfold read at h
  split at h
  · contradiction
  · have := length_lt_of_skipBlank ‹_›
    split at h
    · obtain ⟨⟨draft, t⟩, ht, h⟩ := bind_eq_ok.1 h
      obtain ⟨b, hb, h⟩ := bind_eq_ok.1 h
      obtain ⟨u, hu, h⟩ := bind_eq_ok.1 h
      have := length_le_of_elements ht
      have := length_lt_of_endItems hu
      cases h
      dsimp only at *
      omega
    · split at h
      · obtain ⟨⟨draft, t⟩, ht, h⟩ := bind_eq_ok.1 h
        obtain ⟨b, hb, h⟩ := bind_eq_ok.1 h
        have := length_lt_of_members ht
        cases h
        dsimp only at *
        omega
      · contradiction

def reader (x : Record σ α) : Reader α := ⟨x.read, length_lt_of_read⟩

end Record

structure Alternative (α : Type) where
  name : String
  bare : Except Fault α
  content : Reader α

def pick {α : Type} (choices : List (Alternative α)) (name : String) :
    Except Fault (Alternative α) :=
  match choices.find? (·.name = name) with
  | some a => .ok a
  | none => .error (.unknownVariant name (choices.map (·.name)))

def onlyKey (s : List UInt8) : Except Fault (String × List UInt8) :=
  match skipBlank s with
  | [] => .error .endOfObject
  | b :: r =>
    if b = quoteMark then readBody r
    else if b = closeObject then .error .expectedValue
    else .error .keyNotString

theorem length_lt_of_onlyKey {s r : List UInt8} {key : String} (h : onlyKey s = .ok (key, r)) :
    r.length < s.length := by
  unfold onlyKey at h
  split at h
  · contradiction
  · have := length_lt_of_skipBlank ‹_›
    split at h
    · have := length_lt_of_readBody h
      omega
    · split at h <;> contradiction

def endChoice (s : List UInt8) : Except Fault (List UInt8) :=
  match skipBlank s with
  | [] => .error .endOfObject
  | b :: r => if b = closeObject then .ok r else .error .expectedValue

theorem length_lt_of_endChoice {s r : List UInt8} (h : endChoice s = .ok r) :
    r.length < s.length := by
  unfold endChoice at h
  split at h
  · contradiction
  · have := length_lt_of_skipBlank ‹_›
    split at h
    · cases h; exact this
    · contradiction

def readChoice {α : Type} (choices : List (Alternative α)) (s : List UInt8) :
    Except Fault (α × List UInt8) :=
  match skipBlank s with
  | [] => .error .endOfValue
  | b :: r =>
    if b = quoteMark then do
      let (name, t) ← readBody r
      let a ← pick choices name
      let v ← a.bare
      return (v, t)
    else if b = openObject then do
      let (name, t) ← onlyKey r
      let a ← pick choices name
      let t ← afterColon t
      let (v, t) ← a.content.run t
      let t ← endChoice t
      return (v, t)
    else .error .expectedValue

/-- The key of an object and its braces are used up, whatever its content is. -/
theorem length_lt_of_readChoice {α : Type} {choices : List (Alternative α)} {a : α}
    {s r : List UInt8} (h : readChoice choices s = .ok (a, r)) : r.length < s.length := by
  unfold readChoice at h
  split at h
  · contradiction
  · have := length_lt_of_skipBlank ‹_›
    split at h
    · obtain ⟨⟨name, t⟩, ht, h⟩ := bind_eq_ok.1 h
      obtain ⟨b, hb, h⟩ := bind_eq_ok.1 h
      obtain ⟨v, hv, h⟩ := bind_eq_ok.1 h
      have := length_lt_of_readBody ht
      cases h
      dsimp only at *
      omega
    · split at h
      · obtain ⟨⟨name, t⟩, ht, h⟩ := bind_eq_ok.1 h
        obtain ⟨b, hb, h⟩ := bind_eq_ok.1 h
        obtain ⟨u, hu, h⟩ := bind_eq_ok.1 h
        obtain ⟨⟨v, w⟩, hw, h⟩ := bind_eq_ok.1 h
        obtain ⟨x, hx, h⟩ := bind_eq_ok.1 h
        have := length_lt_of_onlyKey ht
        have := length_lt_of_afterColon hu
        have := b.content.shortens hw
        have := length_lt_of_endChoice hx
        cases h
        dsimp only at *
        omega
      · contradiction

def choice {α : Type} (choices : List (Alternative α)) : Reader α :=
  ⟨readChoice choices, length_lt_of_readChoice⟩

end ChatRelay.Json
