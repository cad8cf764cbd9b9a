import ChatRelay.Text.Octets

namespace ChatRelay.Text

/-- The part of a control sequence that comes next. -/
inductive Sequence where
  | escape
  | intermediate
  | control
  | command
  | device
  | deviceParameters
  | deviceIntermediate
  | payload
deriving DecidableEq, Repr

namespace Sequence

def payloadEnd : UInt8 := 0x9C

/-- What comes after a character, unless it ends the sequence. Characters without a meaning at their
place are passed over. -/
def next? (c : Char) : Sequence → Option Sequence
  | escape =>
    if c = '[' then some control
    else if c = ']' then some command
    else if c = 'P' then some device
    else if c = 'X' ∨ c = '^' ∨ c = '_' then some payload
    else if ' ' ≤ c ∧ c ≤ '/' then some intermediate
    else if '0' ≤ c ∧ c ≤ '~' then none
    else some escape
  | intermediate => if '0' ≤ c ∧ c ≤ '~' then none else some intermediate
  | control => if '@' ≤ c ∧ c ≤ '~' then none else some control
  | command => if c = '\x07' then none else some command
  | device =>
    if ' ' ≤ c ∧ c ≤ '/' then some deviceIntermediate
    else if '0' ≤ c ∧ c ≤ '?' then some deviceParameters
    else if '@' ≤ c ∧ c ≤ '~' then some payload
    else some device
  | deviceParameters =>
    if ' ' ≤ c ∧ c ≤ '/' then some deviceIntermediate
    else if '<' ≤ c ∧ c ≤ '~' then some payload
    else some deviceParameters
  | deviceIntermediate => if '0' ≤ c ∧ c ≤ '~' then some payload else some deviceIntermediate
  | payload => if payloadEnd ∈ octets (String.singleton c) then none else some payload

/-- Whether controls of layout inside the sequence still count as such. -/
def keepsLayout : Sequence → Bool
  | escape | intermediate | control => true
  | _ => false

end Sequence

def isLayout (c : Char) : Bool :=
  c = '\t' || c = '\n' || c = '\x0c' || c = '\r'

def isShown (c : Char) : Bool :=
  isLayout c || (' ' ≤ c && c ≠ '\x7f')

/-- Where a text has been read up to. After a control of layout inside a sequence, ASCII characters
are shown until another control goes on with the sequence; a character beyond ASCII ends it. -/
inductive Place where
  | outside
  | inside (s : Sequence)
  | paused (s : Sequence)
deriving DecidableEq, Repr

/-- The place after a character, and whether the character is shown. An escape always begins a
sequence anew, and the controls for cancelling and substituting end it. -/
def Place.step (p : Place) (c : Char) : Place × Bool :=
  if c = '\x1b' then (inside .escape, false)
  else if c = '\x18' ∨ c = '\x1a' then (outside, false)
  else
    match p with
    | outside => (outside, isShown c)
    | inside s =>
      if s.keepsLayout && isLayout c then (paused s, true)
      else
        match s.next? c with
        | some s => (inside s, false)
        | none => (outside, false)
    | paused s =>
      if isShown c then (if c ≤ '\x7f' then paused s else outside, true) else (inside s, false)

def shown (p : Place) : List Char → List Char
  | [] => []
  | c :: cs =>
    let (p, shows) := p.step c
    if shows then c :: shown p cs else shown p cs

/-- A text without its control sequences and without control characters other than those of
layout. -/
def plain (s : String) : String :=
  String.ofList (shown .outside s.toList)

theorem step_outside_of_isShown {c : Char} (h : isShown c) :
    Place.outside.step c = (.outside, true) := by
  have hc : ¬ (c = '\x1b' ∨ c = '\x18' ∨ c = '\x1a') := by
    rintro (rfl | rfl | rfl) <;> contradiction
  grind [Place.step]

theorem shown_eq_self {cs : List Char} (h : ∀ c ∈ cs, isShown c) : shown .outside cs = cs := by
  induction cs with
  | nil => rfl
  | cons c cs ih =>
    simp [shown, step_outside_of_isShown (h c (by simp)), ih fun d hd => h d (by simp [hd])]

theorem plain_eq_self {s : String} (h : ∀ c ∈ s.toList, isShown c) : plain s = s := by
  simp [plain, shown_eq_self h]

end ChatRelay.Text
