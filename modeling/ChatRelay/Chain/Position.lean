import ChatRelay.Message.Basic

namespace ChatRelay

/-- The place of a node in its chain; the leftmost is zero. -/
structure Position where
  index : UInt8
deriving DecidableEq, Repr

namespace Position

def left? (p : Position) : Option Position :=
  if p.index = 0 then none else some ⟨p.index - 1⟩

def right? (p : Position) : Option Position :=
  if p.index = 255 then none else some ⟨p.index + 1⟩

def text (p : Position) : String :=
  s!"#{p.index.toNat}"

end Position

inductive Side where
  | left
  | right
deriving DecidableEq, Repr

namespace Side

def both : List Side := [left, right]

def opposite : Side → Side
  | left => right
  | right => left

def label : Side → String
  | left => "left"
  | right => "right"

/-- A sync that a node sends to a side is named for that side. -/
def syncKind : Side → Message.Kind
  | left => .syncLeft
  | right => .syncRight

def next? (s : Side) (p : Position) : Option Position :=
  match s with
  | left => p.left?
  | right => p.right?

end Side

/-- The side that a sync comes from: what travels to the left comes from the right. -/
def Message.Kind.origin? : Message.Kind → Option Side
  | .syncLeft => some .right
  | .syncRight => some .left
  | _ => none

theorem Side.origin?_syncKind (s : Side) : s.syncKind.origin? = some s.opposite := by
  cases s <;> rfl

end ChatRelay
