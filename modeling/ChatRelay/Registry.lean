import ChatRelay.Address.Basic
import ChatRelay.Chain.Position

namespace ChatRelay

/-- Someone who can be sent to directly. -/
structure Connection where
  id : String
  address : Address
deriving DecidableEq, Repr

/-- What a node knows of one side: the clients that the neighbor last told of, and the neighbor
itself once it has been found. -/
structure Flank where
  roster : List String
  neighbor : Option Connection
deriving DecidableEq, Repr

/-- The sessions of clients in order of arrival, and both sides. -/
structure Registry where
  clients : List Connection
  left : Flank
  right : Flank
deriving DecidableEq, Repr

inductive Delivery where
  | broadcast (targets : List Address)
  | here (target : Address)
  | neighbor (side : Side) (target : Address)
  | miss
deriving DecidableEq, Repr

namespace Registry

def empty : Registry := ⟨[], ⟨[], none⟩, ⟨[], none⟩⟩

def flank (r : Registry) : Side → Flank
  | .left => r.left
  | .right => r.right

def setFlank (r : Registry) (s : Side) (f : Flank) : Registry :=
  match s with
  | .left => { r with left := f }
  | .right => { r with right := f }

@[simp] theorem flank_setFlank (r : Registry) (s : Side) (f : Flank) :
    (r.setFlank s f).flank s = f := by
  cases s <;> rfl

@[simp] theorem flank_setFlank_opposite (r : Registry) (s : Side) (f : Flank) :
    (r.setFlank s f).flank s.opposite = r.flank s.opposite := by
  cases s <;> rfl

@[simp] theorem clients_setFlank (r : Registry) (s : Side) (f : Flank) :
    (r.setFlank s f).clients = r.clients := by
  cases s <;> rfl

def roster (r : Registry) (s : Side) : List String :=
  (r.flank s).roster

def neighbor (r : Registry) (s : Side) : Option Connection :=
  (r.flank s).neighbor

def clientIds (r : Registry) : List String :=
  r.clients.map (·.id)

/-- A new session stands behind all others, also behind those of the same client. -/
def addClient (r : Registry) (id : String) (address : Address) : Registry :=
  { r with clients := r.clients ++ [⟨id, address⟩] }

def session? (r : Registry) (id : String) : Option Connection :=
  r.clients.find? (·.id = id)

def removeClient (r : Registry) (id : String) : Registry :=
  { r with clients := r.clients.eraseP (·.id = id) }

/-- A new roster replaces the old one as a whole. -/
def setRoster (r : Registry) (s : Side) (ids : List String) : Registry :=
  r.setFlank s { r.flank s with roster := ids }

def setNeighbor (r : Registry) (s : Side) (neighbor : Option Connection) : Registry :=
  r.setFlank s { r.flank s with neighbor := neighbor }

/-- Files the roster of a sync under the side that it comes from. Messages of other kinds change
nothing. -/
def applySync (r : Registry) (m : Message) : Registry :=
  match m.kind.origin?, m.roster? with
  | some side, some ids => r.setRoster side ids
  | _, _ => r

/-- The neighbor on a side, if it told of the client. -/
def through? (r : Registry) (s : Side) (id : String) : Option Delivery :=
  match r.neighbor s with
  | some n => if id ∈ r.roster s then some (.neighbor s n.address) else none
  | none => none

/-- A broadcast goes to every session here but those of the sender. Any other message goes to the
oldest session of its destination here, else to the left neighbor and else to the right one if they
told of the destination. -/
def plan (r : Registry) (m : Message) : Delivery :=
  if m.isBroadcast then
    .broadcast ((r.clients.filter (·.id ≠ m.source)).map (·.address))
  else
    match r.session? m.destination with
    | some c => .here c.address
    | none =>
      (r.through? .left m.destination <|> r.through? .right m.destination).getD .miss

end Registry

structure NotASync where
  kind : Message.Kind
deriving DecidableEq, Repr

def NotASync.message (e : NotASync) : String :=
  s!"apply_sync called with {e.kind.label} message"

/-- The registry after a sync and the side that its roster was filed under. A sync without a roster
is filed under none. -/
def Registry.fileSync (r : Registry) (m : Message) : Except NotASync (Option Side × Registry) :=
  match m.kind.origin? with
  | none => .error ⟨m.kind⟩
  | some side => .ok (m.roster?.map fun _ => side, r.applySync m)

end ChatRelay
