import ChatRelay.Chain.Resolution

namespace ChatRelay

structure Config where
  position : Position
  topology : Topology
  port : Option UInt16
  bindHost : String
  syncMillis : Nat
  pollMillis : Nat
deriving DecidableEq, Repr

/-- A node that has started: its name and its place in a sound table. -/
structure Node where
  name : String
  position : Position
  topology : Topology
deriving DecidableEq, Repr

namespace Config

def standard : Config where
  position := ⟨0⟩
  topology := .standard
  port := none
  bindHost := "127.0.0.1"
  syncMillis := 250
  pollMillis := 100

def forPosition (t : Topology) (p : Position) : Config :=
  { standard with topology := t, position := p }

def ownNode (c : Config) : Except RelayError NodeAddress :=
  match c.topology.node? c.position with
  | some n => .ok n
  | none => .error (.topology (.outside c.position c.topology.nodes.length))

def listenPort (c : Config) : Except RelayError UInt16 :=
  match c.port with
  | some port => .ok port
  | none => c.ownNode.map (·.port)

/-- No loop waits for less than a millisecond. -/
def pollInterval (c : Config) : Nat :=
  max c.pollMillis 1

/-- Rosters are not pushed more often than the loops look up. -/
def syncInterval (c : Config) : Nat :=
  max c.syncMillis c.pollInterval

/-- Binds the first of some addresses that can be bound, or tells why the last cannot. -/
def bindFirst (bind : Address → Except String Address) : List Address → Except String Address
  | [] => .error "could not resolve to any addresses"
  | a :: rest =>
    match bind a, rest with
    | .ok bound, _ => .ok bound
    | .error reason, [] => .error reason
    | .error _, rest => bindFirst bind rest

def threads (own : NodeAddress) : List String :=
  ["-ingest", "-dispatch", "-sync"].map (own.name ++ ·)

/-- Starts a node in a sound table, if its socket can be bound. `bind` gives the address that the
socket then has. -/
def start (c : Config) (lookup : String → Except String (List Host))
    (bind : Address → Except String Address) : Except Failure (Node × Address) := do
  let topology ← c.topology.checked.mapError (.error ∘ .topology)
  let own ← c.ownNode.mapError .error
  let port ← c.listenPort.mapError .error
  let hosts ← (Host.resolve lookup c.bindHost).mapError (.error ∘ .io)
  let address ← (bindFirst bind (hosts.map (⟨·, port⟩))).mapError (.error ∘ .io)
  (threads own).forM spawn
  return (⟨own.name, c.position, topology⟩, address)

end Config

end ChatRelay
