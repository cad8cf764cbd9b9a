import ChatRelay.Node.State

namespace ChatRelay

def Registry.receive (r : Registry) (m : Message) (sender : Address) : Registry :=
  match m.kind with
  | .connect => r.addClient m.source sender
  | .disconnect => r.removeClient m.source
  | .chat | .privateMessage => r
  | .syncLeft | .syncRight => r.applySync m

def Delivery.targets : Delivery → List Address
  | .broadcast targets => targets
  | .here target => [target]
  | .neighbor _ target => [target]
  | .miss => []

namespace Node

/-- A sync that names another node. It is filed all the same. -/
def isMisaddressed (n : Node) (m : Message) : Bool :=
  m.kind.isSync && m.destination ≠ n.name

def acceptEvents (n : Node) (m : Message) (sender : Address) : List Event :=
  [.received m.kind m.source sender]
    ++ (if n.isMisaddressed m then [.misaddressed m.destination sender] else [])
    ++ (if m.kind = .connect ∨ m.kind = .disconnect then [.session m.source m.kind sender] else [])

/-- Files an accepted message, and queues it unless it is a sync. -/
def accept (m : Message) (sender : Address) (s : State) : State where
  registry := s.registry.receive m sender
  counters := { s.counters with received := s.counters.received + 1 }
  queue := if m.kind.isSync then s.queue else s.queue ++ [m]

def refuse (s : State) : State :=
  { s with counters :=
    { s.counters with
      received := s.counters.received + 1
      malformed := s.counters.malformed + 1 } }

def ingest (n : Node) (sender : Address) (d : List UInt8) (s : State) : State × Output :=
  match Datagram.decode d with
  | .error cause => (refuse s, { log := [.damaged sender cause] })
  | .ok m => (accept m sender s, { log := n.acceptEvents m sender })

def countAttempt (c : Counters) (a : Attempt) : Counters :=
  match a.outcome with
  | .ok () => { c with datagramsSent := c.datagramsSent + 1 }
  | .error _ => { c with sendFailures := c.sendFailures + 1 }

def attemptEvents (a : Attempt) : List Event :=
  match a.outcome with
  | .ok () => []
  | .error reason => [.unsent a.target reason]

/-- Sends one datagram to several targets, each whatever becomes of the others. -/
def sendAll (e : Surroundings) (d : List UInt8) (targets : List Address) (s : State) :
    State × Output :=
  let attempts := targets.map fun target => ⟨target, d, e.send target⟩
  ({ s with counters := attempts.foldl countAttempt s.counters },
    { attempts := attempts, log := attempts.flatMap attemptEvents })

/-- Sends a message where the registry says. A message that no datagram can hold goes nowhere and is
not counted as missed. -/
def relay (e : Surroundings) (m : Message) (s : State) : State × Output :=
  match Datagram.encode m with
  | .error cause => (s, { log := [.unwritable cause] })
  | .ok d =>
    match s.registry.plan m with
    | .miss =>
      ({ s with counters := { s.counters with routingMisses := s.counters.routingMisses + 1 } },
        { log := [.missed m.destination m.source] })
    | .neighbor side target =>
      let (s, o) := sendAll e d [target] s
      (s, { log := [.forwarded m.destination side] } ++ o)
    | delivery => sendAll e d delivery.targets s

def deliver (e : Surroundings) (m : Message) : Output where
  secondary := [m]
  log :=
    match e.secondary.deliver m with
    | .ok () => []
    | .error cause => [.secondaryFailed e.secondary.name cause]

/-- Passes on the message that has waited longest, by datagrams and by the second way out. -/
def dispatch (e : Surroundings) (s : State) : State × Output :=
  match s.queue with
  | [] => (s, {})
  | m :: queue =>
    let (s, o) := relay e m { s with queue := queue }
    (s, o ++ deliver e m)

def findNeighbor (n : Node) (e : Surroundings) (side : Side) (p : Position) (s : State) :
    State × Output :=
  let found := do
    let address ← n.topology.resolve e.lookup p
    match n.topology.name? p with
    | some name => return (⟨name, address⟩ : Connection)
    | none => throw (RelayError.topology (.noNode p))
  match found with
  | .ok c =>
    ({ s with registry := s.registry.setNeighbor side (some c) },
      { log := [.neighborFound side c] })
  | .error cause =>
    ({ s with registry := s.registry.setNeighbor side none },
      { log := [.neighborMissing side cause] })

def rosterDatagram (n : Node) (side : Side) (neighbor : Connection) (r : Registry) :
    Except ProtocolError (List UInt8) := do
  let m ← (Message.sync r.clientIds n.name neighbor.id side.syncKind).mapError .invalid
  Datagram.encode m

def pushRoster (n : Node) (e : Surroundings) (side : Side) (neighbor : Connection) (s : State) :
    State × Output :=
  match n.rosterDatagram side neighbor s.registry with
  | .error cause => (s, { log := [.rosterUnwritable side cause] })
  | .ok d =>
    let attempt : Attempt := ⟨neighbor.address, d, e.send neighbor.address⟩
    let counters := countAttempt s.counters attempt
    match attempt.outcome with
    | .ok () =>
      ({ s with counters := { counters with syncsSent := counters.syncsSent + 1 } },
        { attempts := [attempt] })
    | .error reason =>
      ({ s with counters := counters },
        { attempts := [attempt], log := [.unsynced side neighbor.address reason] })

/-- Looks after one side: a neighbor that is known is told of the clients here, one that is not is
looked for. At the end of the chain there is nothing to do. -/
def syncSide (n : Node) (e : Surroundings) (side : Side) (s : State) : State × Output :=
  match n.topology.neighbor? side n.position with
  | none => (s, {})
  | some p =>
    match s.registry.neighbor side with
    | none => n.findNeighbor e side p s
    | some neighbor => n.pushRoster e side neighbor s

end Node

end ChatRelay
