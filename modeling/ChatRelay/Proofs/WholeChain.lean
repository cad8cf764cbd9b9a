import ChatRelay.Proofs.ClientCalls
import ChatRelay.Proofs.RegistryLaws
import ChatRelay.Proofs.TopologyFaults
import Mathlib.Logic.Function.Basic

namespace ChatRelay

def Topology.node (t : Topology) (p : Position) : Node :=
  ⟨(t.name? p).getD "", p, t⟩

/-- The threads of a node can all be started if the first can. -/
theorem Config.forM_threads (own : NodeAddress) :
    (threads own).forM spawn = spawn (own.name ++ "-ingest") := by
  by_cases hz : '\x00' ∈ own.name.toList
  · change (spawn (own.name ++ "-ingest") >>= _) = _
    rw [spawn_append_of_zero hz]
    rfl
  · have hspawn : ∀ suffix, '\x00' ∉ suffix.toList → spawn (own.name ++ suffix) = .ok () :=
      fun suffix hs => (spawn_append_eq_ok hs).mpr hz
    change (do
      spawn (own.name ++ "-ingest")
      spawn (own.name ++ "-dispatch")
      spawn (own.name ++ "-sync")
      pure ()) = _
    rw [hspawn "-ingest" (by decide), hspawn "-dispatch" (by decide), hspawn "-sync" (by decide)]
    rfl

/-- A node that has started is that of its place in a table without fault. -/
theorem Config.start_eq_ok {c : Config} {lookup : String → Except String (List Host)}
    {bind : Address → Except String Address} {n : Node} {a : Address}
    (h : c.start lookup bind = .ok (n, a)) :
    n = c.topology.node c.position ∧ c.topology.fault? = none ∧
      c.topology.isValid c.position = true ∧ '\x00' ∉ n.name.toList := by
  obtain ⟨t, ht, h⟩ := Json.bind_eq_ok.mp h
  obtain ⟨own, hown, h⟩ := Json.bind_eq_ok.mp h
  obtain ⟨port, _, h⟩ := Json.bind_eq_ok.mp h
  obtain ⟨hosts, _, h⟩ := Json.bind_eq_ok.mp h
  obtain ⟨address, _, h⟩ := Json.bind_eq_ok.mp h
  obtain ⟨_, hthreads, h⟩ := Json.bind_eq_ok.mp h
  cases h
  obtain ⟨hfault, rfl⟩ := Topology.checked_eq_ok.mp (mapError_eq_ok.mp ht)
  unfold Config.ownNode at hown
  split at hown
  · rename_i row hrow
    cases hown
    refine ⟨?_, hfault, ?_⟩
    · unfold Topology.node Topology.name?
      rw [hrow]
      rfl
    · obtain ⟨hlt, _⟩ := List.getElem?_eq_some_iff.mp hrow
      refine ⟨decide_eq_true hlt, ?_⟩
      rw [Config.forM_threads] at hthreads
      exact (spawn_append_eq_ok (by decide)).mp hthreads
  · cases hown

/-- A table and the address at which each of its nodes listens. No two nodes share an address. -/
structure Layout where
  topology : Topology
  home : Position → Address
  apart : ∀ p q, topology.isValid p → topology.isValid q → home p = home q → p = q

namespace Layout

variable (l : Layout)

/-- The names lead to where the nodes listen, if they lead anywhere. -/
def Agrees (lookup : String → Except String (List Host)) : Prop :=
  ∀ p a, l.topology.resolve lookup p = .ok a → a = l.home p

def Outside (a : Address) : Prop :=
  ∀ p, l.topology.isValid p → l.home p ≠ a

end Layout

/-- A datagram on its way. The trail are the nodes that have passed its message on to a neighbor,
the last first. -/
structure Parcel where
  sender : Address
  target : Address
  datagram : List UInt8
  trail : List Position
deriving DecidableEq, Repr

/-- A node of a chain, and the trail of each message that waits there. -/
structure Station where
  state : State
  trails : List (List Position)
deriving DecidableEq, Repr

/-- The nodes, the datagrams on their way, and who has had a session where so far. A datagram may
come late, before others that were sent earlier, or never. -/
structure Chain where
  stations : Position → Station
  transit : List Parcel
  registered : List (Position × String)

/-- What happens in a chain: a client sends a message to a node, a datagram comes to a node, a
datagram reaches a client or is lost, and a node passes on what has waited longest or looks after a
side. -/
inductive Move where
  | post (client : Address) (p : Position) (m : Message)
  | arrive (k : Nat) (p : Position)
  | lose (k : Nat)
  | dispatch (p : Position) (e : Surroundings)
  | look (p : Position) (side : Side) (e : Surroundings)

/-- A client comes with this message, or is asked to send it. -/
def Message.OfClient (m : Message) : Prop :=
  ∃ username, Message.connect username = .ok m ∨
    ∃ x : ChatClient.Call, x.message username = .ok m

/-- Clients are no nodes and send what clients send, only nodes of the table do anything, and names
lead where the nodes are. -/
def Move.Legal (l : Layout) : Move → Prop
  | .post client p m => l.topology.isValid p ∧ l.Outside client ∧ m.OfClient
  | .arrive _ _ | .lose _ => True
  | .dispatch p _ => l.topology.isValid p
  | .look p _ e => l.topology.isValid p ∧ l.Agrees e.lookup

def Registry.passesOn (r : Registry) (m : Message) : Bool :=
  match r.plan m with
  | .neighbor _ _ => true
  | _ => false

theorem Registry.passesOn_eq_true {r : Registry} {m : Message} :
    r.passesOn m = true ↔ ∃ side target, r.plan m = .neighbor side target := by
  unfold passesOn
  cases r.plan m <;> simp

namespace Chain

def initial : Chain := ⟨fun _ => ⟨.initial, []⟩, [], []⟩

def nextTrail (c : Chain) (p : Position) : List Position :=
  let s := c.stations p
  match s.state.queue with
  | [] => []
  | m :: _ =>
    if s.state.registry.passesOn m then p :: s.trails.headD [] else s.trails.headD []

theorem nextTrail_eq {c : Chain} {p : Position} {m : Message} {queue : List Message}
    {trail : List Position} {trails : List (List Position)}
    (hq : (c.stations p).state.queue = m :: queue) (ht : (c.stations p).trails = trail :: trails) :
    c.nextTrail p =
      if (c.stations p).state.registry.passesOn m then p :: trail else trail := by
  unfold nextTrail
  dsimp only
  rw [hq, ht]
  rfl

/-- A node has made a step, and what it sent is on its way. -/
def advance (l : Layout) (c : Chain) (p : Position) (trails : List (List Position))
    (trail : List Position) (next : State × Output) : Chain where
  stations := Function.update c.stations p ⟨next.1, trails⟩
  transit := c.transit ++ next.2.sent.map fun x => ⟨l.home p, x.1, x.2, trail⟩
  registered := c.registered ++ next.1.registry.clientIds.map fun x => (p, x)

theorem stations_advance_self (l : Layout) (c : Chain) (p : Position)
    (trails : List (List Position)) (trail : List Position) (next : State × Output) :
    (c.advance l p trails trail next).stations p = ⟨next.1, trails⟩ :=
  Function.update_self ..

theorem stations_advance_of_ne (l : Layout) (c : Chain) {p q : Position} (h : q ≠ p)
    (trails : List (List Position)) (trail : List Position) (next : State × Output) :
    (c.advance l p trails trail next).stations q = c.stations q :=
  Function.update_of_ne h ..

/-- A node takes a datagram in. If its message has to wait, its trail waits with it. -/
def take (l : Layout) (c : Chain) (p : Position) (x : Parcel) : Chain :=
  let s := c.stations p
  let next := (l.topology.node p).ingest x.sender x.datagram s.state
  let waiting := next.1.queue.length - s.state.queue.length
  c.advance l p (s.trails ++ List.replicate waiting x.trail) [] next

def step (l : Layout) (c : Chain) : Move → Chain
  | .post client p m =>
    match Datagram.encode m with
    | .ok d => { c with transit := c.transit ++ [⟨client, l.home p, d, []⟩] }
    | .error _ => c
  | .arrive k p =>
    match c.transit[k]? with
    | some x =>
      if l.topology.isValid p ∧ x.target = l.home p then
        { c with transit := c.transit.eraseIdx k }.take l p x
      else c
    | none => c
  | .lose k => { c with transit := c.transit.eraseIdx k }
  | .dispatch p e =>
    let s := c.stations p
    c.advance l p s.trails.tail (c.nextTrail p) (Node.dispatch e s.state)
  | .look p side e =>
    let s := c.stations p
    c.advance l p s.trails [] ((l.topology.node p).syncSide e side s.state)

/-- A datagram comes only to the node that listens at its target. -/
theorem step_arrive_eq {l : Layout} {c : Chain} {k : Nat} {p : Position} {x : Parcel}
    (hk : c.transit[k]? = some x) (hp : l.topology.isValid p = true)
    (hx : x.target = l.home p) :
    c.step l (.arrive k p) = Chain.take l { c with transit := c.transit.eraseIdx k } p x := by
  unfold step
  dsimp only
  rw [hk]
  exact if_pos ⟨hp, hx⟩

def run (l : Layout) (c : Chain) (moves : List Move) : Chain :=
  moves.foldl (step l) c

theorem run_append (l : Layout) (c : Chain) (moves moves' : List Move) :
    c.run l (moves ++ moves') = (c.run l moves).run l moves' :=
  List.foldl_append

/-- A message that is on its way, or waits at a node, with its trail. -/
def Bears (c : Chain) (m : Message) (trail : List Position) : Prop :=
  (∃ x ∈ c.transit, Datagram.decode x.datagram = .ok m ∧ x.trail = trail) ∨
    ∃ p, (m, trail) ∈ (c.stations p).state.queue.zip (c.stations p).trails

/-- Such a message at a node, or on its way to it. -/
def BearsTo (l : Layout) (c : Chain) (m : Message) (trail : List Position) (p : Position) : Prop :=
  l.topology.isValid p ∧
    ((∃ x ∈ c.transit, x.target = l.home p ∧ Datagram.decode x.datagram = .ok m ∧
        x.trail = trail) ∨
      (m, trail) ∈ (c.stations p).state.queue.zip (c.stations p).trails)

end Chain

end ChatRelay
