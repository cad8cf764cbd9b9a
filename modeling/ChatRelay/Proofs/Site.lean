import ChatRelay.Client
import ChatRelay.Proofs.Relaying

namespace ChatRelay

structure Member where
  address : Address
  client : ChatClient
deriving DecidableEq, Repr

def Member.username (c : Member) : String :=
  c.client.username

/-- The client gets, in order, those datagrams that are sent to its address. -/
def Member.take (sent : List (Address × List UInt8)) (c : Member) : Member :=
  { c with client :=
    (sent.filter (·.1 = c.address)).foldl (fun client d => client.receive d.2) c.client }

/-- A node and the clients that have connected to it. Each datagram for the node is dealt with
before anything else happens, and what the node then sends reaches the clients at once. -/
structure Site where
  state : State
  members : List Member
deriving DecidableEq, Repr

namespace Site

/-- A node that has just started, without clients. -/
def initial : Site := ⟨.initial, []⟩

/-- What can happen at a site: a client connects from an address, a client is asked to send, a
datagram comes from elsewhere, and the node looks after a side, with what is then known of names. -/
inductive Action where
  | join (address : Address) (username : String)
  | call (username : String) (call : ChatClient.Call)
  | hear (sender : Address) (datagram : List UInt8)
  | look (side : Side) (lookup : String → Except String (List Host))

def Action.guest? : Action → Option (Address × String)
  | join address username => some (address, username)
  | _ => none

def member? (s : Site) (username : String) : Option Member :=
  s.members.find? (·.username = username)

/-- The clients take what the node has sent. -/
def settle (s : Site) (next : State × Output) : Site :=
  ⟨next.1, s.members.map (·.take next.2.sent)⟩

def serve (n : Node) (e : Surroundings) (sender : Address) (d : List UInt8) (s : Site) : Site :=
  s.settle (n.handle e sender d s.state)

/-- The client of a name after a call of its own. -/
def replace (s : Site) (username : String) (client : ChatClient) : Site :=
  { s with members := s.members.map fun c =>
    if c.username = username then { c with client := client } else c }

/-- A site after an action, and the message of the action if it was one of a client and did not
fail. A client listens from the moment that it connects, and is what its call has made of it. `home`
is the address of the node. -/
def step (n : Node) (e : Surroundings) (home : Address) (s : Site) :
    Action → Site × Option Message
  | .join address username =>
    match Message.connect username, ChatClient.connect e.send home username with
    | .ok m, .ok (client, d) =>
      (serve n e address d { s with members := s.members ++ [⟨address, client⟩] }, some m)
    | _, _ => (s, none)
  | .call username x =>
    match s.member? username with
    | none => (s, none)
    | some c =>
      match x.message username, c.client.call e.send x with
      | .ok m, (.ok d, client) => (serve n e c.address d (s.replace username client), some m)
      | _, (_, client) => (s.replace username client, none)
  | .hear sender d => (serve n e sender d s, none)
  | .look side lookup => (s.settle (n.syncSide { e with lookup := lookup } side s.state), none)

/-- The actions one after the other, and the messages of the calls that did not fail. -/
def run (n : Node) (e : Surroundings) (home : Address) (s : Site) :
    List Action → Site × List Message
  | [] => (s, [])
  | x :: xs =>
    let (s, m) := step n e home s x
    let (s, ms) := run n e home s xs
    (s, m.toList ++ ms)

end Site

namespace Message

/-- Whether a message is meant for a client. -/
def isFor (m : Message) (x : String) : Bool :=
  if m.isBroadcast then m.source ≠ x else m.destination = x

def joins (x : String) (m : Message) : Bool :=
  m.kind = .connect ∧ m.source = x

def leaves (x : String) (m : Message) : Bool :=
  m.kind = .disconnect ∧ m.source = x

end Message

/-- The messages after a client has come and before it goes for the first time. -/
def attended (x : String) (ms : List Message) : List Message :=
  ((ms.dropWhile fun m => !m.joins x).drop 1).takeWhile fun m => !m.leaves x

end ChatRelay
