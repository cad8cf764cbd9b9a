import ChatRelay.Chain.Position
import ChatRelay.Json.Fault
import ChatRelay.Text.Quoted

namespace ChatRelay

/-- A row of the table: where a node listens. -/
structure NodeAddress where
  name : String
  host : String
  port : UInt16
deriving DecidableEq, Repr

def NodeAddress.text (n : NodeAddress) : String :=
  "NodeAddress \x7b name: " ++ Text.quoted n.name ++ ", host: " ++ Text.quoted n.host
    ++ ", port: " ++ toString n.port.toNat ++ " \x7d"

/-- What is wrong with a table or with a place in it. `other` is any further reason, in the words of
who finds it. -/
inductive TopologyFault where
  | empty
  | tooLong (length : Nat)
  | unnamed (node : NodeAddress)
  | repeated (name : String)
  | unreadable (path : String) (fault : Json.Fault)
  | noNode (position : Position)
  | outside (position : Position) (length : Nat)
  | other (reason : String)
deriving DecidableEq, Repr

/-- The nodes of a chain from left to right. -/
structure Topology where
  nodes : List NodeAddress
deriving DecidableEq, Repr

namespace Topology

def maxLength : Nat := 256

/-- The first row that has no name or host, or repeats the name of a row before it. `seen` are the
names of the rows before. -/
def rowFault? (seen : List String) : List NodeAddress → Option TopologyFault
  | [] => none
  | n :: nodes =>
    if n.name = "" ∨ n.host = "" then some (.unnamed n)
    else if n.name ∈ seen then some (.repeated n.name)
    else rowFault? (n.name :: seen) nodes

/-- The first thing that is wrong with a table. -/
def fault? (t : Topology) : Option TopologyFault :=
  if t.nodes = [] then some .empty
  else if maxLength < t.nodes.length then some (.tooLong t.nodes.length)
  else rowFault? [] t.nodes

def checked (t : Topology) : Except TopologyFault Topology :=
  match t.fault? with
  | none => .ok t
  | some fault => .error fault

/-- Three nodes on one machine. -/
def standard : Topology :=
  ⟨[⟨"left", "127.0.0.1", 8080⟩, ⟨"middle", "127.0.0.1", 8081⟩, ⟨"right", "127.0.0.1", 8082⟩]⟩

def isValid (t : Topology) (p : Position) : Bool :=
  p.index.toNat < t.nodes.length

def node? (t : Topology) (p : Position) : Option NodeAddress :=
  t.nodes[p.index.toNat]?

def name? (t : Topology) (p : Position) : Option String :=
  (t.node? p).map (·.name)

/-- The place of the neighbor on a side; at the ends of the chain there is none. -/
def neighbor? (t : Topology) (s : Side) (p : Position) : Option Position :=
  (s.next? p).filter t.isValid

def left? (t : Topology) (p : Position) : Option Position :=
  t.neighbor? .left p

def right? (t : Topology) (p : Position) : Option Position :=
  t.neighbor? .right p

end Topology

def TopologyFault.reason : TopologyFault → String
  | empty => "chain has no nodes"
  | tooLong length => s!"chain has {length} nodes (max {Topology.maxLength})"
  | unnamed node => s!"node entry with empty name or host: {node.text}"
  | repeated name => s!"duplicate node name {Text.quoted name}"
  | unreadable path fault => s!"{path}: {fault.message}"
  | noNode position => s!"no node at position {position.text}"
  | outside position length => s!"position {position.text} is outside a chain of {length} nodes"
  | other reason => reason

end ChatRelay
