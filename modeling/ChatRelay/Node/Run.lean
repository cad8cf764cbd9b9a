import ChatRelay.Node.Step

namespace ChatRelay

inductive Step where
  | ingest (sender : Address) (datagram : List UInt8)
  | dispatch
  | sync (side : Side)
deriving DecidableEq, Repr

namespace Node

def step (n : Node) (e : Surroundings) (s : State) : Step → State × Output
  | .ingest sender d => n.ingest sender d s
  | .dispatch => dispatch e s
  | .sync side => n.syncSide e side s

def run (n : Node) (e : Surroundings) (s : State) : List Step → State × Output
  | [] => (s, {})
  | x :: xs =>
    let (s, o) := n.step e s x
    let (s, p) := n.run e s xs
    (s, o ++ p)

def tick (n : Node) (e : Surroundings) (s : State) : State × Output :=
  n.run e s (Side.both.map .sync)

def drain (n : Node) (e : Surroundings) (s : State) : State × Output :=
  n.run e s (List.replicate s.queue.length .dispatch)

/-- Takes a datagram in and passes on what waits before anything else is done. -/
def handle (n : Node) (e : Surroundings) (sender : Address) (d : List UInt8) (s : State) :
    State × Output :=
  let (s, o) := n.ingest sender d s
  let (s, p) := n.drain e s
  (s, o ++ p)

end Node

end ChatRelay
