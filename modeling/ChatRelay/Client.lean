import ChatRelay.Error

namespace ChatRelay

/-- A client, the number of messages it has sent, and those it has got, the oldest first. -/
structure ChatClient where
  server : Address
  username : String
  sent : Nat
  inbox : List Message
deriving DecidableEq, Repr

namespace ChatClient

/-- What a client can be asked to send. -/
inductive Call where
  | chat (text : String)
  | privately (destination text : String)
  | disconnect
deriving DecidableEq, Repr

def Call.message (username : String) : Call → Except Message.Flaw Message
  | chat text => Message.chat username text
  | privately destination text => Message.privately username destination text
  | disconnect => Message.disconnect username

/-- Sends a message, if it can be built and one datagram can hold it, and answers the datagram. Only
what got away counts. -/
def post (send : Address → Except String Unit) (m : Except Message.Flaw Message) (c : ChatClient) :
    Except RelayError (List UInt8) × ChatClient :=
  match m with
  | .error flaw => (.error (.protocol (.invalid flaw)), c)
  | .ok m =>
    match Datagram.encode m with
    | .error cause => (.error (.protocol cause), c)
    | .ok d =>
      match send c.server with
      | .error reason => (.error (.sendFailed c.server reason), c)
      | .ok () => (.ok d, { c with sent := c.sent + 1 })

/-- Registers with the node at an address. What comes in is read by a thread that has the name of
the client. -/
def connect (send : Address → Except String Unit) (server : Address) (username : String) :
    Except Failure (ChatClient × List UInt8) := do
  spawn (username ++ "-reader")
  match post send (Message.connect username) ⟨server, username, 0, []⟩ with
  | (.ok d, c) => return (c, d)
  | (.error cause, _) => throw (.error cause)

def call (send : Address → Except String Unit) (x : Call) (c : ChatClient) :
    Except RelayError (List UInt8) × ChatClient :=
  c.post send (x.message c.username)

/-- Keeps the message of a datagram. A damaged datagram leaves no trace. -/
def receive (d : List UInt8) (c : ChatClient) : ChatClient :=
  match Datagram.decode d with
  | .ok m => { c with inbox := c.inbox ++ [m] }
  | .error _ => c

def poll (c : ChatClient) : List Message × ChatClient :=
  (c.inbox, { c with inbox := [] })

end ChatClient

end ChatRelay
