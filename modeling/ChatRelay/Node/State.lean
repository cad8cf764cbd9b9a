import ChatRelay.Node.Config
import ChatRelay.Node.Log

namespace ChatRelay

structure Counters where
  received : Nat
  malformed : Nat
  datagramsSent : Nat
  sendFailures : Nat
  routingMisses : Nat
  syncsSent : Nat
deriving DecidableEq, Repr

/-- The counters of a node, what it knows of others, and the messages that it has accepted but not
yet dispatched, the oldest first. -/
structure State where
  registry : Registry
  counters : Counters
  queue : List Message
deriving DecidableEq, Repr

def State.initial : State where
  registry := .empty
  counters := ⟨0, 0, 0, 0, 0, 0⟩
  queue := []

/-- A second way out of a node beside its datagrams. -/
structure Transport where
  name : String
  deliver : Message → Except RelayError Unit

/-- Takes every message and does nothing with it. -/
def Transport.idle : Transport := ⟨"bluetooth", fun _ => .ok ()⟩

/-- What surrounds a node: which addresses can be sent to, which hosts stand behind names, and the
second way out. -/
structure Surroundings where
  send : Address → Except String Unit
  lookup : String → Except String (List Host)
  secondary : Transport

structure Attempt where
  target : Address
  datagram : List UInt8
  outcome : Except String Unit

/-- What a node does to its surroundings, each in order. -/
structure Output where
  attempts : List Attempt := []
  secondary : List Message := []
  log : List Event := []

namespace Output

def append (a b : Output) : Output :=
  ⟨a.attempts ++ b.attempts, a.secondary ++ b.secondary, a.log ++ b.log⟩

instance : Append Output := ⟨append⟩

/-- The datagrams that got away, with their targets. -/
def sent (o : Output) : List (Address × List UInt8) :=
  o.attempts.filterMap fun a =>
    match a.outcome with
    | .ok () => some (a.target, a.datagram)
    | .error _ => none

end Output

end ChatRelay
