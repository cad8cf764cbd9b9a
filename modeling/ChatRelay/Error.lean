import ChatRelay.Address.Basic
import ChatRelay.Chain.Topology
import ChatRelay.Datagram

namespace ChatRelay

/-- What can go wrong at a node. None of it stops a running node; only starting one can fail. -/
inductive RelayError where
  | malformedDatagram (sender : Address) (cause : ProtocolError)
  | sendFailed (target : Address) (reason : String)
  | neighborUnreachable (name host : String) (port : UInt16) (reason : String)
  | noRoute (destination source : String)
  | topology (fault : TopologyFault)
  | protocol (cause : ProtocolError)
  | io (reason : String)
deriving DecidableEq, Repr

namespace RelayError

def message : RelayError → String
  | malformedDatagram sender cause => s!"malformed datagram from {sender.text}: {cause.message}"
  | sendFailed target reason => s!"send to {target.text} failed: {reason}"
  | neighborUnreachable name host port reason =>
    s!"neighbor {name} at {host}:{port.toNat} unreachable: {reason}"
  | noRoute destination source => s!"no route to {destination} (message from {source} dropped)"
  | topology fault => s!"topology error: {fault.reason}"
  | protocol cause => s!"protocol error: {cause.message}"
  | io reason => s!"I/O error: {reason}"

def cause? : RelayError → Option String
  | malformedDatagram _ cause => some cause.message
  | sendFailed _ reason => some reason
  | protocol cause => some cause.message
  | io reason => some reason
  | neighborUnreachable .. | noRoute .. | topology _ => none

end RelayError

/-- What ends a program instead of being answered: a thread was to be called by a name that holds a
zero character. -/
structure Panic where
  name : String
deriving DecidableEq, Repr

def Panic.message (p : Panic) : String :=
  let octets := Text.octets p.name
  s!"thread name may not contain interior null bytes: NulError({octets.idxOf 0}, "
    ++ "[" ++ ", ".intercalate (octets.map fun b => toString b.toNat) ++ "])"

inductive Failure where
  | error (cause : RelayError)
  | panic (cause : Panic)
deriving DecidableEq, Repr

/-- Starts a thread under a name. -/
def spawn (name : String) : Except Failure Unit :=
  if '\x00' ∈ name.toList then .error (.panic ⟨name⟩) else .ok ()

end ChatRelay
