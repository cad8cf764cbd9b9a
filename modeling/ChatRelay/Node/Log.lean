import ChatRelay.Error
import ChatRelay.Registry

namespace ChatRelay

inductive Level where
  | debug
  | info
  | warn
deriving DecidableEq, Repr

def Level.name : Level → String
  | debug => "DEBUG"
  | info => "INFO"
  | warn => "WARN"

inductive Event where
  | damaged (sender : Address) (cause : ProtocolError)
  | received (kind : Message.Kind) (source : String) (sender : Address)
  | misaddressed (destination : String) (sender : Address)
  | session (client : String) (kind : Message.Kind) (sender : Address)
  | unwritable (cause : ProtocolError)
  | forwarded (destination : String) (side : Side)
  | missed (destination source : String)
  | unsent (target : Address) (reason : String)
  | secondaryFailed (transport : String) (cause : RelayError)
  | neighborFound (side : Side) (neighbor : Connection)
  | neighborMissing (side : Side) (cause : RelayError)
  | unsynced (side : Side) (target : Address) (reason : String)
  | rosterUnwritable (side : Side) (cause : ProtocolError)
deriving DecidableEq, Repr

namespace Event

def level : Event → Level
  | received .. | misaddressed .. | forwarded .. | neighborMissing .. => .debug
  | session .. | neighborFound .. => .info
  | damaged .. | unwritable .. | missed .. | unsent .. | secondaryFailed .. | unsynced ..
  | rosterUnwritable .. => .warn

def message : Event → String
  | damaged .. => "dropping datagram"
  | received .. => "received"
  | misaddressed .. => "roster sync addressed to another node"
  | session .. => "client session"
  | unwritable .. => "cannot re-encode message"
  | forwarded .. => "forwarding to neighbor"
  | missed .. => "message dropped"
  | unsent .. => "relay send failed"
  | secondaryFailed .. => "secondary delivery failed"
  | neighborFound .. => "neighbor connected"
  | neighborMissing .. => "neighbor unresolved, will retry"
  | unsynced .. => "roster sync failed"
  | rosterUnwritable .. => "cannot build roster sync"

def fields : Event → List (String × String)
  | damaged sender cause => [("error", (RelayError.malformedDatagram sender cause).message)]
  | received kind source sender =>
    [("kind", kind.label), ("source", source), ("from", sender.text)]
  | misaddressed destination sender => [("destination", destination), ("from", sender.text)]
  | session client kind sender =>
    [("client", client), ("kind", kind.label), ("from", sender.text)]
  | unwritable cause => [("error", cause.message)]
  | forwarded destination side => [("destination", destination), ("side", side.label)]
  | missed destination source => [("error", (RelayError.noRoute destination source).message)]
  | unsent target reason => [("error", (RelayError.sendFailed target reason).message)]
  | secondaryFailed transport cause => [("transport", transport), ("error", cause.message)]
  | neighborFound side neighbor =>
    [("side", side.label), ("neighbor", neighbor.id), ("endpoint", neighbor.address.text)]
  | neighborMissing side cause => [("side", side.label), ("error", cause.message)]
  | unsynced side target reason =>
    [("side", side.label), ("error", (RelayError.sendFailed target reason).message)]
  | rosterUnwritable side cause => [("side", side.label), ("error", cause.message)]

end Event

end ChatRelay
