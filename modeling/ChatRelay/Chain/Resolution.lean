import ChatRelay.Address.Literal
import ChatRelay.Chain.Json
import ChatRelay.Error

namespace ChatRelay

/-- The addresses that a host stands for. A literal stands for itself; `lookup` is asked for the
names, which hold no zero character. -/
def Host.resolve (lookup : String → Except String (List Host)) (host : String) :
    Except String (List Host) :=
  match Host.ofText? host with
  | some h => .ok [h]
  | none =>
    if '\x00' ∈ host.toList then .error "file name contained an unexpected NUL byte"
    else lookup host

/-- Of several addresses the first one of four octets, else the first of all. -/
def Host.preferred? (hosts : List Host) : Option Host :=
  hosts.find? isV4 <|> hosts.head?

def NodeAddress.locate (row : NodeAddress) (lookup : String → Except String (List Host)) :
    Except RelayError Address := do
  let unreachable := RelayError.neighborUnreachable row.name row.host row.port
  let hosts ← (Host.resolve lookup row.host).mapError unreachable
  match Host.preferred? hosts with
  | some host => return ⟨host, row.port⟩
  | none => throw (unreachable "host resolved to no addresses")

namespace Topology

/-- The sound table that a file holds. `contents` are the octets of the file, or the reason why it
cannot be read. -/
def load (path : String) (contents : Except String (List UInt8)) :
    Except RelayError Topology := do
  let octets ← contents.mapError .io
  if (Text.ofOctets? octets).isNone then throw (.io "stream did not contain valid UTF-8")
  let t ← (ofJson octets).mapError fun fault => .topology (.unreadable path fault)
  t.checked.mapError .topology

/-- The address at which the node of a place listens. -/
def resolve (t : Topology) (lookup : String → Except String (List Host)) (p : Position) :
    Except RelayError Address :=
  match t.node? p with
  | none => .error (.topology (.noNode p))
  | some row => row.locate lookup

end Topology

end ChatRelay
