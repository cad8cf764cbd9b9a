import ChatRelay.Chain.Topology
import ChatRelay.Json.Record
import ChatRelay.Json.Writer

namespace ChatRelay

open Json

def Position.json (p : Position) : List UInt8 :=
  writeNatural p.index.toNat

def Position.reader : Reader Position :=
  (natural 255 "u8").map fun n => ⟨UInt8.ofNat n⟩

namespace NodeAddress

def json (n : NodeAddress) : List UInt8 :=
  writeObject [
    writeMember "name" (writeString n.name),
    writeMember "host" (writeString n.host),
    writeMember "port" (writeNatural n.port.toNat)]

structure Draft where
  name : Option String
  host : Option String
  port : Option UInt16

def Draft.finish (d : Draft) : Except Fault NodeAddress := do
  let name ← required "name" d.name
  let host ← required "host" d.host
  let port ← required "port" d.port
  return ⟨name, host, port⟩

def record : Record Draft NodeAddress where
  name := "NodeAddress"
  blank := ⟨none, none, none⟩
  fields := [
    ⟨"name", (·.name.isSome), string.map fun s d => { d with name := some s }⟩,
    ⟨"host", (·.host.isSome), string.map fun s d => { d with host := some s }⟩,
    ⟨"port", (·.port.isSome),
      (natural 65535 "u16").map fun n d => { d with port := some (UInt16.ofNat n) }⟩]
  finish := Draft.finish

def reader : Reader NodeAddress := record.reader

end NodeAddress

namespace Topology

def json (t : Topology) : List UInt8 :=
  writeObject [writeMember "nodes" (writeList (t.nodes.map NodeAddress.json))]

def record : Record (Option (List NodeAddress)) Topology where
  name := "ChainTopology"
  blank := none
  fields := [⟨"nodes", (·.isSome), (list NodeAddress.reader).map fun nodes _ => some nodes⟩]
  finish d := (required "nodes" d).map Topology.mk

def reader : Reader Topology := record.reader

/-- The table that a whole text holds, whether it is sound or not. -/
def ofJson (s : List UInt8) : Except Fault Topology :=
  reader.whole s

end Topology

end ChatRelay
