import ChatRelay.CommandLine
import ChatRelay.Node.Run
import Std.Async.DNS
import Std.Async.Timer
import Std.Async.UDP

namespace ChatRelay.Relay

open Std.Async

def toSocketAddress (a : Address) : Std.Net.SocketAddress :=
  match a.host with
  | .v4 b c d e => .v4 ⟨⟨#v[b, c, d, e]⟩, a.port⟩
  | .v6 groups => .v6 ⟨⟨groups⟩, a.port⟩

def ofSocketAddress : Std.Net.SocketAddress → Address
  | .v4 a => ⟨.v4 a.addr.octets[0] a.addr.octets[1] a.addr.octets[2] a.addr.octets[3], a.port⟩
  | .v6 a => ⟨.v6 a.addr.segments, a.port⟩

def ofIPAddress : Std.Net.IPAddr → Host
  | .v4 a => .v4 a.octets[0] a.octets[1] a.octets[2] a.octets[3]
  | .v6 a => .v6 a.segments

def attempt {α : Type} (act : IO α) : IO (Except String α) := do
  try
    return .ok (← act)
  catch e =>
    return .error (toString e)

/-- The names among some hosts, with what the system says of them. -/
def lookupNames (hosts : List String) : IO (String → Except String (List Host)) := do
  let names := hosts.filter fun h => (Host.ofText? h).isNone ∧ '\x00' ∉ h.toList
  let found ← names.mapM fun name => do
    let answer ← attempt (DNS.getAddrInfo name "").block
    return (name, answer.map (·.toList.map ofIPAddress))
  return fun name => (found.lookup name).getD (.error "name was not looked up")

def say (line : String) : IO Unit := do
  IO.println line
  (← IO.getStdout).flush

def report (e : Event) : IO Unit := do
  if e.level ≠ .debug then
    let fields := e.fields.map fun (k, v) => " " ++ k ++ "=" ++ v
    say (e.level.name ++ " " ++ e.message ++ String.join fields)

def octets (bs : List UInt8) : ByteArray := ⟨bs.toArray⟩

def perform (socket : UDP.Socket) (lookup : String → Except String (List Host))
    (step : Surroundings → State → State × Output) (s : State) : IO State := do
  let hoped : Surroundings := ⟨fun _ => .ok (), lookup, .idle⟩
  let outcomes ← (step hoped s).2.attempts.mapM fun a => do
    let target := toSocketAddress a.target
    return (a.target, ← attempt (socket.send (octets a.datagram) (some target)).block)
  let seen : Surroundings :=
    { hoped with send := fun a => (outcomes.lookup a).getD (.ok ()) }
  let (s, o) := step seen s
  o.log.forM report
  return s

/-- The next datagram, if one comes within some milliseconds. -/
def receive (socket : UDP.Socket) (millis : Nat) :
    IO (Option (ByteArray × Option Std.Net.SocketAddress)) :=
  Async.block do
    Selectable.one #[
      .case (socket.recvSelector (UInt64.ofNat Datagram.maxLength)) fun d => return some d,
      .case (← Selector.sleep (Std.Time.Millisecond.Offset.ofNat millis)) fun _ => return none]

def neighborHosts (n : Node) : List String :=
  Side.both.filterMap fun side =>
    ((n.topology.neighbor? side n.position).bind n.topology.node?).map (·.host)

/-- Runs a node until the process ends. -/
partial def serve (n : Node) (c : Config) (socket : UDP.Socket) (due : Nat) (s : State) :
    IO Unit := do
  let now ← IO.monoMsNow
  if due ≤ now then
    let lookup ← lookupNames (neighborHosts n)
    let s ← perform socket lookup n.tick s
    serve n c socket (now + c.syncInterval) s
  else
    match ← attempt (receive socket (min c.pollInterval (due - now))) with
    | .ok (some (d, some sender)) =>
      let lookup ← lookupNames []
      let s ← perform socket lookup
        (fun e => n.handle e (ofSocketAddress sender) d.data.toList) s
      serve n c socket due s
    | _ => serve n c socket due s

def readTable (o : CommandLine.Options) : IO (Except String (List UInt8)) := do
  match o.topology with
  | none => return .ok []
  | some path => return (← attempt (IO.FS.readBinFile path)).map (·.data.toList)

/-- Says what came of a command that does not go on to run a node. -/
def conclude (x : CommandLine.Outcome) : IO UInt32 := do
  x.errors.forM fun e => say ("ERROR " ++ e)
  if x.complaint ≠ "" then
    IO.eprintln (x.complaint ++ "\n\nFor more information, try '--help'.")
  return ((x.exitCode?).getD 0).toUInt32

/-- Starts the node that the options describe, and runs it. The addresses that have been refused are
not tried again. -/
partial def start (o : CommandLine.Options) (file : Except String (List UInt8))
    (lookup : String → Except String (List Host)) (refused : List (Address × String)) :
    IO UInt32 := do
  let bind (a : Address) : Except String Address :=
    match refused.lookup a with
    | some reason => .error reason
    | none => .ok a
  match o.start (fun _ => file) lookup bind with
  | .listening n c address =>
    let socket ← UDP.Socket.mk
    match ← attempt (socket.bind (toSocketAddress address)) with
    | .error reason => start o file lookup ((address, reason) :: refused)
    | .ok () =>
      let bound := ofSocketAddress (← socket.getSockName)
      say ("INFO listening; Ctrl+C to stop " ++ CommandLine.listeningFields n ++ " addr="
        ++ bound.text)
      serve n c socket 0 .initial
      return 0
  | outcome => conclude outcome

end ChatRelay.Relay

open ChatRelay in
def main (args : List String) : IO UInt32 := do
  match CommandLine.parse args with
  | .error e => Relay.conclude (.misused e)
  | .ok .help => do
    IO.print CommandLine.helpText
    return 0
  | .ok (.relay o) => do
    Relay.start o (← Relay.readTable o) (← Relay.lookupNames [o.bindHost]) []
