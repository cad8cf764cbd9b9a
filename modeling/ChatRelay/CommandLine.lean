import ChatRelay.Node.Config
import ChatRelay.Text.Plain

namespace ChatRelay.CommandLine

inductive Flag where
  | position
  | topology
  | port
  | bind
  | syncInterval
deriving DecidableEq, Repr

namespace Flag

def all : List Flag := [position, topology, port, bind, syncInterval]

def name : Flag → String
  | position => "position"
  | topology => "topology"
  | port => "port"
  | bind => "bind"
  | syncInterval => "sync-interval-ms"

def usage : Flag → String
  | position => "--position <POSITION>"
  | topology => "--topology <TOPOLOGY>"
  | port => "--port <PORT>"
  | bind => "--bind <BIND>"
  | syncInterval => "--sync-interval-ms <SYNC_INTERVAL_MS>"

end Flag

/-- Why a text is not a whole number of the asked range. -/
inductive NumberFault where
  | empty
  | notDigit
  | tooLarge
  | tooSmall
  | outside (value : Int) (limit : Nat)
deriving DecidableEq, Repr

def NumberFault.reason : NumberFault → String
  | empty => "cannot parse integer from empty string"
  | notDigit => "invalid digit found in string"
  | tooLarge => "number too large to fit in target type"
  | tooSmall => "number too small to fit in target type"
  | outside value limit => s!"{value} is not in 0..={limit}"

inductive UsageError where
  | missingPosition
  | noValue (flag : Flag)
  | badValue (flag : Flag) (value : String) (fault : NumberFault)
  | repeated (flag : Flag)
  | unexpected (argument : String)
  | helpWithValue (value : String)
deriving DecidableEq, Repr

def UsageError.message : UsageError → String
  | missingPosition => "the following required arguments were not provided:"
  | noValue flag => s!"a value is required for '{flag.usage}' but none was supplied"
  | badValue flag value fault =>
    s!"invalid value '{Text.plain value}' for '{flag.usage}': {fault.reason}"
  | repeated flag => s!"the argument '{flag.usage}' cannot be used multiple times"
  | unexpected argument => s!"unexpected argument '{Text.plain argument}' found"
  | helpWithValue value =>
    s!"unexpected value '{Text.plain value}' for '--help' found; no more were expected"

def digits (beyond : NumberFault) (limit n : Nat) : List Char → Except NumberFault Nat
  | [] => .ok n
  | c :: cs =>
    if ¬ c.isDigit then .error .notDigit
    else
      let next := 10 * n + (c.toNat - '0'.toNat)
      if next < limit then digits beyond limit next cs else .error beyond

def int64Limit : Nat := 0x8000000000000000

def signed (s : String) : Except NumberFault Int :=
  match s.toList with
  | [] => .error .empty
  | ['-'] | ['+'] => .error .notDigit
  | '-' :: cs => (digits .tooSmall (int64Limit + 1) 0 cs).map fun n => -(n : Int)
  | '+' :: cs => (digits .tooLarge int64Limit 0 cs).map fun n => (n : Int)
  | cs => (digits .tooLarge int64Limit 0 cs).map fun n => (n : Int)

def unsigned (s : String) : Except NumberFault Nat :=
  match s.toList with
  | [] => .error .empty
  | ['+'] => .error .notDigit
  | '+' :: cs => digits .tooLarge (2 * int64Limit) 0 cs
  | cs => digits .tooLarge (2 * int64Limit) 0 cs

/-- A whole number from zero up to a limit. -/
def upTo (limit : Nat) (s : String) : Except NumberFault Nat := do
  let n ← signed s
  if 0 ≤ n ∧ n ≤ limit then return n.toNat else throw (.outside n limit)

/-- The options given so far, each at most once. -/
structure Given where
  position : Option UInt8
  topology : Option String
  port : Option UInt16
  bind : Option String
  syncMillis : Option Nat
deriving DecidableEq, Repr

namespace Given

def has (g : Given) : Flag → Bool
  | .position => g.position.isSome
  | .topology => g.topology.isSome
  | .port => g.port.isSome
  | .bind => g.bind.isSome
  | .syncInterval => g.syncMillis.isSome

/-- Takes an option with its value; a path is not empty. -/
def set (g : Given) (flag : Flag) (value : String) : Except UsageError Given :=
  if g.has flag then .error (.repeated flag)
  else
    match flag with
    | .position =>
      ((upTo 255 value).mapError (.badValue flag value)).map fun n =>
        { g with position := some (UInt8.ofNat n) }
    | .topology =>
      if value = "" then .error (.noValue flag) else .ok { g with topology := some value }
    | .port =>
      ((upTo 65535 value).mapError (.badValue flag value)).map fun n =>
        { g with port := some (UInt16.ofNat n) }
    | .bind => .ok { g with bind := some value }
    | .syncInterval =>
      ((unsigned value).mapError (.badValue flag value)).map fun n =>
        { g with syncMillis := some n }

end Given

structure Pending where
  flag : Flag
  value : Option String
deriving DecidableEq, Repr

def settle (g : Given) : Option Pending → Except UsageError Given
  | none => .ok g
  | some ⟨flag, none⟩ => .error (.noValue flag)
  | some ⟨flag, some value⟩ => g.set flag value

inductive Argument where
  | escape
  | long (name : List Char) (value : Option (List Char))
  | short (letter : Char) (rest : List Char)
  | plain
deriving DecidableEq, Repr

def Argument.ofList : List Char → Argument
  | ['-', '-'] => escape
  | '-' :: '-' :: cs =>
    long (cs.takeWhile (· ≠ '='))
      (if '=' ∈ cs then some ((cs.dropWhile (· ≠ '=')).drop 1) else none)
  | '-' :: c :: cs => short c cs
  | _ => plain

structure Options where
  position : Position
  topology : Option String
  port : Option UInt16
  bindHost : String
  syncMillis : Nat
deriving DecidableEq, Repr

/-- What was not given has its usual value; only the position has none. -/
def Given.options (g : Given) : Except UsageError Options :=
  match g.position with
  | none => .error .missingPosition
  | some p =>
    .ok ⟨⟨p⟩, g.topology, g.port, g.bind.getD "0.0.0.0", g.syncMillis.getD 250⟩

def Options.config (o : Options) (t : Topology) : Config :=
  { Config.forPosition t o.position with
    port := o.port
    bindHost := o.bindHost
    syncMillis := o.syncMillis }

inductive Request where
  | help
  | relay (options : Options)
deriving DecidableEq, Repr

def finish (g : Given) (pending : Option Pending) : Except UsageError Request := do
  let g ← settle g pending
  return .relay (← g.options)

/-- The value that follows the letter of an option in the same argument. -/
def attached? : List Char → Option (List Char)
  | [] => none
  | '=' :: cs => some cs
  | cs => some cs

/-- Reads the arguments in order. An option is looked at when the next one comes or the arguments
end, so an argument that has no place is told before a fault of the option just before it. -/
def scan (g : Given) (pending : Option Pending) : List String → Except UsageError Request
  | [] => finish g pending
  | a :: args =>
    let option (flag : Flag) (value : Option (List Char)) : Except UsageError Request := do
      let g ← settle g pending
      match value with
      | some value => scan (← g.set flag (String.ofList value)) none args
      | none => scan g (some ⟨flag, none⟩) args
    match Argument.ofList a.toList with
    | .escape =>
      match args with
      | [] => finish g pending
      | b :: _ => .error (.unexpected b)
    | .long name value =>
      match Flag.all.find? (·.name = String.ofList name), value with
      | some flag, _ => option flag value
      | none, none =>
        if name = "help".toList then do
          let _ ← settle g pending
          return .help
        else .error (.unexpected a)
      | none, some value =>
        if name = "help".toList then .error (.helpWithValue (String.ofList value))
        else .error (.unexpected ("--" ++ String.ofList name))
    | .short 'p' rest => option .position (attached? rest)
    | .short 'h' _ => do
      let _ ← settle g pending
      return .help
    | .short c _ => .error (.unexpected (String.ofList ['-', c]))
    | .plain =>
      match pending with
      | some ⟨flag, none⟩ => scan g (some ⟨flag, some a⟩) args
      | _ => .error (.unexpected a)

inductive Outcome where
  | help
  | misused (error : UsageError)
  | unloaded (error : RelayError)
  | unstarted (error : RelayError)
  | panicked (cause : Panic)
  | listening (node : Node) (config : Config) (address : Address)
deriving Repr

/-- The table that the options name, or the usual one. -/
def Options.load (o : Options) (contents : String → Except String (List UInt8)) :
    Except RelayError Topology :=
  match o.topology with
  | some path => Topology.load path (contents path)
  | none => .ok .standard

def Options.start (o : Options) (contents : String → Except String (List UInt8))
    (lookup : String → Except String (List Host)) (bind : Address → Except String Address) :
    Outcome :=
  match o.load contents with
  | .error e => .unloaded e
  | .ok t =>
    match (o.config t).start lookup bind with
    | .error (.error e) => .unstarted e
    | .error (.panic p) => .panicked p
    | .ok (node, address) => .listening node (o.config t) address

def parse (args : List String) : Except UsageError Request :=
  scan ⟨none, none, none, none, none⟩ none args

def run (args : List String) (contents : String → Except String (List UInt8))
    (lookup : String → Except String (List Host)) (bind : Address → Except String Address) :
    Outcome :=
  match parse args with
  | .error e => .misused e
  | .ok .help => .help
  | .ok (.relay o) => o.start contents lookup bind

namespace Outcome

/-- The exit code of a command that does not go on to run a node. -/
def exitCode? : Outcome → Option UInt8
  | help => some 0
  | misused _ => some 2
  | unloaded _ | unstarted _ => some 1
  | panicked _ => some 101
  | listening .. => none

def errors : Outcome → List String
  | unloaded e => [s!"failed to load topology error={e.message}"]
  | unstarted e => [s!"failed to start relay error={e.message}"]
  | _ => []

def complaint : Outcome → String
  | misused e => s!"error: {e.message}"
  | _ => ""

end Outcome

def helpText : String :=
  "Run one node of a chat relay chain\n\n"
    ++ "Usage: relay [OPTIONS] --position <POSITION>\n\n"
    ++ "Options:\n"
    ++ "  -p, --position <POSITION>  Chain position of this node (0 is the leftmost)\n"
    ++ "      --topology <TOPOLOGY>  JSON topology file shared by every node in the chain\n"
    ++ "      --port <PORT>  Listen port, overriding the topology entry for this position\n"
    ++ "      --bind <BIND>  Address to bind the UDP socket to [default: 0.0.0.0]\n"
    ++ "      --sync-interval-ms <SYNC_INTERVAL_MS>  Milliseconds between roster pushes to neighbors"
    ++ " [default: 250]\n"
    ++ "  -h, --help  Print help\n"

def listeningFields (n : Node) : String :=
  s!"node={Text.quoted n.name} position={n.position.text}"

end ChatRelay.CommandLine
