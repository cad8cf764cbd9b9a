import ChatRelay.Message.Json

namespace ChatRelay

/-- Why octets are not a message. `other` is any further reason, in the words of who finds it. -/
inductive Damage where
  | tooShort (length : Nat)
  | wrongVersion (version : UInt8)
  | truncated (present declared : Nat)
  | extended (surplus : Nat)
  | json (fault : Json.Fault)
  | flawed (flaw : Message.Flaw)
  | other (reason : String)
deriving DecidableEq, Repr

inductive ProtocolError where
  | malformed (damage : Damage)
  | invalid (flaw : Message.Flaw)
  | tooLarge (length limit : Nat)
deriving DecidableEq, Repr

namespace Datagram

def version : UInt8 := 1

/-- The version and the four octets of the length. -/
def headerLength : Nat := 5

def maxLength : Nat := 65507

def fourOctets (n : Nat) : List UInt8 :=
  [UInt8.ofNat (n / 0x1000000), UInt8.ofNat (n / 0x10000), UInt8.ofNat (n / 0x100), UInt8.ofNat n]

/-- A number as one of 32 bits, where these are enough. -/
def word? (n : Nat) : Option UInt32 :=
  if n < UInt32.size then some (UInt32.ofNat n) else none

def bigEndian (w : UInt32) : List UInt8 :=
  [(w >>> 24).toUInt8, (w >>> 16).toUInt8, (w >>> 8).toUInt8, w.toUInt8]

def ofFourOctets (a b c d : UInt8) : Nat :=
  ((a.toNat * 0x100 + b.toNat) * 0x100 + c.toNat) * 0x100 + d.toNat

/-- A text behind the version and its length, by which a receiver tells a cut or extended datagram
from a whole one. -/
def frame (text : List UInt8) : List UInt8 :=
  version :: fourOctets text.length ++ text

def payload (d : List UInt8) : Except Damage (List UInt8) :=
  match d with
  | v :: a :: b :: c :: e :: text =>
    let declared := ofFourOctets a b c e
    if v ≠ version then .error (.wrongVersion v)
    else if text.length < declared then .error (.truncated text.length declared)
    else if declared < text.length then .error (.extended (text.length - declared))
    else .ok text
  | _ => .error (.tooShort d.length)

/-- The datagram of a message, if one datagram can hold it. -/
def encode (m : Message) : Except ProtocolError (List UInt8) := do
  let text ← m.write.mapError fun reason => .invalid (.other reason)
  let total := headerLength + text.length
  if maxLength < total then throw (.tooLarge total maxLength)
  match word? text.length with
  | none => throw (.tooLarge total maxLength)
  | some length => return version :: bigEndian length ++ text

/-- The message that octets hold, or what is wrong with them. -/
def read (d : List UInt8) : Except Damage Message := do
  let text ← payload d
  let m ← (Message.ofJson text).mapError .json
  m.checked.mapError .flawed

/-- The message of a datagram. Nothing of a damaged one is kept. -/
def decode (d : List UInt8) : Except ProtocolError Message :=
  (read d).mapError .malformed

end Datagram

def Damage.reason : Damage → String
  | tooShort length =>
    s!"datagram too short: {length} bytes (header is {Datagram.headerLength})"
  | wrongVersion version => s!"unsupported protocol version {version.toNat}"
  | truncated present declared => s!"truncated payload: {present} of {declared} bytes"
  | extended surplus => s!"{surplus} trailing bytes after payload"
  | json fault => fault.message
  | flawed flaw => flaw.reason
  | other reason => reason

def ProtocolError.message : ProtocolError → String
  | malformed damage => s!"malformed message: {damage.reason}"
  | invalid flaw => s!"invalid message: {flaw.reason}"
  | tooLarge length limit => s!"message too large: {length} bytes (max {limit})"

end ChatRelay
