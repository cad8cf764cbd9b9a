namespace ChatRelay

namespace Message

inductive Kind where
  | connect
  | disconnect
  | chat
  | privateMessage
  | syncLeft
  | syncRight
deriving DecidableEq, Repr

namespace Kind

def all : List Kind := [connect, disconnect, chat, privateMessage, syncLeft, syncRight]

def tag : Kind → String
  | connect => "Connect"
  | disconnect => "Disconnect"
  | chat => "Chat"
  | privateMessage => "PrivateMessage"
  | syncLeft => "SyncLeft"
  | syncRight => "SyncRight"

/-- The name of a kind in logs and errors. -/
def label : Kind → String
  | connect => "connect"
  | disconnect => "disconnect"
  | chat => "chat"
  | privateMessage => "private"
  | syncLeft => "sync-left"
  | syncRight => "sync-right"

/-- Roster syncs pass between neighbor nodes and are never relayed. -/
def isSync : Kind → Bool
  | syncLeft | syncRight => true
  | _ => false

/-- Syncs carry a roster, all other kinds a text. -/
def carriesRoster (k : Kind) : Bool := k.isSync

end Kind

inductive Body where
  | text (text : String)
  | roster (ids : List String)
deriving DecidableEq, Repr

/-- Why a message breaks the rules. `other` is any further reason, in the words of who finds it. -/
inductive Flaw where
  | emptySource
  | rosterBody (kind : Kind)
  | textBody (kind : Kind)
  | other (reason : String)
deriving DecidableEq, Repr

def Flaw.reason : Flaw → String
  | emptySource => "empty source id"
  | rosterBody kind => s!"{kind.label} message with a roster body"
  | textBody kind => s!"{kind.label} message with a text body"
  | other reason => reason

end Message

structure Message where
  kind : Message.Kind
  source : String
  destination : String
  body : Message.Body
deriving DecidableEq, Repr

namespace Message

/-- The destination that stands for every client of the sender's node but the sender. -/
def everyone : String := "broadcast"

/-- The first rule that a message breaks: its source is not empty, and its body has the form that
its kind asks for. -/
def flaw? (m : Message) : Option Flaw :=
  if m.source = "" then some .emptySource
  else
    match m.body, m.kind.carriesRoster with
    | .roster _, false => some (.rosterBody m.kind)
    | .text _, true => some (.textBody m.kind)
    | _, _ => none

def Valid (m : Message) : Prop := m.flaw? = none

instance (m : Message) : Decidable m.Valid := inferInstanceAs (Decidable (_ = _))

def checked (m : Message) : Except Flaw Message :=
  match m.flaw? with
  | none => .ok m
  | some flaw => .error flaw

theorem checked_eq_ok {m n : Message} : m.checked = .ok n ↔ m.Valid ∧ n = m := by
  unfold checked Valid
  cases m.flaw? <;> simp [eq_comm]

def withText (kind : Kind) (source destination text : String) : Except Flaw Message :=
  checked ⟨kind, source, destination, .text text⟩

/-- The roster of one node on its way to another. -/
def sync (roster : List String) (source destination : String) (kind : Kind) :
    Except Flaw Message :=
  checked ⟨kind, source, destination, .roster roster⟩

def connect (source : String) : Except Flaw Message :=
  withText .connect source everyone ""

def disconnect (source : String) : Except Flaw Message :=
  withText .disconnect source everyone ""

def chat (source text : String) : Except Flaw Message :=
  withText .chat source everyone text

/-- Words to one client, wherever it is. -/
def privately (source destination text : String) : Except Flaw Message :=
  withText .privateMessage source destination text

def text? (m : Message) : Option String :=
  match m.body with
  | .text text => some text
  | .roster _ => none

def roster? (m : Message) : Option (List String) :=
  match m.body with
  | .text _ => none
  | .roster ids => some ids

def isBroadcast (m : Message) : Bool :=
  m.destination = everyone

end Message

end ChatRelay
