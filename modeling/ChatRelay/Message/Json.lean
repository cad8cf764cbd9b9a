import ChatRelay.Message.Basic
import ChatRelay.Json.Record
import ChatRelay.Json.Writer

namespace ChatRelay.Message

open Json

def Kind.json (k : Kind) : List UInt8 :=
  writeString k.tag

/-- A kind is its name; as the key of an object it says nothing more. -/
def Kind.reader : Reader Kind :=
  choice (Kind.all.map fun k => ⟨k.tag, .ok k, null.map fun _ => k⟩)

def Body.json : Body → List UInt8
  | text t => writeObject [writeMember "Text" (writeString t)]
  | roster ids => writeObject [writeMember "Roster" (writeList (ids.map writeString))]

/-- The name of a form of body means nothing without the content. -/
def Body.bare : Except Fault Body :=
  .error (.wrongType .unitVariant "newtype variant")

def Body.reader : Reader Body :=
  choice [⟨"Text", bare, string.map text⟩, ⟨"Roster", bare, (list string).map roster⟩]

def json (m : Message) : List UInt8 :=
  writeObject [
    writeMember "kind" m.kind.json,
    writeMember "source" (writeString m.source),
    writeMember "destination" (writeString m.destination),
    writeMember "body" m.body.json]

/-- The outcome of writing a message. Nothing in a message keeps it from being written. -/
def write (m : Message) : Except String (List UInt8) :=
  .ok m.json

structure Draft where
  kind : Option Kind
  source : Option String
  destination : Option String
  body : Option Body

def Draft.finish (d : Draft) : Except Fault Message := do
  let kind ← required "kind" d.kind
  let source ← required "source" d.source
  let destination ← required "destination" d.destination
  let body ← required "body" d.body
  return ⟨kind, source, destination, body⟩

def record : Record Draft Message where
  name := "Message"
  blank := ⟨none, none, none, none⟩
  fields := [
    ⟨"kind", (·.kind.isSome), Kind.reader.map fun k d => { d with kind := some k }⟩,
    ⟨"source", (·.source.isSome), string.map fun s d => { d with source := some s }⟩,
    ⟨"destination", (·.destination.isSome),
      string.map fun s d => { d with destination := some s }⟩,
    ⟨"body", (·.body.isSome), Body.reader.map fun b d => { d with body := some b }⟩]
  finish := Draft.finish

/-- The message that a whole text holds. -/
def ofJson (s : List UInt8) : Except Fault Message :=
  record.reader.whole s

end ChatRelay.Message
