import ChatRelay.Proofs.DatagramCodec
import ChatRelay.Proofs.SpelledString
import Mathlib.Algebra.BigOperators.Group.List.Basic
import Mathlib.Algebra.GroupWithZero.Nat

namespace ChatRelay

namespace Json

def charWidth (c : Char) : Nat :=
  if c ∈ ['"', '\\', '\x08', '\t', '\n', '\x0C', '\r'] then 2
  else if c.toNat < 0x20 then 6
  else c.utf8Size

def stringWidth (s : String) : Nat := 2 + (s.toList.map charWidth).sum

def rosterWidth (ids : List String) : Nat := 2 + (ids.map stringWidth).sum + (ids.length - 1)

theorem charWidth_pos (c : Char) : 0 < charWidth c := by
  unfold charWidth
  split
  · exact Nat.zero_lt_succ 1
  · split
    · exact Nat.zero_lt_succ 5
    · exact c.utf8Size_pos

theorem charWidth_le_six (c : Char) : charWidth c ≤ 6 := by
  have hfour := c.utf8Size_le_four
  unfold charWidth
  split
  · omega
  · split <;> omega

/-- Only quotes, backslashes and controls take more room in a string than in UTF-8. -/
theorem length_escaped_char (c : Char) :
    ((String.utf8EncodeChar c).flatMap escaped).length = charWidth c := by
  unfold charWidth
  split
  · rename_i hletter
    have hall : (['"', '\\', '\x08', '\t', '\n', '\x0C', '\r'].all fun c =>
        ((String.utf8EncodeChar c).flatMap escaped).length == 2) = true := by decide
    exact eq_of_beq (List.all_eq_true.mp hall c hletter)
  · rename_i hletter
    split
    · rename_i hcontrol
      have hall : ∀ n < 0x20, Char.ofNat n ∉ ['"', '\\', '\x08', '\t', '\n', '\x0C', '\r'] →
          ((String.utf8EncodeChar (Char.ofNat n)).flatMap escaped).length = 6 := by decide
      have hchar := hall c.toNat hcontrol
      rw [Char.ofNat_toNat] at hchar
      exact hchar hletter
    · rename_i hcontrol
      have hq : c ≠ '"' := fun h => hletter (by simp [h])
      have hb : c ≠ '\\' := fun h => hletter (by simp [h])
      rw [flatMap_escaped_of_isPlain (isPlain_of_mem (Nat.le_of_not_lt hcontrol) hq hb),
        String.length_utf8EncodeChar]

theorem length_writeString (s : String) :
    (writeString s).length = ((Text.octets s).flatMap escaped).length + 2 := by
  simp [writeString]

theorem length_writeString_eq (s : String) : (writeString s).length = stringWidth s := by
  have hchars : (fun c => ((String.utf8EncodeChar c).flatMap escaped).length) = charWidth :=
    funext length_escaped_char
  rw [length_writeString, octets_eq_flatMap, List.flatMap_assoc, List.length_flatMap, hchars,
    Nat.add_comm]
  rfl

theorem length_separated (x : List UInt8) (xs : List (List UInt8)) :
    (separated (x :: xs)).length + 1 = ((x :: xs).map fun w => w.length + 1).sum := by
  rw [separated_cons, List.length_append, List.length_flatMap, List.map_cons, List.sum_cons]
  simp only [List.length_cons]
  omega

theorem length_writeList_eq (ids : List String) :
    (writeList (ids.map writeString)).length = rosterWidth ids := by
  cases ids with
  | nil => rfl
  | cons id ids =>
    have hparts := length_separated (writeString id) (ids.map writeString)
    rw [← List.map_cons (f := writeString), List.map_map] at hparts
    have hwidth : ((fun w : List UInt8 => w.length + 1) ∘ writeString) =
        fun id => stringWidth id + 1 :=
      funext fun id => congrArg (· + 1) (length_writeString_eq id)
    rw [hwidth, List.sum_map_add, List.map_const', List.sum_replicate_nat] at hparts
    unfold rosterWidth
    simp only [writeList, List.length_append, List.length_cons, List.length_nil] at *
    omega

theorem two_le_stringWidth (s : String) : 2 ≤ stringWidth s := Nat.le_add_right _ _

theorem stringWidth_push (s : String) (c : Char) :
    stringWidth (s.push c) = stringWidth s + charWidth c := by
  unfold stringWidth
  rw [String.toList_push, List.map_append, List.sum_append, List.map_singleton, List.sum_singleton,
    Nat.add_assoc]

theorem stringWidth_replicate (k : Nat) (c : Char) :
    stringWidth (String.ofList (List.replicate k c)) = 2 + k * charWidth c := by
  unfold stringWidth
  rw [String.toList_ofList, List.map_replicate, List.sum_replicate_nat]

theorem rosterWidth_append_le (ids more : List String) :
    rosterWidth ids ≤ rosterWidth (ids ++ more) := by
  unfold rosterWidth
  rw [List.map_append, List.sum_append, List.length_append]
  omega

theorem rosterWidth_concat_lt (ids : List String) (id : String) :
    rosterWidth ids < rosterWidth (ids ++ [id]) := by
  have htwo := two_le_stringWidth id
  unfold rosterWidth
  rw [List.map_append, List.sum_append, List.length_append, List.map_singleton,
    List.sum_singleton]
  omega

end Json

namespace Message

open Json

def Body.width : Body → Nat
  | text t => "\x7b\"Text\":\x7d".length + stringWidth t
  | roster ids => "\x7b\"Roster\":\x7d".length + rosterWidth ids

/-- The octets of the datagram of a message: the header, the names of the fields with what stands
around them, and the values. -/
def width (m : Message) : Nat :=
  Datagram.headerLength + "\x7b\"kind\":,\"source\":,\"destination\":,\"body\":\x7d".length +
    stringWidth m.kind.tag + stringWidth m.source + stringWidth m.destination + m.body.width

theorem Body.width_text (t : String) : (text t).width = 9 + stringWidth t := rfl

theorem Body.width_roster (ids : List String) : (roster ids).width = 11 + rosterWidth ids := rfl

theorem width_mk (kind : Kind) (source destination : String) (body : Body) :
    width ⟨kind, source, destination, body⟩ =
      47 + stringWidth kind.tag + stringWidth source + stringWidth destination + body.width := rfl

/-- A message to everyone takes 67 octets beside its kind, its source and its text. -/
theorem width_toEveryone (kind : Kind) (source text : String) :
    width ⟨kind, source, everyone, .text text⟩ =
      67 + stringWidth kind.tag + stringWidth source + stringWidth text := by
  have heveryone : stringWidth everyone = 11 := by decide
  rw [width_mk, Body.width_text, heveryone]
  omega

theorem Body.length_json (b : Body) : b.json.length = b.width := by
  cases b with
  | text t =>
    have hkey : (writeString "Text").length = 6 := by decide
    simp only [Body.json, width_text, writeObject, writeMember, separated, List.length_append,
      List.length_cons, List.length_nil, length_writeString_eq t, hkey]
    omega
  | roster ids =>
    have hkey : (writeString "Roster").length = 8 := by decide
    simp only [Body.json, width_roster, writeObject, writeMember, separated, List.length_append,
      List.length_cons, List.length_nil, length_writeList_eq ids, hkey]
    omega

theorem width_eq (m : Message) : m.width = m.json.length + 5 := by
  have hkind : (writeString "kind").length = 6 := by decide
  have hsource : (writeString "source").length = 8 := by decide
  have hdestination : (writeString "destination").length = 13 := by decide
  have hbody : (writeString "body").length = 6 := by decide
  obtain ⟨kind, source, destination, body⟩ := m
  simp only [width_mk, json, Kind.json, writeObject, writeMember, separated, List.length_append,
    List.length_cons, List.length_nil, length_writeString_eq kind.tag,
    length_writeString_eq source, length_writeString_eq destination, body.length_json, hkind,
    hsource, hdestination, hbody]
  omega

theorem length_frame_json (m : Message) : (Datagram.frame m.json).length = m.width := by
  rw [Datagram.length_frame, width_eq, Nat.add_comm]

end Message

end ChatRelay
