import ChatRelay.Proofs.SpelledValue
import ChatRelay.Proofs.DatagramCodec
import Mathlib.Data.List.Duplicate

namespace ChatRelay

open Json

namespace Message

inductive Slot where
  | kind
  | source
  | destination
  | body
deriving DecidableEq, Repr

namespace Slot

/-- In declared order. -/
def all : List Slot := [kind, source, destination, body]

def name : Slot → String
  | kind => "kind"
  | source => "source"
  | destination => "destination"
  | body => "body"

end Slot

inductive Part where
  | kind (kind : Kind)
  | source (source : String)
  | destination (destination : String)
  | body (body : Body)
deriving DecidableEq, Repr

/-- A member of an object that tells of a message. Those of other names say nothing. -/
inductive Member where
  | part (part : Part)
  | other (name : String) (new : ∀ f : Slot, name ≠ f.name)

namespace Part

def slot : Part → Slot
  | kind _ => .kind
  | source _ => .source
  | destination _ => .destination
  | body _ => .body

def set : Part → Draft → Draft
  | kind k, d => { d with kind := some k }
  | source s, d => { d with source := some s }
  | destination s, d => { d with destination := some s }
  | body b, d => { d with body := some b }

def json : Part → List UInt8
  | kind k => k.json
  | source s => writeString s
  | destination s => writeString s
  | body b => b.json

end Part

namespace Member

def name : Member → String
  | part p => p.slot.name
  | other name _ => name

def part? : Member → Option Part
  | part p => some p
  | other _ _ => none

end Member

def slots (ms : List Member) : List Slot :=
  (ms.filterMap Member.part?).map Part.slot

def parts (m : Message) : List Part :=
  [.kind m.kind, .source m.source, .destination m.destination, .body m.body]

/-- A kind is its name, or an object that says nothing more of it. -/
def SpellsKind (k : Kind) (w : List UInt8) : Prop :=
  SpellsString k.tag w ∨ Lone (SpellsString k.tag) (Eq (letters "null")) w

def SpellsBody : Body → List UInt8 → Prop
  | .text t => Lone (SpellsString "Text") (SpellsString t)
  | .roster ids => Lone (SpellsString "Roster") (Enclosed .list SpellsString ids)

def SpellsPart : Part → List UInt8 → Prop
  | .kind k => SpellsKind k
  | .source s => SpellsString s
  | .destination s => SpellsString s
  | .body b => SpellsBody b

/-- A key and its value, which may be any value where the key is of no field. -/
def SpellsMember (x : Member) : List UInt8 → Prop :=
  Keyed (SpellsString x.name)
    (match x with
      | .part p => SpellsPart p
      | .other _ _ => IsValue)

/-- The ways to spell a message. -/
inductive Spells (m : Message) : List UInt8 → Prop where
  | object (ms : List Member) {w : List UInt8} (hms : (ms.filterMap Member.part?).Perm m.parts)
      (h : Enclosed .object SpellsMember ms w) : Spells m w
  | array {w : List UInt8} (h : Enclosed .list SpellsPart m.parts w) : Spells m w

/-- An object that comes to the key of a field that it has already, and goes on in any way. -/
inductive Repeats (f : Slot) : List UInt8 → Prop where
  | mk {ms : List Member} {u w a k : List UInt8} (hu : Blank u) (h : Listed SpellsMember ms w)
      (hms : (slots ms).Nodup) (hf : f ∈ slots ms) (ha : Blank a) (hk : SpellsString f.name k)
      (r : List UInt8) : Repeats f (u ++ openObject :: (w ++ comma :: (a ++ (k ++ r))))

theorem spellsPart_json (p : Part) : SpellsPart p p.json := by
  cases p with
  | kind k => exact .inl (spellsString_writeString k.tag)
  | source s => exact spellsString_writeString s
  | destination s => exact spellsString_writeString s
  | body b =>
    cases b with
    | text t => exact .mk (.of (.of (spellsString_writeString _) (spellsString_writeString t)))
    | roster ids =>
      exact .mk (.of (.of (spellsString_writeString _)
        (enclosed_separated .list spellsString_writeString ids)))

/-- What is written is one of the spellings. -/
theorem spells_json (m : Message) : Spells m m.json := by
  have hmember (p : Part) : SpellsMember (.part p) (writeMember p.slot.name p.json) :=
    .of (spellsString_writeString p.slot.name) (spellsPart_json p)
  have hobject := enclosed_separated .object hmember m.parts
  exact .object (m.parts.map .part) (List.Perm.refl _) (hobject.map fun _ _ => id)

theorem kind_takes {k : Kind} {w : List UInt8} (h : SpellsKind k w) : Kind.reader.Takes w k := by
  have hp : pick (Kind.all.map fun k => ⟨k.tag, .ok k, null.map fun _ => k⟩) k.tag =
      .ok ⟨k.tag, .ok k, null.map fun _ => k⟩ := by
    cases k <;> rfl
  rcases h with h | h
  · exact choice_takes_bare hp rfl h
  · refine choice_takes hp ?_ h
    rintro _ rfl
    exact null_takes.map fun _ => k

theorem body_takes {b : Body} {w : List UInt8} (h : SpellsBody b w) : Body.reader.Takes w b := by
  cases b with
  | text t => exact choice_takes rfl (fun _ hv => (string_takes hv).map Body.text) h
  | roster ids =>
    refine choice_takes rfl (fun _ hv => Reader.Takes.map ?_ Body.roster) h
    exact list_takes hv fun _ _ _ hid => ⟨string_takes hid, opens_of_spellsString hid⟩

theorem opens_of_lone {K V : List UInt8 → Prop} {w : List UInt8} (h : Lone K V w) : Opens w := by
  obtain ⟨_⟩ := h
  exact ⟨openObject, _, rfl, by decide, by decide⟩

namespace Slot

def field : Slot → Json.Field Draft
  | kind => ⟨kind.name, (·.kind.isSome), Kind.reader.map fun k => (Part.kind k).set⟩
  | source => ⟨source.name, (·.source.isSome), string.map fun s => (Part.source s).set⟩
  | destination =>
    ⟨destination.name, (·.destination.isSome), string.map fun s => (Part.destination s).set⟩
  | body => ⟨body.name, (·.body.isSome), Body.reader.map fun b => (Part.body b).set⟩

theorem fields_eq : record.fields = all.map field := rfl

theorem name_field (f : Slot) : f.field.name = f.name := by cases f <;> rfl

theorem valueOf_name (f : Slot) : record.valueOf f.name = f.field.value := by
  cases f <;> rfl

theorem repeats_name (f : Slot) (d : Draft) : record.repeats d f.name = f.field.isSet d := by
  cases f <;> simp [Record.repeats, fields_eq, all, field, name]

end Slot

theorem part_takes {p : Part} {w : List UInt8} (h : SpellsPart p w) :
    p.slot.field.value.Takes w p.set ∧ Opens w := by
  cases p with
  | kind k =>
    refine ⟨(kind_takes h).map fun k => (Part.kind k).set, ?_⟩
    rcases h with h | h
    · exact opens_of_spellsString h
    · exact opens_of_lone h
  | source s =>
    exact ⟨(string_takes h).map fun s => (Part.source s).set, opens_of_spellsString h⟩
  | destination s =>
    exact ⟨(string_takes h).map fun s => (Part.destination s).set, opens_of_spellsString h⟩
  | body b =>
    refine ⟨(body_takes h).map fun b => (Part.body b).set, ?_⟩
    cases b with
    | text t => exact opens_of_lone h
    | roster ids => exact opens_of_lone h

namespace Member

def set : Member → Draft → Draft
  | part p => p.set
  | other _ _ => id

end Member

theorem valueOf_other {name : String} (new : ∀ f : Slot, name ≠ f.name) :
    record.valueOf name = skipped.map fun _ => id := by
  have h := fun f => (new f).symm
  unfold Record.valueOf
  rw [List.find?_eq_none.mpr]
  intro f hf
  rw [Slot.fields_eq] at hf
  obtain ⟨f, _, rfl⟩ := List.mem_map.mp hf
  rw [Slot.name_field]
  simp [h f]

theorem repeats_other {name : String} (new : ∀ f : Slot, name ≠ f.name) (d : Draft) :
    record.repeats d name = false := by
  have h := fun f => (new f).symm
  simp [Record.repeats, Slot.fields_eq, Slot.name_field, h]

theorem member_takes {x : Member} {w : List UInt8} (h : SpellsMember x w) :
    record.SpellsMember (x.name, x.set) w := by
  obtain ⟨hk, ha, hb, hv⟩ := h
  refine .mk hk ha hb ?_
  cases x with
  | part p =>
    change (record.valueOf p.slot.name).Takes _ _
    rw [Slot.valueOf_name]
    exact (part_takes hv).1
  | other name new =>
    change (record.valueOf name).Takes _ _
    rw [valueOf_other new]
    exact (skipped_takes hv).map _

def Draft.has (d : Draft) (f : Slot) : Bool := f.field.isSet d

theorem has_set (p : Part) (d : Draft) (f : Slot) :
    (p.set d).has f = (decide (f = p.slot) || d.has f) := by
  cases p <;> cases f <;> rfl

theorem has_blank (f : Slot) : record.blank.has f = false := by
  cases f <;> rfl

/-- The fields of an object fill a message as long as none of them comes twice. -/
theorem fill_members (ms : List Member) (d : Draft) :
    ((slots ms).Nodup ∧ (∀ f ∈ slots ms, d.has f = false) ∧
        record.fill d (ms.map fun x => (x.name, x.set)) =
          .ok ((ms.filterMap Member.part?).foldl (fun d p => p.set d) d)) ∨
      ∃ f ∈ slots ms, (d.has f = true ∨ List.Duplicate f (slots ms)) ∧
        record.fill d (ms.map fun x => (x.name, x.set)) = .error (.duplicateField f.name) := by
  induction ms generalizing d with
  | nil => exact .inl ⟨List.nodup_nil, List.forall_mem_nil _, rfl⟩
  | cons x ms ih =>
    cases x with
    | other name new =>
      have hfill : record.fill d ((Member.other name new :: ms).map fun x => (x.name, x.set)) =
          record.fill d (ms.map fun x => (x.name, x.set)) :=
        if_neg (by simp [Member.name, repeats_other new])
      rw [hfill]
      exact ih d
    | part p =>
      have hslots : slots (.part p :: ms) = p.slot :: slots ms := rfl
      have hrepeats : record.repeats d p.slot.name = d.has p.slot := p.slot.repeats_name d
      rw [hslots]
      cases hset : d.has p.slot with
      | true =>
        refine .inr ⟨p.slot, List.mem_cons_self, .inl hset, ?_⟩
        exact if_pos (hrepeats.trans hset)
      | false =>
        have hfill : record.fill d ((Member.part p :: ms).map fun x => (x.name, x.set)) =
            record.fill (p.set d) (ms.map fun x => (x.name, x.set)) :=
          if_neg (by simp [Member.name, hrepeats, hset])
        rw [hfill]
        rcases ih (p.set d) with ⟨hnodup, hnew, hok⟩ | ⟨f, hf, hagain, herror⟩
        · refine .inl ⟨?_, ?_, hok⟩
          · refine List.nodup_cons.mpr ⟨fun hmem => ?_, hnodup⟩
            have hfresh := hnew _ hmem
            simp [has_set] at hfresh
          · intro f hf
            rcases List.mem_cons.mp hf with rfl | hf
            · exact hset
            · have hfresh := hnew f hf
              rw [has_set, Bool.or_eq_false_iff] at hfresh
              exact hfresh.2
        · refine .inr ⟨f, List.mem_cons_of_mem _ hf, ?_, herror⟩
          rcases hagain with hagain | hagain
          · rw [has_set, Bool.or_eq_true, decide_eq_true_iff] at hagain
            rcases hagain with rfl | hagain
            · exact .inr (List.Mem.duplicate_cons_self hf)
            · exact .inl hagain
          · exact .inr (hagain.duplicate_cons _)

/-- An object in which no key repeats sets its fields, in any order. -/
theorem fill_of_nodup {ms : List Member} (h : (slots ms).Nodup) :
    record.fill record.blank (ms.map fun x => (x.name, x.set)) =
      .ok ((ms.filterMap Member.part?).foldl (fun d p => p.set d) record.blank) := by
  rcases fill_members ms record.blank with ⟨_, _, hok⟩ | ⟨f, _, hset | hdup, _⟩
  · exact hok
  · rw [has_blank] at hset
    contradiction
  · exact absurd h hdup.not_nodup

/-- A key that comes again is refused by its name. -/
theorem fill_of_not_nodup {ms : List Member} (h : ¬ (slots ms).Nodup) :
    ∃ f, List.Duplicate f (slots ms) ∧
      record.fill record.blank (ms.map fun x => (x.name, x.set)) =
        .error (.duplicateField f.name) := by
  rcases fill_members ms record.blank with ⟨hnodup, _, _⟩ | ⟨f, _, hset | hdup, herror⟩
  · exact absurd hnodup h
  · rw [has_blank] at hset
    contradiction
  · exact ⟨f, hdup, herror⟩

theorem has_foldl (ps : List Part) (d : Draft) (f : Slot) :
    (ps.foldl (fun d p => p.set d) d).has f = (decide (f ∈ ps.map Part.slot) || d.has f) := by
  induction ps generalizing d with
  | nil => simp
  | cons p ps ih =>
    rw [List.foldl_cons, ih, has_set, ← Bool.or_assoc]
    simp [Bool.or_comm, eq_comm]

/-- What sets different fields may come in any order. -/
theorem foldl_set_perm {ps qs : List Part} (h : ps.Perm qs)
    (hne : ∀ p ∈ ps, ∀ q ∈ ps, p.slot = q.slot → p = q) (d : Draft) :
    ps.foldl (fun d p => p.set d) d = qs.foldl (fun d p => p.set d) d := by
  refine h.foldl_eq' ?_ d
  intro p hp q hq d
  by_cases heq : p.slot = q.slot
  · rw [hne p hp q hq heq]
  · cases p <;> cases q <;> first | rfl | exact absurd rfl heq

/-- The first field that is not set is missing. -/
theorem finish_missing {d : Draft} {f : Slot} (h : Slot.all.find? (fun f => !d.has f) = some f) :
    d.finish = .error (.missingField f.name) := by
  obtain ⟨kind, source, destination, body⟩ := d
  cases kind with
  | none => cases h; rfl
  | some kind =>
    cases source with
    | none => cases h; rfl
    | some source =>
      cases destination with
      | none => cases h; rfl
      | some destination =>
        cases body with
        | none => cases h; rfl
        | some body => cases h

theorem slots_nodup {m : Message} {ms : List Member}
    (h : (ms.filterMap Member.part?).Perm m.parts) : (slots ms).Nodup := by
  have hslots : (slots ms).Perm Slot.all := h.map Part.slot
  exact hslots.nodup_iff.mpr (by decide)

/-- In whatever order its parts were set, the message is the same. -/
theorem finish_parts {m : Message} {ms : List Member}
    (h : (ms.filterMap Member.part?).Perm m.parts) :
    ((ms.filterMap Member.part?).foldl (fun d p => p.set d) record.blank).finish = .ok m := by
  rw [foldl_set_perm h]
  · rfl
  · intro p hp q hq heq
    have hp := h.mem_iff.mp hp
    have hq := h.mem_iff.mp hq
    simp only [parts, List.mem_cons, List.not_mem_nil, or_false] at hp hq
    rcases hp with rfl | rfl | rfl | rfl <;> rcases hq with rfl | rfl | rfl | rfl <;>
      first | rfl | cases heq

/-- What an object comes to is up to what its members set. -/
theorem ofJson_object {ms : List Member} {text : List UInt8}
    (h : Padded (Enclosed .object SpellsMember ms) text) :
    ofJson text =
      record.fill record.blank (ms.map fun x => (x.name, x.set)) >>= record.finish := by
  obtain ⟨ha, h, hb⟩ := h
  exact Reader.whole_of_run
    (Record.run_object (h.map (g := fun x => (x.name, x.set)) fun _ _ => member_takes) ha _) hb

/-- A message is read from any of its spellings. -/
theorem ofJson_of_spells {m : Message} {text : List UInt8} (h : Padded (Spells m) text) :
    ofJson text = .ok m := by
  obtain ⟨ha, h, hb⟩ := h
  cases h with
  | object ms hms h =>
    rw [ofJson_object (.mk ha h hb), fill_of_nodup (slots_nodup hms)]
    exact finish_parts hms
  | array h =>
    have hlist := h.map (Q := Record.SpellsItem) (g := fun p => (p.slot.field, p.set))
      fun _ _ => part_takes
    have htakes : record.reader.Takes _ m :=
      Record.takes_list hlist rfl (List.cons_ne_nil _ _) rfl
    exact Reader.whole_of_run (htakes _ _ ha (by simpa using hb.apart (r := []) nofun)) hb

/-- An object is refused for the first field in declared order that is missing. -/
theorem ofJson_missing {ms : List Member} {text : List UInt8} {f : Slot}
    (h : Padded (Enclosed .object SpellsMember ms) text) (hnodup : (slots ms).Nodup)
    (hf : Slot.all.find? (· ∉ slots ms) = some f) :
    ofJson text = .error (.missingField f.name) := by
  rw [ofJson_object h, fill_of_nodup hnodup]
  refine finish_missing ?_
  rw [← hf]
  congr 1
  funext f
  rw [has_foldl, has_blank, Bool.or_false, ← decide_not]
  rfl

theorem ofJson_duplicate {ms : List Member} {text : List UInt8}
    (h : Padded (Enclosed .object SpellsMember ms) text) (hdup : ¬ (slots ms).Nodup) :
    ∃ f, List.Duplicate f (slots ms) ∧ ofJson text = .error (.duplicateField f.name) := by
  obtain ⟨f, hf, hfill⟩ := fill_of_not_nodup hdup
  refine ⟨f, hf, ?_⟩
  rw [ofJson_object h, hfill]
  rfl

theorem ofJson_repeats {f : Slot} {text : List UInt8} (h : Repeats f text) :
    ofJson text = .error (.duplicateField f.name) := by
  obtain @⟨ms, _, _, _, _, hu, hw, hms, hf, ha, hk, r⟩ := h
  have hset : record.repeats ((ms.filterMap Member.part?).foldl (fun d p => p.set d) record.blank)
      f.name = true := by
    refine (f.repeats_name _).trans ?_
    change Draft.has _ f = true
    rw [has_foldl, Bool.or_eq_true, decide_eq_true_iff]
    exact .inl hf
  have hmembers := hw.map (g := fun x => (x.name, x.set)) fun _ _ => member_takes
  have hrun := Record.run_repeats hu hmembers (fill_of_nodup hms) ha hk hset r
  exact Reader.whole_of_run (x := .error _) hrun blank_nil

end Message

namespace Datagram

open Message

theorem decode_frame {text : List UInt8} (h : text.length < 0x100000000) :
    decode (frame text) =
      (((ofJson text).mapError .json >>= fun m => m.checked.mapError .flawed) :
        Except Damage Message).mapError .malformed := by
  unfold decode read
  rw [payload_frame h]
  rfl

/-- How a message is spelled does not matter, but an object has to hold each of its fields, and only
once: it is refused at the key of a field that it has already, whatever comes behind. -/
theorem decode_any_spelling (text : List UInt8) (h : text.length < 0x100000000) :
    (∀ m : Message, m.Valid → Padded (Spells m) text → decode (frame text) = .ok m) ∧
      (∀ ms : List Message.Member, Padded (Enclosed .object SpellsMember ms) text →
        (∀ f, (slots ms).Nodup → Slot.all.find? (· ∉ slots ms) = some f →
          decode (frame text) = .error (.malformed (.json (.missingField f.name)))) ∧
        (¬ (slots ms).Nodup → ∃ f, List.Duplicate f (slots ms) ∧
          decode (frame text) = .error (.malformed (.json (.duplicateField f.name))))) ∧
      ∀ f, Repeats f text →
        decode (frame text) = .error (.malformed (.json (.duplicateField f.name))) := by
  rw [decode_frame h]
  refine ⟨?_, fun ms hms => ⟨?_, ?_⟩, ?_⟩
  · intro m hv hm
    rw [ofJson_of_spells hm]
    change ((m.checked.mapError Damage.flawed).mapError ProtocolError.malformed) = _
    rw [checked_eq_ok.mpr ⟨hv, rfl⟩]
    rfl
  · intro f hnodup hf
    rw [ofJson_missing hms hnodup hf]
    rfl
  · intro hdup
    obtain ⟨f, hf, hfault⟩ := ofJson_duplicate hms hdup
    refine ⟨f, hf, ?_⟩
    rw [hfault]
    rfl
  · intro f hf
    rw [ofJson_repeats hf]
    rfl

/-- Fields out of order, a key and a text in escapes, a member of another name and some blanks; an
object without fields, and two that repeat a field. -/
theorem decode_any_spelling_shuffled :
    decode (frame (
        letters "\x7b\"body\":\x7b\"Text\":\"\\ud83d\\ude00\"\x7d,\"x\":[0, \x7b\x7d]," ++
        letters "\"\\u006bind\":\"Chat\",\"source\":\"a\", \"destination\":\"b\"\x7d")) =
      .ok ⟨.chat, "a", "b", .text "😀"⟩ ∧
    decode (frame (letters "\x7b\x7d")) = .error (.malformed (.json (.missingField "kind"))) ∧
    decode (frame (letters "\x7b\"source\":\"a\",\"source\":\"b\"\x7d")) =
      .error (.malformed (.json (.duplicateField "source"))) ∧
    decode (frame (letters "\x7b\"source\":\"a\",\"source\":0\x7d")) =
      .error (.malformed (.json (.duplicateField "source"))) := by
  have hsource (s : String) : SpellsMember (.part (.source s)) _ :=
    .of (spellsString_writeString "source") (spellsString_writeString s)
  refine ⟨?_, ?_, ?_, ?_⟩
  · have hface : SpellsString "😀" _ :=
      .mk (.cons (.pair (isFourHex_hexDigit (n := 0xD83D) (by decide))
        (isFourHex_hexDigit (n := 0xDE00) (by decide)) (by decide) (by decide) (by decide)) .nil)
    have hkey : SpellsChars ['k', 'i', 'n', 'd'] _ :=
      .cons (.number (isFourHex_hexDigit (by decide)))
        (.cons (.raw (by decide) (by decide) (by decide))
          (.cons (.raw (by decide) (by decide) (by decide))
            (.cons (.raw (by decide) (by decide) (by decide)) .nil)))
    have hzero : IsValue [0x30] := .number (.mk (.inl rfl) .zero .none .none)
    have hempty : IsValue (openObject :: ([] ++ [closeObject])) :=
      .object (List.forall_mem_nil _) (.empty blank_nil)
    have hlist : IsValue _ :=
      .list (List.forall_mem_cons.mpr ⟨hzero, List.forall_mem_singleton.mpr hempty⟩)
        (.filled (.more (.of rfl) (.last (.mk (a := [0x20]) (by decide) rfl blank_nil))))
    have hspells : Spells ⟨.chat, "a", "b", .text "😀"⟩ _ :=
      .object [.part (.body (.text "😀")), .other "x" (by rintro ⟨⟩ <;> decide),
          .part (.kind .chat), .part (.source "a"), .part (.destination "b")] (by decide)
        (.filled (.more (.of (.of (spellsString_writeString _)
            (.mk (.of (.of (spellsString_writeString _) hface)))))
          (.more (.of (.of (spellsString_writeString _) hlist))
          (.more (.of (.of (.mk hkey) (.inl (spellsString_writeString _))))
          (.more (.of (.of (spellsString_writeString _) (spellsString_writeString _)))
          (.last (.mk (a := [0x20]) (by decide)
            (.of (spellsString_writeString _) (spellsString_writeString _)) blank_nil)))))))
    refine (decode_any_spelling _ (by decide)).1 _ (by decide) ?_
    convert Padded.of hspells
    decide
  · have hempty : Padded (Enclosed .object SpellsMember []) _ := .of (.empty blank_nil)
    exact ((decode_any_spelling _ (by decide)).2.1 [] hempty).1 .kind (by decide) (by decide)
  · have htwice : Padded (Enclosed .object SpellsMember _) _ :=
      .of (.filled (.more (.of (hsource "a")) (.last (.of (hsource "b")))))
    obtain ⟨f, hdup, hf⟩ := ((decode_any_spelling _ (by decide)).2.1 _ htwice).2 (by decide)
    have hslot : f = .source := by simpa [slots, Message.Member.part?, Part.slot] using hdup.mem
    rw [hslot] at hf
    exact hf
  · have hagain : Repeats .source _ :=
      .mk blank_nil (.last (.of (hsource "a"))) (by decide) (by decide) blank_nil
        (spellsString_writeString Slot.source.name) (letters ":0\x7d")
    exact (decode_any_spelling _ (by decide)).2.2 .source hagain

end Datagram

end ChatRelay
