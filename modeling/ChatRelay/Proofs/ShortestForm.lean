import ChatRelay.Proofs.SpelledMessage
import ChatRelay.Proofs.WrittenWidth
import Mathlib.Algebra.GroupWithZero.Nat

namespace ChatRelay.Json

/-- Each value that is taken takes up its size at least, but for a credit. -/
def Reader.Spends {α : Type} (p : Reader α) (credit : Nat) (size : α → Nat) : Prop :=
  ∀ s a r, p.run s = .ok (a, r) → size a + r.length ≤ s.length + credit

theorem Reader.Spends.map {α β : Type} {p : Reader α} {credit credit' : Nat} {size : α → Nat}
    {size' : β → Nat} {f : α → β} (h : p.Spends credit size)
    (hf : ∀ a, size' (f a) + credit ≤ size a + credit') : (p.map f).Spends credit' size' := by
  intro s b r hb
  obtain ⟨⟨a, t⟩, ha, hb⟩ := bind_eq_ok.mp hb
  cases hb
  have := h _ _ _ ha
  have := hf a
  omega

theorem length_escaped_letter {b c : UInt8} (h : letterEscape? b = some c) :
    (escaped c).length ≤ 2 := by
  unfold letterEscape? at h
  split at h
  case h_9 => cases h
  all_goals cases h; decide

theorem length_of_fourHex {s r : List UInt8} {n : Nat} (h : fourHex s = .ok (n, r)) :
    r.length + 4 = s.length := by
  unfold fourHex at h
  split at h
  · split at h
    · cases h; simp
    · contradiction
  · contradiction

theorem length_of_codePoint {s r : List UInt8} {n : Nat} (h : codePoint s = .ok (n, r)) :
    r.length + 4 ≤ s.length := by
  obtain ⟨⟨m, t⟩, hm, h⟩ := bind_eq_ok.mp h
  have := length_of_fourHex hm
  dsimp only at h
  split at h
  · contradiction
  · split at h
    · obtain ⟨⟨l, u⟩, hl, h⟩ := bind_eq_ok.mp h
      have := length_lt_of_lowSurrogate hl
      cases h; dsimp only; omega
    · cases h; omega

/-- An escape is no shorter than the way in which the writer puts what it stands for. -/
theorem length_of_escape {s r out : List UInt8} (h : escape s = .ok (out, r)) :
    (out.flatMap escaped).length + r.length ≤ s.length + 1 := by
  unfold escape at h
  split at h
  · contradiction
  · split at h
    · cases h
      have := length_escaped_letter ‹_›
      simp only [List.flatMap_singleton, List.length_cons]
      omega
    · split at h
      · obtain ⟨⟨n, t⟩, hn, h⟩ := bind_eq_ok.mp h
        have := length_of_codePoint hn
        cases h
        have := length_escaped_char (Char.ofNat n)
        have := charWidth_le_six (Char.ofNat n)
        simp only [List.length_cons]
        omega
      · contradiction

/-- However the characters of a string stand in a text, written they take up no more of it. -/
theorem length_of_characters {read s r out : List UInt8} (h : characters read s = .ok (out, r)) :
    (out.flatMap escaped).length + 1 + r.length ≤ (read.flatMap escaped).length + s.length := by
  fun_induction characters read s with
  | case1 => contradiction
  | case2 read t =>
    cases h
    simp only [List.length_flatMap, List.map_reverse, List.sum_reverse, List.length_cons]
    omega
  | case3 => contradiction
  | case4 read t out' u he _ ih =>
    have := length_of_escape he
    have := ih h
    simp only [List.length_flatMap, List.map_append, List.map_reverse, List.sum_append,
      List.sum_reverse, List.length_cons] at *
    omega
  | case5 => contradiction
  | case6 read b t hq hb hc ih =>
    have := ih h
    rw [List.flatMap_cons, escaped_of_isPlain ⟨hc, hq, hb⟩] at this
    simp only [List.length_append, List.length_cons, List.length_nil] at *
    omega

theorem length_of_readBody {s r : List UInt8} {text : String} (h : readBody s = .ok (text, r)) :
    (writeString text).length + r.length ≤ s.length + 1 := by
  obtain ⟨⟨out, t⟩, hc, h⟩ := bind_eq_ok.mp h
  have := length_of_characters hc
  dsimp only at h
  split at h
  · rename_i hout
    cases h
    rw [length_writeString, Text.octets_of_ofOctets? hout]
    simp only [List.flatMap_nil, List.length_nil] at this
    omega
  · contradiction

theorem string_spends : string.Spends 0 fun s => (writeString s).length := by
  intro s text r h
  change readString s = _ at h
  unfold readString at h
  split at h
  · contradiction
  · have := length_lt_of_skipBlank ‹_›
    split at h
    · have := length_of_readBody h
      dsimp only
      omega
    · contradiction

theorem length_of_nextItem {first : Bool} {s t : List UInt8}
    (h : nextItem first s = .ok (.more t)) : t.length + 1 ≤ s.length + first.toNat := by
  cases first with
  | true => exact Nat.succ_le_succ (length_le_of_nextItem_more h)
  | false =>
    unfold nextItem at h
    split at h
    · contradiction
    · rename_i b u hu
      have := length_lt_of_skipBlank hu
      split at h
      · cases h
      · rw [if_neg Bool.false_ne_true] at h
        split at h
        · split at h
          · contradiction
          · rename_i c v hv
            have hle := length_skipBlank_le u
            rw [hv] at hle
            split at h
            · contradiction
            · cases h
              simp only [Bool.toNat_false]
              omega
        · contradiction

section List

variable {α : Type} {item : Reader α} {write : α → List UInt8}

theorem length_of_items {first : Bool} {read out : List α} {s r : List UInt8}
    (hi : item.Spends 0 fun a => (write a).length) (h : items item first read s = .ok (out, r)) :
    (out.map fun a => (write a).length + 1).sum + 1 + r.length ≤
      (read.map fun a => (write a).length + 1).sum + s.length + first.toNat := by
  fun_induction items item first read s with
  | case2 first read s t hn =>
    cases h
    have := length_lt_of_nextItem_done hn
    rw [List.map_reverse, List.sum_reverse]
    omega
  | case4 first read s t hn a u ha ih =>
    have := length_of_nextItem hn
    have := hi _ _ _ ha
    have := ih h
    simp only [List.map_cons, List.sum_cons, Bool.toNat_false] at *
    omega
  | _ => contradiction

theorem list_spends (hi : item.Spends 0 fun a => (write a).length) :
    (list item).Spends 0 fun xs => (writeList (xs.map write)).length := by
  intro s xs r h
  change readList item s = _ at h
  unfold readList at h
  split at h
  · contradiction
  · have := length_lt_of_skipBlank ‹_›
    split at h
    · have hitems := length_of_items hi h
      have hshorter := length_lt_of_items h
      cases xs with
      | nil =>
        simp only [List.map_nil, writeList, separated, List.length_append, List.length_cons,
          List.length_nil]
        omega
      | cons x xs =>
        have hparts := length_separated (write x) (xs.map write)
        rw [← List.map_cons (f := write), List.map_map] at hparts
        simp only [writeList, List.length_append, List.length_cons, List.length_nil,
          Bool.toNat_true, List.map_nil, List.sum_nil, Function.comp_def] at *
        omega
    · contradiction

end List

theorem length_of_onlyKey {s r : List UInt8} {key : String} (h : onlyKey s = .ok (key, r)) :
    (writeString key).length + r.length ≤ s.length := by
  unfold onlyKey at h
  split at h
  · contradiction
  · have := length_lt_of_skipBlank ‹_›
    split at h
    · have := length_of_readBody h
      omega
    · split at h <;> contradiction

/-- A choice takes up the name of an alternative at least, and braces and a colon where the name has
a content. -/
theorem choice_spends {α : Type} {choices : List (Alternative α)} {size : α → Nat}
    (hbare : ∀ x ∈ choices, ∀ a, x.bare = .ok a → size a ≤ (writeString x.name).length)
    (hcontent : ∀ x ∈ choices, x.content.Spends ((writeString x.name).length + 3) size) :
    (choice choices).Spends 0 size := by
  have hpick {name : String} {x : Alternative α} (hx : pick choices name = .ok x) :
      x ∈ choices ∧ x.name = name := by
    unfold pick at hx
    split at hx
    · cases hx
      rename_i hx
      exact ⟨List.mem_of_find?_eq_some hx, by simpa using List.find?_some hx⟩
    · contradiction
  intro s a r h
  change readChoice choices s = _ at h
  unfold readChoice at h
  split at h
  · contradiction
  · have := length_lt_of_skipBlank ‹_›
    split at h
    · obtain ⟨⟨name, t⟩, ht, h⟩ := bind_eq_ok.mp h
      obtain ⟨x, hx, h⟩ := bind_eq_ok.mp h
      obtain ⟨v, hv, h⟩ := bind_eq_ok.mp h
      cases h
      obtain ⟨hmem, rfl⟩ := hpick hx
      have := hbare x hmem _ hv
      have := length_of_readBody ht
      omega
    · split at h
      · obtain ⟨⟨name, t⟩, ht, h⟩ := bind_eq_ok.mp h
        obtain ⟨x, hx, h⟩ := bind_eq_ok.mp h
        obtain ⟨u, hu, h⟩ := bind_eq_ok.mp h
        obtain ⟨⟨v, w⟩, hw, h⟩ := bind_eq_ok.mp h
        obtain ⟨z, hz, h⟩ := bind_eq_ok.mp h
        cases h
        obtain ⟨hmem, rfl⟩ := hpick hx
        have := length_of_onlyKey ht
        have := length_lt_of_afterColon hu
        have := hcontent x hmem _ _ _ hw
        have := length_lt_of_endChoice hz
        dsimp only at *
        omega
      · contradiction

theorem length_of_nextKey {first : Bool} {s t : List UInt8}
    (h : nextKey first s = .ok (.more t)) : t.length + 2 ≤ s.length + first.toNat := by
  unfold nextKey at h
  split at h
  · contradiction
  · have := length_lt_of_skipBlank ‹_›
    split at h
    · cases h
    · cases first with
      | true =>
        rw [if_pos rfl] at h
        split at h
        · cases h
          simp only [Bool.toNat_true]
          omega
        · contradiction
      | false =>
        rw [if_neg Bool.false_ne_true] at h
        split at h
        · split at h
          · contradiction
          · have := length_lt_of_skipBlank ‹skipBlank _ = _ :: _›
            split at h
            · cases h
              simp only [Bool.toNat_false]
              omega
            · split at h <;> contradiction
        · contradiction

/-- A field adds to the weight of a record no more than its value takes up, and `cost`. -/
def Field.Adds {σ : Type} (f : Field σ) (weight : σ → Nat) (cost : Nat) : Prop :=
  ∀ d, f.value.Spends (weight d + cost) fun set => weight (set d)

namespace Record

variable {σ α : Type} {x : Record σ α} {weight : σ → Nat} {draft out : σ} {s r : List UInt8}

/-- A member is no shorter than the field that it sets, written out with its key. -/
theorem weight_of_member {key : String}
    (hw : ∀ f ∈ x.fields, f.Adds weight ((writeString f.name).length + 2))
    (h : x.member draft key s = .ok (out, r)) :
    weight out + r.length ≤ weight draft + s.length + (writeString key).length + 1 := by
  unfold member at h
  split at h
  · contradiction
  · obtain ⟨t, ht, h⟩ := bind_eq_ok.mp h
    obtain ⟨⟨set, u⟩, hu, h⟩ := bind_eq_ok.mp h
    cases h
    have := length_lt_of_afterColon ht
    unfold valueOf at hu
    split at hu
    · rename_i f hf
      have hname : f.name = key := by simpa using List.find?_some hf
      have := hw f (List.mem_of_find?_eq_some hf) draft _ _ _ hu
      rw [hname] at this
      dsimp only at *
      omega
    · obtain ⟨⟨_, v⟩, hv, hu⟩ := bind_eq_ok.mp hu
      cases hu
      have := skipped.shortens hv
      dsimp only [id] at *
      omega

/-- The members of an object take up the weight of the record, each with its key, a colon and the
comma or brace before it. -/
theorem weight_of_members {first : Bool}
    (hw : ∀ f ∈ x.fields, f.Adds weight ((writeString f.name).length + 2))
    (h : x.members first draft s = .ok (out, r)) :
    weight out + 1 + r.length ≤ weight draft + s.length + first.toNat := by
  fun_induction members x first draft s with
  | case2 first draft s t hn =>
    cases h
    have := length_lt_of_nextKey hn
    simp only [Next.rest] at this
    omega
  | case5 first draft s t hn key u hk draft' v hm ih =>
    have := length_of_nextKey hn
    have := length_of_readBody hk
    have := weight_of_member hw hm
    have := ih h
    simp only [Bool.toNat_false] at this
    omega
  | _ => contradiction

/-- The items of a list take up the weight of the record, each with the comma or bracket before it.
-/
theorem weight_of_elements {fields : List (Field σ)} {i : Nat}
    (hw : ∀ f ∈ fields, f.Adds weight 1) (h : x.elements i draft fields s = .ok (out, r)) :
    weight out + r.length ≤ weight draft + s.length + (decide (i = 0)).toNat := by
  induction fields generalizing i draft s with
  | nil => cases h; omega
  | cons f fields ih =>
    unfold elements at h
    split at h
    · contradiction
    · contradiction
    · have := length_of_nextItem ‹_›
      split at h
      · contradiction
      · have := hw f List.mem_cons_self draft _ _ _ ‹_›
        dsimp only at this
        have := ih (fun f hf => hw f (List.mem_cons_of_mem _ hf)) h
        simp only [Nat.add_eq_zero_iff, Nat.one_ne_zero, and_false, decide_false,
          Bool.toNat_false] at this
        omega

/-- A record is read from a list or from an object, which takes up the weight of the record. -/
theorem weight_of_read {a : α} (h : x.read s = .ok (a, r)) :
    ((skipBlank s).head? = some openObject ∧ ∃ d, x.finish d = .ok a ∧ ∀ weight : σ → Nat,
        (∀ f ∈ x.fields, f.Adds weight ((writeString f.name).length + 2)) →
        weight d + 1 + r.length ≤ weight x.blank + s.length) ∨
      (skipBlank s).head? = some openList ∧ ∃ d, x.finish d = .ok a ∧ ∀ weight : σ → Nat,
        (∀ f ∈ x.fields, f.Adds weight 1) →
        weight d + 1 + r.length ≤ weight x.blank + s.length := by
  unfold read at h
  split at h
  · contradiction
  · rename_i b t hs
    have hlt := length_lt_of_skipBlank hs
    split at h
    · rename_i hb
      obtain ⟨⟨d, t⟩, ht, h⟩ := bind_eq_ok.mp h
      obtain ⟨a, ha, h⟩ := bind_eq_ok.mp h
      obtain ⟨u, hu, h⟩ := bind_eq_ok.mp h
      cases h
      refine .inr ⟨by rw [hs, hb]; rfl, d, ha, fun weight hw => ?_⟩
      have := weight_of_elements hw ht
      have := length_lt_of_endItems hu
      simp only [decide_true, Bool.toNat_true] at *
      omega
    · split at h
      · rename_i hb
        obtain ⟨⟨d, t⟩, ht, h⟩ := bind_eq_ok.mp h
        obtain ⟨a, ha, h⟩ := bind_eq_ok.mp h
        cases h
        refine .inl ⟨by rw [hs, hb]; rfl, d, ha, fun weight hw => ?_⟩
        have := weight_of_members hw ht
        simp only [Bool.toNat_true] at this
        omega
      · contradiction

end Record

end ChatRelay.Json

namespace ChatRelay

open Json

namespace Message

theorem kind_spends : Kind.reader.Spends 0 fun k => k.json.length := by
  apply choice_spends
  · intro x hx k hk
    obtain ⟨k', _, rfl⟩ := List.mem_map.mp hx
    cases hk
    exact Nat.le_refl _
  · intro x hx
    obtain ⟨k', _, rfl⟩ := List.mem_map.mp hx
    intro s k r h
    obtain ⟨⟨_, t⟩, ht, h⟩ := bind_eq_ok.mp h
    cases h
    have := null.shortens ht
    dsimp only [Kind.json]
    omega

theorem body_spends : Body.reader.Spends 0 fun b => b.json.length := by
  apply choice_spends
  · intro x hx b hb
    simp only [List.mem_cons, List.not_mem_nil, or_false] at hx
    rcases hx with rfl | rfl <;> cases hb
  · intro x hx
    simp only [List.mem_cons, List.not_mem_nil, or_false] at hx
    rcases hx with rfl | rfl
    · refine string_spends.map fun t => ?_
      simp [Body.json, writeObject, writeMember, separated]
      omega
    · refine (list_spends string_spends).map fun ids => ?_
      simp [Body.json, writeObject, writeMember, separated]
      omega

def Draft.parts (d : Draft) : List Part :=
  d.kind.toList.map .kind ++ d.source.toList.map .source ++
    d.destination.toList.map .destination ++ d.body.toList.map .body

def weigh (cost : Slot → Nat) (ps : List Part) : Nat :=
  (ps.map fun p => p.json.length + cost p.slot).sum

def Draft.weight (cost : Slot → Nat) (d : Draft) : Nat := weigh cost d.parts

theorem weight_set (cost : Slot → Nat) (p : Part) (d : Draft) :
    (p.set d).weight cost ≤ d.weight cost + p.json.length + cost p.slot := by
  unfold Draft.weight weigh Draft.parts
  cases p <;> simp only [Part.set, Option.toList_some, List.map_append, List.sum_append,
    List.map_cons, List.map_nil, List.sum_cons, List.sum_nil, Part.json] <;> omega

/-- Each field of a message takes up what its value does when it is written. -/
theorem adds_field (cost : Slot → Nat) (f : Slot) :
    f.field.Adds (Draft.weight cost) (cost f) := by
  intro d
  have hset := fun p => weight_set cost p d
  cases f with
  | kind =>
    refine Reader.Spends.map (f := fun k => (Part.kind k).set) kind_spends fun k => ?_
    have := hset (.kind k)
    simp only [Part.json, Part.slot] at this
    omega
  | source =>
    refine Reader.Spends.map (f := fun s => (Part.source s).set) string_spends fun s => ?_
    have := hset (.source s)
    simp only [Part.json, Part.slot] at this
    omega
  | destination =>
    refine Reader.Spends.map (f := fun s => (Part.destination s).set) string_spends fun s => ?_
    have := hset (.destination s)
    simp only [Part.json, Part.slot] at this
    omega
  | body =>
    refine Reader.Spends.map (f := fun b => (Part.body b).set) body_spends fun b => ?_
    have := hset (.body b)
    simp only [Part.json, Part.slot] at this
    omega

/-- The draft of a message that has all fields. -/
theorem parts_of_finish {d : Draft} {m : Message} (h : d.finish = .ok m) : d.parts = m.parts := by
  obtain ⟨kind, hk, h⟩ := bind_eq_ok.mp h
  obtain ⟨source, hs, h⟩ := bind_eq_ok.mp h
  obtain ⟨destination, hd, h⟩ := bind_eq_ok.mp h
  obtain ⟨body, hb, h⟩ := bind_eq_ok.mp h
  cases h
  have hrequired {α : Type} {name : String} {o : Option α} {a : α}
      (ho : required name o = .ok a) : o = some a := by
    cases o with
    | none => contradiction
    | some b => cases ho; rfl
  unfold Draft.parts
  rw [hrequired hk, hrequired hs, hrequired hd, hrequired hb]
  rfl

/-- What a key adds to the writing of its value, with the colon behind it and the comma or brace
before it. -/
def Slot.overhead (f : Slot) : Nat := (writeString f.name).length + 2

theorem length_json (m : Message) :
    m.json.length = weigh Slot.overhead m.parts + 1 := by
  have hparts := length_separated (writeMember "kind" m.kind.json)
    [writeMember "source" (writeString m.source),
      writeMember "destination" (writeString m.destination), writeMember "body" m.body.json]
  simp [json, writeObject, writeMember, weigh, parts, Part.json, Part.slot, Slot.overhead,
    Slot.name] at *
  omega

/-- Four keys take up this much more than no keys. -/
theorem length_json_eq (m : Message) :
    m.json.length = weigh (fun _ => 1) m.parts + 38 := by
  have hkeys : Slot.kind.overhead + Slot.source.overhead + Slot.destination.overhead +
      Slot.body.overhead = 41 := by decide
  rw [length_json]
  simp only [weigh, parts, Part.slot, List.map_cons, List.map_nil, List.sum_cons, List.sum_nil]
  omega

/-- A text in the form of an object is as long as the writing of its message, one in the form of a
list lacks four keys at most. -/
theorem length_of_ofJson {text : List UInt8} {m : Message} (h : ofJson text = .ok m) :
    ((skipBlank text).head? = some openObject ∧ m.json.length ≤ text.length) ∨
      (skipBlank text).head? = some openList ∧ m.json.length ≤ text.length + 37 := by
  obtain ⟨⟨m', r⟩, hrun, h⟩ := bind_eq_ok.mp h
  have hm : m' = m := by
    dsimp only at h
    split at h
    · cases h; rfl
    · contradiction
  have hfields (cost : Slot → Nat) :
      ∀ f ∈ record.fields, ∃ g : Slot, f = g.field ∧ f.Adds (Draft.weight cost) (cost g) := by
    intro f hf
    rw [Slot.fields_eq] at hf
    obtain ⟨g, _, rfl⟩ := List.mem_map.mp hf
    exact ⟨g, rfl, adds_field cost g⟩
  rw [hm] at hrun
  rcases Record.weight_of_read hrun with ⟨hopen, d, hd, hweight⟩ | ⟨hopen, d, hd, hweight⟩
  · have hle := hweight (Draft.weight Slot.overhead) fun f hf => by
      obtain ⟨g, rfl, hadds⟩ := hfields Slot.overhead f hf
      rw [Slot.name_field]
      exact hadds
    refine .inl ⟨hopen, ?_⟩
    rw [length_json, ← parts_of_finish hd]
    change weigh Slot.overhead d.parts + 1 + r.length ≤ 0 + text.length at hle
    omega
  · have hle := hweight (Draft.weight fun _ => 1) fun f hf => by
      obtain ⟨g, rfl, hadds⟩ := hfields (fun _ => 1) f hf
      exact hadds
    refine .inr ⟨hopen, ?_⟩
    rw [length_json_eq, ← parts_of_finish hd]
    change weigh (fun _ => 1) d.parts + 1 + r.length ≤ 0 + text.length at hle
    omega

/-- The list of the fields of a message, without keys. -/
def listJson (m : Message) : List UInt8 := writeList (m.parts.map Part.json)

theorem spells_listJson (m : Message) : Spells m m.listJson :=
  .array (enclosed_separated .list spellsPart_json m.parts)

theorem length_listJson (m : Message) : m.listJson.length + 37 = m.json.length := by
  have hparts := length_separated m.kind.json
    [writeString m.source, writeString m.destination, m.body.json]
  rw [length_json_eq]
  simp [listJson, writeList, weigh, parts, Part.json] at *
  omega

end Message

namespace Datagram

/-- What the payload of a datagram starts with, past blanks. -/
def opening? (d : List UInt8) : Option UInt8 := (skipBlank (d.drop headerLength)).head?

theorem payload_eq_ok {d text : List UInt8} (h : payload d = .ok text) :
    d.drop headerLength = text ∧ d.length = headerLength + text.length := by
  obtain ⟨rfl, _⟩ := eq_frame_of_payload h
  exact ⟨rfl, length_frame text⟩

theorem ofJson_of_decode {d : List UInt8} {m : Message} (h : decode d = .ok m) :
    ∃ text, payload d = .ok text ∧ Message.ofJson text = .ok m := by
  obtain ⟨text, htext, h⟩ := bind_eq_ok.mp (mapError_eq_ok.mp h)
  obtain ⟨m', hm, h⟩ := bind_eq_ok.mp h
  obtain ⟨_, rfl⟩ := Message.checked_eq_ok.mp (mapError_eq_ok.mp h)
  exact ⟨text, htext, mapError_eq_ok.mp hm⟩

/-- The datagram that a message is written to is as short as any object that holds it, and shorter
than no list by more than its four keys. -/
theorem length_of_decode {d : List UInt8} {m : Message} (h : decode d = .ok m) :
    (opening? d = some openObject ∧ (frame m.json).length ≤ d.length) ∨
      opening? d = some openList ∧ (frame m.json).length ≤ d.length + 37 := by
  obtain ⟨text, htext, hm⟩ := ofJson_of_decode h
  obtain ⟨hdrop, hlength⟩ := payload_eq_ok htext
  unfold opening?
  rw [hdrop, hlength, length_frame]
  unfold headerLength
  rcases Message.length_of_ofJson hm with ⟨hopen, hle⟩ | ⟨hopen, hle⟩
  · exact .inl ⟨hopen, by omega⟩
  · exact .inr ⟨hopen, by omega⟩

/-- The list form of a message is accepted, and it is shorter than what the message is written to by
as much as can be. -/
theorem decode_listJson {m : Message} (hv : m.Valid) (h : m.json.length < 0x100000000) :
    decode (frame m.listJson) = .ok m ∧ opening? (frame m.listJson) = some openList ∧
      (frame m.json).length = (frame m.listJson).length + 37 := by
  have hlength := m.length_listJson
  refine ⟨?_, rfl, ?_⟩
  · rw [decode_frame (by omega), Message.ofJson_of_spells (.of m.spells_listJson)]
    change ((m.checked.mapError Damage.flawed).mapError ProtocolError.malformed) = _
    rw [Message.checked_eq_ok.mpr ⟨hv, rfl⟩]
    rfl
  · rw [length_frame, length_frame]
    omega

end Datagram

end ChatRelay
