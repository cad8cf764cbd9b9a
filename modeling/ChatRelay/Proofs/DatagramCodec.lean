import ChatRelay.Proofs.WrittenValue
import ChatRelay.Datagram

namespace ChatRelay

open Json

theorem mapError_eq_ok {ε ε' α : Type} {f : ε → ε'} {x : Except ε α} {a : α} :
    x.mapError f = .ok a ↔ x = .ok a := by
  cases x with
  | error e => exact ⟨nofun, nofun⟩
  | ok b =>
    constructor
    · intro h
      cases h
      rfl
    · intro h
      cases h
      rfl

namespace Message

theorem Kind.reads (k : Kind) : Kind.reader.Reads k.json k := by
  have hp : pick (Kind.all.map fun k => ⟨k.tag, .ok k, null.map fun _ => k⟩) k.tag =
      .ok ⟨k.tag, .ok k, null.map fun _ => k⟩ := by
    cases k <;> rfl
  exact choice_reads_bare hp rfl

theorem Body.reads (b : Body) : Body.reader.Reads b.json b := by
  cases b with
  | text t => exact choice_reads rfl ((string_reads t).map text)
  | roster ids =>
    exact choice_reads rfl ((list_reads string_reads opens_writeString ids).map roster)

/-- The four members of a message set its four fields, each for the first time. -/
theorem record_fills (m : Message) : record.Fills record.blank
    [writeMember "kind" m.kind.json, writeMember "source" (writeString m.source),
      writeMember "destination" (writeString m.destination), writeMember "body" m.body.json]
    ⟨some m.kind, some m.source, some m.destination, some m.body⟩ := by
  have hk := (Kind.reads m.kind).map fun k (d : Draft) => { d with kind := some k }
  have hs := (string_reads m.source).map fun s (d : Draft) => { d with source := some s }
  have hd := (string_reads m.destination).map
    fun s (d : Draft) => { d with destination := some s }
  have hb := (Body.reads m.body).map fun b (d : Draft) => { d with body := some b }
  exact .cons rfl hk (.cons rfl hs (.cons rfl hd (.cons rfl hb (.nil _))))

/-- Every message, sound or not, is read back from its writing. -/
theorem ofJson_json (m : Message) : ofJson m.json = .ok m :=
  (Record.reads_writeObject m.record_fills rfl).whole

end Message

namespace Datagram

theorem ofFourOctets_fourOctets {n : Nat} (h : n < 0x100000000) :
    ofFourOctets (UInt8.ofNat (n / 0x1000000)) (UInt8.ofNat (n / 0x10000))
      (UInt8.ofNat (n / 0x100)) (UInt8.ofNat n) = n := by
  simp [ofFourOctets]
  omega

/-- Four octets are those of the number that they stand for. -/
theorem fourOctets_ofFourOctets (a b c e : UInt8) :
    fourOctets (ofFourOctets a b c e) = [a, b, c, e] := by
  have ha := a.toNat_lt
  have hb := b.toNat_lt
  have hc := c.toNat_lt
  have he := e.toNat_lt
  unfold fourOctets ofFourOctets
  simp only [List.cons.injEq, ← UInt8.toNat_inj, UInt8.toNat_ofNat', and_true]
  omega

theorem ofFourOctets_lt (a b c e : UInt8) : ofFourOctets a b c e < 0x100000000 := by
  have ha := a.toNat_lt
  have hb := b.toNat_lt
  have hc := c.toNat_lt
  have he := e.toNat_lt
  unfold ofFourOctets
  omega

/-- The text behind a header that declares some length. -/
theorem payload_declared {n : Nat} (h : n < 0x100000000) (text : List UInt8) :
    payload (version :: fourOctets n ++ text) =
      if text.length < n then .error (.truncated text.length n)
      else if n < text.length then .error (.extended (text.length - n))
      else .ok text := by
  unfold payload fourOctets
  simp [ofFourOctets_fourOctets h]

theorem payload_frame {text : List UInt8} (h : text.length < 0x100000000) :
    payload (frame text) = .ok text := by
  unfold frame
  rw [payload_declared h, if_neg (Nat.lt_irrefl _), if_neg (Nat.lt_irrefl _)]

/-- What has a payload is the frame of it. -/
theorem eq_frame_of_payload {d text : List UInt8} (h : payload d = .ok text) :
    d = frame text ∧ text.length < 0x100000000 := by
  unfold payload at h
  split at h
  · rename_i v a b c e rest
    dsimp only at h
    split at h
    · cases h
    · rename_i hv
      split at h
      · cases h
      · split at h
        · cases h
        · cases h
          have hlength : text.length = ofFourOctets a b c e := by omega
          refine ⟨?_, hlength ▸ ofFourOctets_lt a b c e⟩
          unfold frame
          rw [hlength, fourOctets_ofFourOctets, Decidable.not_not.mp hv]
          rfl
  · cases h

theorem length_frame (text : List UInt8) : (frame text).length = 5 + text.length := by
  simp [frame, fourOctets]
  omega

theorem word?_eq_some {n : Nat} {w : UInt32} : word? n = some w ↔ n = w.toNat := by
  unfold word?
  constructor
  · intro h
    split at h
    · rename_i hn
      cases h
      exact (UInt32.toNat_ofNat_of_lt' hn).symm
    · cases h
  · rintro rfl
    rw [if_pos w.toNat_lt, UInt32.ofNat_toNat]

theorem fourOctets_toNat (w : UInt32) : fourOctets w.toNat = bigEndian w := by
  unfold fourOctets bigEndian
  simp only [List.cons.injEq, ← UInt8.toNat_inj, UInt8.toNat_ofNat', UInt32.toNat_toUInt8,
    UInt32.toNat_shiftRight, UInt32.reduceToNat, Nat.reduceMod, Nat.shiftRight_eq_div_pow,
    Nat.reducePow, and_self]

/-- A length that fits a datagram fits 32 bits, and there is no message that cannot be written. -/
theorem encode_eq (m : Message) :
    encode m = if (frame m.json).length ≤ maxLength then .ok (frame m.json)
      else .error (.tooLarge (frame m.json).length maxLength) := by
  have hlength : headerLength + m.json.length = (frame m.json).length := (length_frame m.json).symm
  change (if maxLength < headerLength + m.json.length then _ else _) = _
  by_cases hfits : (frame m.json).length ≤ maxLength
  · have hword : m.json.length < UInt32.size := by
      unfold headerLength at hlength
      unfold maxLength at hfits
      change _ < 4294967296
      omega
    have hoctets : bigEndian (UInt32.ofNat m.json.length) = fourOctets m.json.length := by
      rw [← fourOctets_toNat, UInt32.toNat_ofNat_of_lt' hword]
    rw [hlength, if_neg (Nat.not_lt.mpr hfits), if_pos hfits, word?, if_pos hword]
    exact congrArg (fun octets => Except.ok (version :: octets ++ m.json)) hoctets
  · rw [hlength, if_pos (Nat.lt_of_not_le hfits), if_neg hfits]
    rfl

theorem encode_eq_ok {m : Message} {d : List UInt8} :
    encode m = .ok d ↔ (frame m.json).length ≤ maxLength ∧ d = frame m.json := by
  rw [encode_eq]
  split
  · simp_all [eq_comm]
  · simp only [reduceCtorEq, false_iff]
    rintro ⟨hl, _⟩
    contradiction

/-- A message that is taken from a datagram keeps to the rules. -/
theorem valid_of_decode {d : List UInt8} {m : Message} (h : decode d = .ok m) : m.Valid := by
  unfold decode at h
  cases hr : read d with
  | error e =>
    rw [hr] at h
    cases h
  | ok m' =>
    rw [hr] at h
    cases h
    unfold read at hr
    obtain ⟨text, _, hr⟩ := Json.bind_eq_ok.mp hr
    obtain ⟨m', _, hr⟩ := Json.bind_eq_ok.mp hr
    cases hc : m'.checked with
    | error e =>
      rw [hc] at hr
      cases hr
    | ok m'' =>
      rw [hc] at hr
      cases hr
      have := Message.checked_eq_ok.mp hc
      exact this.2 ▸ this.1

/-- Reading undoes writing, and then the rules are checked. -/
theorem read_of_encode {m : Message} {d : List UInt8} (h : encode m = .ok d) :
    read d = m.checked.mapError .flawed := by
  obtain ⟨hl, rfl⟩ := encode_eq_ok.mp h
  rw [length_frame] at hl
  have hp : payload (frame m.json) = .ok m.json := payload_frame (by unfold maxLength at hl; omega)
  unfold read
  rw [hp]
  change ((Message.ofJson m.json).mapError Damage.json >>= _) = _
  rw [Message.ofJson_json]
  rfl

theorem decode_of_encode {m : Message} {d : List UInt8} (h : encode m = .ok d) (hv : m.Valid) :
    decode d = .ok m := by
  unfold decode
  rw [read_of_encode h, Message.checked_eq_ok.mpr ⟨hv, rfl⟩]
  rfl

/-- What a datagram says of a message: the message itself if it is valid, else its flaw. -/
theorem decode_encode (m : Message) (d : List UInt8) (h : encode m = .ok d) :
    (m.Valid → decode d = .ok m) ∧
      ∀ flaw, m.flaw? = some flaw → decode d = .error (.malformed (.flawed flaw)) := by
  constructor
  · exact decode_of_encode h
  · intro flaw hf
    unfold decode
    rw [read_of_encode h]
    unfold Message.checked
    rw [hf]
    rfl

/-- Quotes, controls and characters beyond ASCII come back, and so does a flaw. -/
theorem decode_encode_escapes :
    decode (frame (Message.json ⟨.chat, "a\"\\", "é", .text "\n\u0001✓"⟩)) =
        .ok ⟨.chat, "a\"\\", "é", .text "\n\u0001✓"⟩ ∧
      decode (frame (Message.json ⟨.syncLeft, "a", "b", .text ""⟩)) =
        .error (.malformed (.flawed (.textBody .syncLeft))) := by
  constructor
  · exact (decode_encode _ _ (encode_eq_ok.mpr ⟨by decide, rfl⟩)).1 (by decide)
  · exact (decode_encode _ _ (encode_eq_ok.mpr ⟨by decide, rfl⟩)).2 _ (by decide)

end Datagram

end ChatRelay
