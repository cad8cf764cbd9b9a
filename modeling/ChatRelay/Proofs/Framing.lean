import ChatRelay.Proofs.ShortestForm

namespace ChatRelay.Datagram

theorem eq_frame_of_decode {d : List UInt8} {m : Message} (h : decode d = .ok m) :
    ∃ text, d = frame text ∧ text.length < 0x100000000 := by
  obtain ⟨text, htext, _⟩ := ofJson_of_decode h
  exact ⟨text, eq_frame_of_payload htext⟩

/-- Where the header does not agree with the text, the text is not looked at. -/
theorem decode_of_payload_error {d : List UInt8} {damage : Damage} (h : payload d = .error damage) :
    decode d = .error (.malformed damage) := by
  unfold decode read
  rw [h]
  rfl

theorem payload_of_short {d : List UInt8} (h : d.length < headerLength) :
    payload d = .error (.tooShort d.length) := by
  unfold headerLength at h
  unfold payload
  split
  · simp only [List.length_cons] at h
    omega
  · rfl

/-- What a datagram is cut down to lacks part of the header or part of the text. -/
theorem payload_of_cut {text : List UInt8} (ht : text.length < 0x100000000) {k : Nat}
    (hk : k < (frame text).length) :
    payload ((frame text).take k) =
      .error (if k < headerLength then .tooShort k
        else .truncated (k - headerLength) text.length) := by
  have hlength : ((frame text).take k).length = k := List.length_take_of_le (Nat.le_of_lt hk)
  split
  · rename_i hshort
    rw [payload_of_short (hlength.symm ▸ hshort), hlength]
  · rename_i hlong
    rw [length_frame] at hk
    obtain ⟨l, rfl⟩ := Nat.exists_eq_add_of_le (Nat.le_of_not_lt hlong)
    have htake : (frame text).take (headerLength + l) =
        version :: fourOctets text.length ++ text.take l := by
      rw [Nat.add_comm]
      rfl
    have hlt : (text.take l).length < text.length := by
      unfold headerLength at hk
      rw [List.length_take]
      omega
    rw [htake, payload_declared ht, if_pos hlt, List.length_take, Nat.add_sub_cancel_left]
    congr 2
    unfold headerLength at hk
    omega

/-- What is put behind a datagram is more than its header declares. -/
theorem payload_of_surplus {text e : List UInt8} (ht : text.length < 0x100000000) (he : e ≠ []) :
    payload (frame text ++ e) = .error (.extended e.length) := by
  have hpos := List.length_pos_iff.mpr he
  have happend : frame text ++ e = version :: fourOctets text.length ++ (text ++ e) :=
    List.append_assoc _ _ _
  rw [happend, payload_declared ht, List.length_append, if_neg (by omega), if_pos (by omega),
    Nat.add_sub_cancel_left]

/-- Another header does not go with the same text. -/
theorem payload_of_altered {d text : List UInt8} (hd : headerLength ≤ d.length)
    (htext : d.drop headerLength = text) (hne : d ≠ frame text) :
    ∃ damage, payload d = .error damage ∧ ((∃ v, damage = .wrongVersion v) ∨
      (∃ n, damage = .truncated text.length n) ∨ ∃ n, damage = .extended n) := by
  cases hp : payload d with
  | ok text' =>
    obtain ⟨rfl, _⟩ := eq_frame_of_payload hp
    exact absurd (congrArg frame htext) hne
  | error damage =>
    refine ⟨damage, rfl, ?_⟩
    unfold payload at hp
    split at hp
    · dsimp only at hp
      split at hp
      · cases hp
        exact .inl ⟨_, rfl⟩
      · split at hp
        · cases hp
          exact .inr (.inl ⟨_, congrArg (Damage.truncated · _) (congrArg List.length htext)⟩)
        · split at hp
          · cases hp
            exact .inr (.inr ⟨_, rfl⟩)
          · cases hp
    · rename_i hshort
      -- Nothing this long lacks a part of the header.
      match d, hd with
      | v :: a :: b :: c :: e :: rest, _ => exact absurd rfl (hshort v a b c e rest)

/-- Whatever a datagram is that is accepted: what it is cut down to is refused as too short or as
truncated, what it is part of is refused for what is put behind it, and with any other header it is
refused for its version or its length. So no accepted datagram starts another one, and the header of
one follows from its text. -/
theorem damage_told {d : List UInt8} {m : Message} (h : decode d = .ok m) :
    (∀ p, p <+: d → p ≠ d → decode p = .error (.malformed
      (if p.length < 5 then .tooShort p.length
        else .truncated (p.length - 5) (d.length - 5)))) ∧
    (∀ e, e ≠ [] → decode (d ++ e) = .error (.malformed (.extended e.length))) ∧
    (∀ d', d'.length = d.length → d'.drop 5 = d.drop 5 → d' ≠ d →
      ∃ damage, decode d' = .error (.malformed damage) ∧ ((∃ v, damage = .wrongVersion v) ∨
        (∃ n, damage = .truncated (d.length - 5) n) ∨ ∃ n, damage = .extended n)) ∧
    (∀ d' m', decode d' = .ok m' → d <+: d' → d' = d) ∧
    ∀ d' m', decode d' = .ok m' → d'.drop 5 = d.drop 5 → d' = d := by
  obtain ⟨text, rfl, htext⟩ := eq_frame_of_decode h
  have hlength : (frame text).length - 5 = text.length := by
    rw [length_frame, Nat.add_sub_cancel_left]
  rw [hlength]
  refine ⟨fun p hp hne => ?_, fun e he => ?_, fun d' hlong hdrop hne => ?_, ?_, ?_⟩
  · have htake := List.prefix_iff_eq_take.mp hp
    have hlt : p.length < (frame text).length := by
      refine Nat.lt_of_le_of_ne hp.length_le fun heq => hne ?_
      rw [htake, heq, List.take_length]
    have hcut := payload_of_cut htext hlt
    rw [← htake] at hcut
    exact decode_of_payload_error hcut
  · exact decode_of_payload_error (payload_of_surplus htext he)
  · have hheader : headerLength ≤ d'.length := by
      rw [hlong, length_frame]
      exact Nat.le_add_right _ _
    obtain ⟨damage, hdamage, hkind⟩ := payload_of_altered hheader hdrop hne
    exact ⟨damage, decode_of_payload_error hdamage, hkind⟩
  · rintro d' m' hd' ⟨e, rfl⟩
    by_contra hne
    have he : e ≠ [] := fun hnil => hne (hnil ▸ List.append_nil _)
    rw [decode_of_payload_error (payload_of_surplus htext he)] at hd'
    cases hd'
  · intro d' m' hd' hdrop
    obtain ⟨text', rfl, _⟩ := eq_frame_of_decode hd'
    exact congrArg frame hdrop

/-- A list that holds a chat, cut in its text and in its header, extended, and of another version.
-/
theorem damage_told_list :
    let d := frame (Message.listJson ⟨.chat, "ann", Message.everyone, .text "hi"⟩)
    decode d = .ok ⟨.chat, "ann", Message.everyone, .text "hi"⟩ ∧
      decode (d.take 7) = .error (.malformed (.truncated 2 40)) ∧
      decode (d.take 3) = .error (.malformed (.tooShort 3)) ∧
      decode (d ++ [0x7D]) = .error (.malformed (.extended 1)) ∧
      ∃ damage, decode (2 :: d.tail) = .error (.malformed damage) := by
  intro d
  have hdecode : decode d = .ok ⟨.chat, "ann", Message.everyone, .text "hi"⟩ :=
    (decode_listJson (by decide) (by decide +kernel)).1
  obtain ⟨hcut, hextended, haltered, _⟩ := damage_told hdecode
  refine ⟨hdecode, ?_, ?_, hextended _ nofun, ?_⟩
  · rw [hcut _ (List.take_prefix _ _) (by decide +kernel)]
    exact congrArg (Except.error ∘ ProtocolError.malformed) (by decide +kernel)
  · rw [hcut _ (List.take_prefix _ _) (by decide +kernel)]
    exact congrArg (Except.error ∘ ProtocolError.malformed) (by decide +kernel)
  · obtain ⟨damage, hdamage, _⟩ := haltered (2 :: d.tail) rfl rfl (by decide +kernel)
    exact ⟨damage, hdamage⟩

end ChatRelay.Datagram
