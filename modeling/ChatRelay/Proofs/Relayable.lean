import ChatRelay.Proofs.ShortestForm
import ChatRelay.Proofs.Schedule

namespace ChatRelay

open Json

/-- A message that has to be passed on came in with some datagram. -/
theorem exists_ingest_of_relayed {m : Message} {turns : List Turn}
    (h : m ∈ relayed (Turn.arrivals turns)) :
    ∃ x ∈ turns, ∃ a d, x.step = .ingest a d ∧ Datagram.decode d = .ok m := by
  obtain ⟨⟨a, _⟩, harrival, rfl⟩ := List.mem_map.mp (List.mem_filter.mp h).1
  obtain ⟨step, hstep, harrival⟩ := List.mem_filterMap.mp harrival
  obtain ⟨x, hx, rfl⟩ := List.mem_map.mp hstep
  refine ⟨x, hx, ?_⟩
  unfold Step.arrival? at harrival
  split at harrival
  · rename_i d hd
    split at harrival
    · cases harrival
      exact ⟨_, d, hd, ‹_›⟩
    · cases harrival
  · cases harrival
  · cases harrival

namespace Datagram

theorem encode_of_length {m : Message} (h : (frame m.json).length ≤ maxLength) :
    encode m = .ok (frame m.json) :=
  encode_eq_ok.mpr ⟨h, rfl⟩

theorem encode_of_long {m : Message} (h : maxLength < (frame m.json).length) :
    encode m = .error (.tooLarge (frame m.json).length maxLength) :=
  (encode_eq m).trans (if_neg (Nat.not_le_of_lt h))

theorem length_of_encode_error {m : Message} {cause : ProtocolError}
    (h : encode m = .error cause) : maxLength < (frame m.json).length := by
  by_contra hle
  rw [encode_of_length (Nat.le_of_not_lt hle)] at h
  cases h

/-- Only a list of almost full length holds a message that cannot be encoded again. -/
theorem length_of_decode_of_encode_error {d : List UInt8} {m : Message} {cause : ProtocolError}
    (h : decode d = .ok m) (he : encode m = .error cause) (hd : d.length ≤ 65507) :
    65471 ≤ d.length ∧ opening? d = some openList := by
  have hlong := length_of_encode_error he
  unfold maxLength at hlong
  rcases length_of_decode h with ⟨_, hle⟩ | ⟨hopen, hle⟩
  · omega
  · exact ⟨by omega, hopen⟩

def letterChat (k : Nat) : Message :=
  ⟨.chat, "a", Message.everyone, .text (String.ofList (List.replicate k 'a'))⟩

theorem width_letterChat (k : Nat) : (letterChat k).width = k + 78 := by
  have hkind : stringWidth Message.Kind.chat.tag = 6 := by decide
  have hsource : stringWidth "a" = 3 := by decide
  have hletter : charWidth 'a' = 1 := by decide
  rw [letterChat, Message.width_toEveryone, stringWidth_replicate, hkind, hsource, hletter]
  omega

theorem length_listJson_letterChat (k : Nat) : (letterChat k).listJson.length = k + 36 := by
  have hwidth := width_letterChat k
  have hlist := (letterChat k).length_listJson
  rw [Message.width_eq] at hwidth
  omega

/-- Each of these lengths is that of a datagram whose message cannot be encoded again. -/
theorem exists_unwritable {l : Nat} (h : 65471 ≤ l) (h' : l ≤ 65507) :
    ∃ d m cause, d.length = l ∧ decode d = .ok m ∧ encode m = .error cause ∧ m.kind = .chat := by
  obtain ⟨k, rfl⟩ : ∃ k, l = k + 41 := ⟨l - 41, by omega⟩
  have hlist := length_listJson_letterChat k
  have hjson := (letterChat k).length_listJson
  have hvalid : (letterChat k).Valid := rfl
  obtain ⟨hdecode, _, hlength⟩ := decode_listJson hvalid (by omega)
  have hlong : (frame (letterChat k).listJson).length = k + 41 := by
    rw [length_frame]
    omega
  exact ⟨_, _, _, hlong, hdecode, encode_of_long (by unfold maxLength; omega), rfl⟩

end Datagram

namespace Node

variable (n : Node) (s : State)

/-- The log tells of a message that cannot be encoded only where one has been taken. -/
theorem exists_taken_of_unwritable {x : Turn} {cause : ProtocolError}
    (h : .unwritable cause ∈ (n.moment s x).output.log) :
    ∃ m, (n.moment s x).taken? = some m ∧ Datagram.encode m = .error cause := by
  revert h
  refine n.moment_cases s x ?_ ?_ ?_ ?_ ?_
  · exact fun e a d cause' hd h => nomatch List.mem_singleton.mp h
  · intro e a d m hd h
    simp [acceptEvents] at h
  · exact fun e hq h => nomatch h
  · intro e m queue hq h
    refine ⟨m, congrArg List.head? hq, ?_⟩
    rw [Output.log_append, List.mem_append] at h
    rcases h with h | h
    · rcases mem_log_relay e h with ⟨_, heq, hd⟩ | heq | ⟨_, heq⟩ | ⟨_, _, heq⟩ <;> cases heq
      exact hd
    · obtain ⟨_, heq⟩ := mem_log_deliver e h
      cases heq
  · intro e side h
    rcases n.mem_log_syncSide e h with ⟨_, heq⟩ | ⟨_, heq⟩ | ⟨_, _, heq⟩ | ⟨_, heq⟩ <;> cases heq

/-- A message that a node takes from its queue came in with a datagram before. -/
theorem exists_ingest_of_taken {turns : List Turn} {x : Turn} {m : Message}
    (h : (n.moment (n.play .initial turns).1 x).taken? = some m) :
    ∃ y ∈ turns, ∃ a d, y.step = .ingest a d ∧ Datagram.decode d = .ok m := by
  refine exists_ingest_of_relayed ?_
  obtain ⟨e, step⟩ := x
  cases step with
  | ingest a d => cases h
  | sync side => cases h
  | dispatch =>
    have hqueue : m ∈ (n.play .initial turns).1.queue := List.mem_of_head? h
    have hall := n.taken_append_queue .initial turns
    change _ = relayed (Turn.arrivals turns) at hall
    rw [← hall]
    exact List.mem_append_right _ hqueue

/-- A node that takes in a message that cannot be encoded again, and then dispatches it, says so. -/
theorem unwritable_mem_log {e : Surroundings} {a : Address} {d : List UInt8} {m : Message}
    {cause : ProtocolError} (hd : Datagram.decode d = .ok m) (hm : m.kind.isSync = false)
    (he : Datagram.encode m = .error cause) :
    .unwritable cause ∈
      (n.moment (n.play .initial [⟨e, .ingest a d⟩]).1 ⟨e, .dispatch⟩).output.log := by
  change _ ∈ (dispatch e (n.ingest a d .initial).1).2.log
  have hqueue : (accept m a .initial).queue = [m] := queue_accept a .initial hm
  rw [n.ingest_of_decode .initial hd, dispatch_cons e hqueue, relay_of_error e _ he]
  exact List.mem_cons_self

open Datagram in
/-- What is accepted as an object can be encoded again in no more room, what is accepted as a list
in 37 octets more at most, as many as the list form of every message saves. So a node that takes in
no more than a datagram holds fails to encode a message again only where it came as a list in a
datagram of 65471 octets or more, and with each length from there on it does. -/
theorem accepted_relayable :
    (∀ d m, decode d = .ok m →
      (frame m.json).length ≤ d.length + 37 ∧
      (opening? d = some openObject → (frame m.json).length ≤ d.length) ∧
      (d.length ≤ 65470 → encode m = .ok (frame m.json)) ∧
      (opening? d = some openObject → d.length ≤ 65507 → encode m = .ok (frame m.json))) ∧
    (∀ m : Message, m.Valid → m.json.length < 0x100000000 →
      ∃ d, decode d = .ok m ∧ (frame m.json).length = d.length + 37) ∧
    (∀ l, 65471 ≤ l → l ≤ 65507 →
      ∃ d m cause, d.length = l ∧ decode d = .ok m ∧ encode m = .error cause ∧
        ∀ (n : Node) (e : Surroundings) (a : Address), .unwritable cause ∈
          (n.moment (n.play .initial [⟨e, .ingest a d⟩]).1 ⟨e, .dispatch⟩).output.log) ∧
    ∀ (n : Node) (turns : List Turn) (x : Turn) (cause : ProtocolError),
      (∀ y ∈ turns, ∀ a d, y.step = .ingest a d → d.length ≤ 65507) →
      .unwritable cause ∈ (n.moment (n.play .initial turns).1 x).output.log →
      ∃ y ∈ turns, ∃ a d m, y.step = .ingest a d ∧ decode d = .ok m ∧
        (n.moment (n.play .initial turns).1 x).taken? = some m ∧ encode m = .error cause ∧
        65471 ≤ d.length ∧ d.length ≤ 65507 ∧ opening? d = some openList := by
  refine ⟨?_, ?_, ?_, ?_⟩
  · intro d m h
    have hobject : opening? d = some openObject → (frame m.json).length ≤ d.length := by
      intro hopen
      rcases length_of_decode h with ⟨_, hle⟩ | ⟨hlist, _⟩
      · exact hle
      · rw [hopen] at hlist
        cases hlist
    have hany : (frame m.json).length ≤ d.length + 37 := by
      rcases length_of_decode h with ⟨_, hle⟩ | ⟨_, hle⟩ <;> omega
    refine ⟨hany, hobject, fun hd => encode_of_length ?_, fun hopen hd => encode_of_length ?_⟩
    · unfold maxLength
      omega
    · exact Nat.le_trans (hobject hopen) hd
  · intro m hv hlength
    obtain ⟨hdecode, _, hlonger⟩ := decode_listJson hv hlength
    exact ⟨_, hdecode, hlonger⟩
  · intro l hlower hupper
    obtain ⟨d, m, cause, hl, hdecode, hcause, hkind⟩ := exists_unwritable hlower hupper
    have hm : m.kind.isSync = false := by rw [hkind]; rfl
    exact ⟨d, m, cause, hl, hdecode, hcause, fun n e a => n.unwritable_mem_log hdecode hm hcause⟩
  · intro n turns x cause hshort hlog
    obtain ⟨m, htaken, hcause⟩ := n.exists_taken_of_unwritable _ hlog
    obtain ⟨y, hy, a, d, hstep, hdecode⟩ := n.exists_ingest_of_taken htaken
    have hle := hshort y hy a d hstep
    obtain ⟨hlong, hopen⟩ := length_of_decode_of_encode_error hdecode hcause hle
    exact ⟨y, hy, a, d, m, hstep, hdecode, htaken, hcause, hlong, hle, hopen⟩

end Node

end ChatRelay
