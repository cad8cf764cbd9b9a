import ChatRelay.Client
import ChatRelay.Proofs.DatagramCodec

namespace ChatRelay

section Threads

variable {name suffix : String}

theorem spawn_eq_ok : spawn name = .ok () ↔ '\x00' ∉ name.toList := by
  unfold spawn
  split <;> simp_all

theorem spawn_append_eq_ok (hs : '\x00' ∉ suffix.toList) :
    spawn (name ++ suffix) = .ok () ↔ '\x00' ∉ name.toList := by
  rw [spawn_eq_ok, String.toList_append, List.mem_append, or_iff_left hs]

theorem spawn_append_of_zero (h : '\x00' ∈ name.toList) :
    spawn (name ++ suffix) = .error (.panic ⟨name ++ suffix⟩) :=
  if_pos (by simp [h])

end Threads

namespace Message

theorem withText_eq_ok {kind : Kind} {source destination text : String} {m : Message} :
    withText kind source destination text = .ok m ↔
      m.Valid ∧ m = ⟨kind, source, destination, .text text⟩ := by
  unfold withText
  rw [checked_eq_ok]
  constructor
  · rintro ⟨hv, rfl⟩
    exact ⟨hv, rfl⟩
  · rintro ⟨hv, rfl⟩
    exact ⟨hv, rfl⟩

end Message

namespace ChatClient

section Post

variable {send : Address → Except String Unit} {x : Except Message.Flaw Message}
  {c c' : ChatClient} {d : List UInt8}

/-- A message gets away if it can be built, fits into a datagram, and can be sent. -/
theorem post_eq_ok :
    c.post send x = (.ok d, c') ↔
      ∃ m, x = .ok m ∧ Datagram.encode m = .ok d ∧ send c.server = .ok () ∧
        c' = { c with sent := c.sent + 1 } := by
  unfold post
  constructor
  · intro h
    split at h
    · cases h
    · split at h
      · cases h
      · split at h
        · cases h
        · cases h
          exact ⟨_, rfl, ‹_›, ‹_›, rfl⟩
  · rintro ⟨m, rfl, hd, hs, rfl⟩
    simp only [hd, hs]

/-- What does not get away leaves the client as it was. -/
theorem client_of_post_error {cause : RelayError} (h : c.post send x = (.error cause, c')) :
    c' = c := by
  unfold post at h
  split at h
  · cases h
    rfl
  · split at h
    · cases h
      rfl
    · split at h
      · cases h
        rfl
      · cases h

end Post

section Connect

variable {send : Address → Except String Unit} {server : Address} {username : String}

/-- No thread can be called after a name that holds the zero character. -/
theorem connect_of_zero (h : '\x00' ∈ username.toList) (send : Address → Except String Unit)
    (server : Address) :
    connect send server username = .error (.panic ⟨username ++ "-reader"⟩) := by
  unfold connect
  rw [spawn_append_of_zero h]
  rfl

/-- Once the thread of a client has started, all is up to its registration. -/
theorem connect_of_run (hz : '\x00' ∉ username.toList) {x : Except RelayError (List UInt8)}
    {c : ChatClient}
    (h : post send (Message.connect username) ⟨server, username, 0, []⟩ = (x, c)) :
    connect send server username = (x.map (c, ·)).mapError .error := by
  unfold connect
  rw [(spawn_append_eq_ok (by decide)).mpr hz, h]
  cases x <;> rfl

/-- A client comes about if its thread has a name that it can have and its registration gets away.
-/
theorem connect_eq_ok {c : ChatClient} {d : List UInt8} :
    connect send server username = .ok (c, d) ↔
      '\x00' ∉ username.toList ∧ ∃ m, Message.connect username = .ok m ∧
        Datagram.encode m = .ok d ∧ send server = .ok () ∧ c = ⟨server, username, 1, []⟩ := by
  by_cases hz : '\x00' ∈ username.toList
  · rw [connect_of_zero hz]
    exact ⟨nofun, fun h => absurd hz h.1⟩
  · rw [and_iff_right hz]
    refine Iff.trans ?_ (post_eq_ok (c := ⟨server, username, 0, []⟩))
    cases hrun : post send (Message.connect username) ⟨server, username, 0, []⟩ with
    | mk x c' =>
      rw [connect_of_run hz hrun]
      cases x with
      | error cause => exact ⟨nofun, nofun⟩
      | ok octets =>
        change Except.ok (c', octets) = .ok (c, d) ↔ (Except.ok octets, c') = (.ok d, c)
        simp [and_comm]

/-- A client comes to a bad end exactly where its name holds the zero character. -/
theorem connect_eq_panic {name : String} :
    connect send server username = .error (.panic ⟨name⟩) ↔
      '\x00' ∈ username.toList ∧ name = username ++ "-reader" := by
  by_cases hz : '\x00' ∈ username.toList
  · rw [connect_of_zero hz]
    simp [hz, eq_comm]
  · cases hrun : post send (Message.connect username) ⟨server, username, 0, []⟩ with
    | mk x c' =>
      rw [connect_of_run hz hrun]
      cases x <;> exact ⟨nofun, fun h => absurd h.1 hz⟩

end Connect

/-- A call changes no more of a client than its count. -/
theorem client_call (send : Address → Except String Unit) (x : Call) (c : ChatClient) :
    (c.call send x).2 = { c with sent := (c.call send x).2.sent } := by
  cases hx : c.call send x with
  | mk answer c' =>
    cases answer with
    | ok d =>
      obtain ⟨_, _, _, _, rfl⟩ := post_eq_ok.mp hx
      rfl
    | error cause =>
      cases client_of_post_error hx
      rfl

/-- The message of a call carries the name of the client and a text, and is no connect. -/
theorem message_eq_ok {username : String} {x : Call} {m : Message}
    (h : x.message username = .ok m) :
    m.Valid ∧ m.source = username ∧ m.kind.isSync = false ∧ m.kind ≠ .connect := by
  cases x with
  | chat text =>
    obtain ⟨hv, rfl⟩ := Message.withText_eq_ok.mp h
    exact ⟨hv, rfl, rfl, nofun⟩
  | privately destination text =>
    obtain ⟨hv, rfl⟩ := Message.withText_eq_ok.mp h
    exact ⟨hv, rfl, rfl, nofun⟩
  | disconnect =>
    obtain ⟨hv, rfl⟩ := Message.withText_eq_ok.mp h
    exact ⟨hv, rfl, rfl, nofun⟩

theorem receive_of_decode {d : List UInt8} {m : Message} (c : ChatClient)
    (h : Datagram.decode d = .ok m) : c.receive d = { c with inbox := c.inbox ++ [m] } := by
  simp only [receive, h]

@[simp] theorem username_receive (c : ChatClient) (d : List UInt8) :
    (c.receive d).username = c.username := by
  unfold receive
  split <;> rfl

end ChatClient

end ChatRelay
