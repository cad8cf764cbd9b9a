import ChatRelay.Proofs.ClientCourses
import ChatRelay.Proofs.Interleaving
import ChatRelay.Proofs.NeighborSlots

namespace ChatRelay

namespace Message

open Json

/-- A message, and what it becomes by one more character at the end of one of its strings or one
more client at the end of its roster. -/
inductive Grows : Message → Message → Prop where
  | source (m : Message) (c : Char) : Grows m { m with source := m.source.push c }
  | destination (m : Message) (c : Char) : Grows m { m with destination := m.destination.push c }
  | text (m : Message) (t : String) (c : Char) :
    Grows { m with body := .text t } { m with body := .text (t.push c) }
  | id (m : Message) (before : List String) (id : String) (after : List String) (c : Char) :
    Grows { m with body := .roster (before ++ id :: after) }
      { m with body := .roster (before ++ id.push c :: after) }
  | roster (m : Message) (ids : List String) (id : String) :
    Grows { m with body := .roster ids } { m with body := .roster (ids ++ [id]) }

/-- There is no character that takes no room, nor a client. -/
theorem width_lt_of_grows {m m' : Message} (h : m.Grows m') : m.width < m'.width := by
  have hpush : ∀ (s : String) (c : Char), stringWidth s < stringWidth (s.push c) := by
    intro s c
    rw [stringWidth_push]
    exact Nat.lt_add_of_pos_right (charWidth_pos c)
  cases h with
  | source _ c =>
    obtain ⟨kind, source, destination, body⟩ := m
    have := hpush source c
    simp only [width_mk]
    omega
  | destination _ c =>
    obtain ⟨kind, source, destination, body⟩ := m
    have := hpush destination c
    simp only [width_mk]
    omega
  | text m t c =>
    have := hpush t c
    simp only [width_mk, Body.width_text]
    omega
  | id m before id after c =>
    have := hpush id c
    simp only [width_mk, Body.width_roster, rosterWidth, List.map_append, List.map_cons,
      List.sum_append, List.sum_cons, List.length_append, List.length_cons]
    omega
  | roster m ids id =>
    have := rosterWidth_concat_lt ids id
    simp only [width_mk, Body.width_roster]
    omega

end Message

namespace Datagram

/-- The octets of a message that some datagram can hold. -/
theorem encode_eq_ok_iff_width {m : Message} {d : List UInt8} :
    encode m = .ok d ↔ m.width ≤ 65507 ∧
      ∃ w, word? (m.width - 5) = some w ∧ d = 1 :: bigEndian w ++ m.json := by
  have hjson : m.width - 5 = m.json.length := by rw [Message.width_eq, Nat.add_sub_cancel]
  rw [encode_eq_ok, Message.length_frame_json, hjson]
  constructor
  · rintro ⟨hle, rfl⟩
    have hw : m.json.length < UInt32.size := by
      have := m.width_eq
      unfold maxLength at hle
      unfold UInt32.size
      omega
    refine ⟨hle, UInt32.ofNat m.json.length, if_pos hw, ?_⟩
    rw [← fourOctets_toNat, UInt32.toNat_ofNat_of_lt' hw]
    rfl
  · rintro ⟨hle, w, hw, rfl⟩
    refine ⟨hle, ?_⟩
    rw [← fourOctets_toNat, ← word?_eq_some.mp hw]
    rfl

/-- The width is the only cause of failure. -/
theorem encode_eq_error {m : Message} {cause : ProtocolError} :
    encode m = .error cause ↔ 65507 < m.width ∧ cause = .tooLarge m.width 65507 := by
  rw [← Message.length_frame_json]
  constructor
  · intro h
    have hlong := length_of_encode_error h
    rw [encode_of_long hlong] at h
    cases h
    exact ⟨hlong, rfl⟩
  · rintro ⟨hlong, rfl⟩
    exact encode_of_long hlong

end Datagram

/-- Where no client leaves, those that come stand behind those that are there. -/
theorem Registry.clients_of_no_disconnect {ms : List (Address × Message)}
    (h : ∀ x ∈ ms, x.2.kind ≠ .disconnect) (r : Registry) :
    (r.receiveAll ms).clients = r.clients ++ openings ms := by
  induction ms using List.reverseRecOn with
  | nil => exact (List.append_nil _).symm
  | append_singleton ms x ih =>
    have hx : x.2.kind ≠ .disconnect := h x (by simp)
    rw [receiveAll_append, openings_concat, ← List.append_assoc,
      ← ih fun y hy => h y (List.mem_append_left _ hy)]
    change ((r.receiveAll ms).receive x.2 x.1).clients = _
    rw [clients_receive]
    cases hk : x.2.kind with
    | connect => rfl
    | disconnect => exact absurd hk hx
    | chat => exact (List.append_nil _).symm
    | privateMessage => exact (List.append_nil _).symm
    | syncLeft => exact (List.append_nil _).symm
    | syncRight => exact (List.append_nil _).symm

namespace Node

variable (n : Node) {side : Side}

theorem width_rosterMessage_le (side : Side) (destination : String) (ids more : List String) :
    (n.rosterMessage side destination ids).width ≤
      (n.rosterMessage side destination (ids ++ more)).width := by
  have := Json.rosterWidth_append_le ids more
  simp only [rosterMessage, Message.width_mk, Message.Body.width_roster]
  omega

/-- Where nobody leaves, clients only come behind those that are there. -/
theorem clientIds_play {s : State} {turns : List Turn}
    (h : ∀ x ∈ Turn.arrivals turns, x.2.kind ≠ .disconnect) :
    (n.play s turns).1.registry.clientIds =
      s.registry.clientIds ++ (openings (Turn.arrivals turns)).map (·.id) := by
  unfold Registry.clientIds
  rw [(n.play_alike s turns).clients, Registry.clients_of_no_disconnect h, List.map_append]

section Wide

variable {c : Connection} {r : Registry} {s : State}

theorem rosterDatagram_of_wide (hname : n.name ≠ "")
    (h : 65507 < (n.rosterMessage side c.id r.clientIds).width) :
    n.rosterDatagram side c r =
      .error (.tooLarge (n.rosterMessage side c.id r.clientIds).width 65507) := by
  have hsync : Message.sync r.clientIds n.name c.id side.syncKind =
      .ok (n.rosterMessage side c.id r.clientIds) :=
    Message.checked_eq_ok.mpr ⟨n.valid_rosterMessage.mpr hname, rfl⟩
  unfold rosterDatagram
  rw [hsync]
  exact Datagram.encode_eq_error.mpr ⟨h, rfl⟩

/-- With a name or without, a node cannot tell what no datagram can hold. -/
theorem exists_error_of_wide (h : 65507 < (n.rosterMessage side c.id r.clientIds).width) :
    ∃ cause, n.rosterDatagram side c r = .error cause := by
  cases hd : n.rosterDatagram side c r with
  | error cause => exact ⟨cause, rfl⟩
  | ok d =>
    have hle := (Datagram.encode_eq_ok_iff_width.mp (n.rosterDatagram_iff.mp hd).2).1
    exact absurd h (Nat.not_lt_of_le hle)

/-- A roster that no datagram can hold leaves nothing but a warning. -/
theorem syncSide_of_wide (e : Surroundings) (hc : s.registry.neighbor side = some c)
    (h : 65507 < (n.rosterMessage side c.id s.registry.clientIds).width) :
    (n.syncSide e side s).1 = s ∧ (n.syncSide e side s).2.attempts = [] ∧
      (n.name ≠ "" → n.topology.neighbor? side n.position ≠ none →
        (n.syncSide e side s).2.log = [.rosterUnwritable side
          (.tooLarge (n.rosterMessage side c.id s.registry.clientIds).width 65507)]) := by
  cases hp : n.topology.neighbor? side n.position with
  | none =>
    rw [n.syncSide_of_end e s hp]
    exact ⟨rfl, rfl, fun _ hne => absurd rfl hne⟩
  | some p =>
    obtain ⟨cause, hd⟩ := n.exists_error_of_wide h
    rw [n.syncSide_of_known e hp hc]
    unfold pushRoster
    rw [hd]
    refine ⟨rfl, rfl, fun hname _ => ?_⟩
    rw [n.rosterDatagram_of_wide hname h] at hd
    cases hd
    rfl

theorem pushPlan_of_wide (h : ∀ c, r.neighbor side = some c →
    65507 < (n.rosterMessage side c.id r.clientIds).width) : n.pushPlan side r = [] := by
  unfold pushPlan
  split
  · rename_i c hrow hc
    obtain ⟨cause, hd⟩ := n.exists_error_of_wide (h c hc)
    rw [hd]
  · rfl

/-- A roster that is too wide is pushed to nobody. -/
theorem pushes_of_wide (x : Turn) (h : ∀ c, s.registry.neighbor side = some c →
    65507 < (n.rosterMessage side c.id s.registry.clientIds).width) :
    (n.moment s x).pushes side = [] := by
  obtain ⟨e, step⟩ := x
  unfold Moment.pushes
  split
  · rename_i hstep
    change step = .sync side at hstep
    subst hstep
    exact (n.pushes_syncSide e side s).trans (n.pushPlan_of_wide h)
  · rfl

/-- As long as no client leaves, a roster that is too wide for a neighbor is never told it. -/
theorem pushedTo_of_wide {turns : List Turn}
    (hstay : ∀ x ∈ Turn.arrivals turns, x.2.kind ≠ .disconnect)
    (hc : (n.play s turns).1.registry.neighbor side = some c)
    (h : 65507 < (n.rosterMessage side c.id s.registry.clientIds).width) :
    n.pushedTo side s turns = [] := by
  induction turns generalizing s with
  | nil => rfl
  | cons x turns ih =>
    rw [Turn.arrivals_cons] at hstay
    have hone : Turn.arrivals [x] = x.step.arrival?.toList :=
      (Turn.arrivals_cons x []).trans (List.append_nil _)
    have hx : ∀ y ∈ Turn.arrivals [x], y.2.kind ≠ .disconnect :=
      fun y hy => hstay y (List.mem_append_left _ (hone ▸ hy))
    have hids := n.clientIds_play (s := s) hx
    rw [pushedTo_cons, n.pushes_of_wide x, List.nil_append]
    · refine ih (fun y hy => hstay y (List.mem_append_right _ hy)) hc ?_
      change (n.moment s x).after.registry.clientIds = _ at hids
      rw [hids]
      exact Nat.lt_of_lt_of_le h (n.width_rosterMessage_le side c.id _ _)
    · -- A slot that is full already is the one that is full in the end.
      intro c' hc'
      rw [neighbor_play, hc', Option.some_or] at hc
      cases hc
      exact h

end Wide

end Node

open Datagram in
/-- A message can be encoded if and only if its width is at most 65507. It then takes as many octets
as its width, the first five of which are the version and what the text takes; else the width is the
cause of failure, and there is no other cause. The longer a string or a roster, the wider a message.
So a roster that is too wide to be told stays so whoever comes, unless someone leaves. -/
theorem encode_by_width :
    (∀ m : Message, m.width = 5 + m.json.length) ∧
    (∀ (m : Message) (d : List UInt8), encode m = .ok d ↔ m.width ≤ 65507 ∧
      ∃ w, word? (m.width - 5) = some w ∧ d = 1 :: bigEndian w ++ m.json) ∧
    (∀ (m : Message) (d : List UInt8), encode m = .ok d → d.length = m.width) ∧
    (∀ (m : Message) (cause : ProtocolError), encode m = .error cause ↔
      65507 < m.width ∧ cause = .tooLarge m.width 65507) ∧
    (∀ m m' : Message, m.Grows m' → m.width < m'.width) ∧
    ∀ (n : Node) (s : State) (side : Side) (turns : List Turn),
      (∀ x ∈ Turn.arrivals turns, x.2.kind ≠ .disconnect) →
      let s' := (n.play s turns).1
      s'.registry.clientIds =
        s.registry.clientIds ++ (openings (Turn.arrivals turns)).map (·.id) ∧
      (∀ c, s.registry.neighbor side = some c → s'.registry.neighbor side = some c) ∧
      ∀ c, s'.registry.neighbor side = some c →
        65507 < (n.rosterMessage side c.id s.registry.clientIds).width →
        let w := (n.rosterMessage side c.id s'.registry.clientIds).width
        n.pushedTo side s turns = [] ∧ 65507 < w ∧ ∀ e : Surroundings,
          (n.syncSide e side s').1 = s' ∧ (n.syncSide e side s').2.attempts = [] ∧
          (n.name ≠ "" → n.topology.neighbor? side n.position ≠ none →
            (n.syncSide e side s').2.log = [.rosterUnwritable side (.tooLarge w 65507)]) := by
  refine ⟨fun m => m.width_eq.trans (Nat.add_comm _ _), fun m d => encode_eq_ok_iff_width, ?_,
    fun m cause => encode_eq_error, fun m m' => Message.width_lt_of_grows, ?_⟩
  · intro m d h
    rw [(encode_eq_ok.mp h).2, Message.length_frame_json]
  · intro n s side turns hstay
    have hids := n.clientIds_play (s := s) hstay
    refine ⟨hids, ?_, ?_⟩
    · intro c hc
      rw [n.neighbor_play side s turns, hc, Option.some_or]
    · intro c hc hwide
      have hw : 65507 < (n.rosterMessage side c.id (n.play s turns).1.registry.clientIds).width :=
        hids ▸ Nat.lt_of_lt_of_le hwide (n.width_rosterMessage_le side c.id _ _)
      exact ⟨n.pushedTo_of_wide hstay hc hwide, hw, fun e => n.syncSide_of_wide e hc hw⟩

namespace ChatClient

theorem size_hello (username : String) :
    (hello username).size = 78 + Json.stringWidth username := by
  have hkind : Json.stringWidth Message.Kind.connect.tag = 9 := by decide
  have hempty : Json.stringWidth "" = 2 := by decide
  rw [Message.size_eq_width, hello, Message.width_toEveryone, hkind, hempty]
  omega

theorem decode_hello {username : String} (hn : username ≠ "")
    (h : (hello username).fits = true) :
    Datagram.decode (Datagram.frame (hello username).json) = .ok (hello username) :=
  Datagram.decode_of_encode (Message.encode_of_fits h) (valid_hello hn)

end ChatClient

section Crowd

open ChatClient Node

def crowding (username : String) : List Turn :=
  [⟨.calm, .sync .right⟩, ⟨.calm, hears (hello username)⟩]

theorem neighbor_crowding (username : String) :
    (standardLeft.play .initial (crowding username)).1.registry.neighbor .right =
      some ⟨"middle", ⟨.v4 127 0 0 1, 8081⟩⟩ := by
  rw [neighbor_play_initial]
  rfl

/-- The longest name of its letter that a client can register with. -/
def longName : String := String.ofList (List.replicate 65427 'a')

/-- No more of the name is needed than its width. As any name of this width it is not computed. -/
theorem exists_longName : ∃ username, longName = username ∧ '\x00' ∉ username.toList ∧
    username ≠ "" ∧ Json.stringWidth username = 65429 := by
  have hwidth : Json.stringWidth longName = 65429 := Json.stringWidth_replicate 65427 'a'
  refine ⟨_, rfl, fun h => ?_, fun h => ?_, hwidth⟩
  · unfold longName at h
    rw [String.toList_ofList] at h
    exact absurd (List.eq_of_mem_replicate h) (by decide)
  · rw [h] at hwidth
    exact absurd hwidth (by decide)

theorem arrivals_crowding {username : String} (hn : username ≠ "")
    (h : (hello username).fits = true) :
    Turn.arrivals (crowding username) = [(⟨.v4 10 0 0 9, 9⟩, hello username)] := by
  unfold crowding hears
  rw [Turn.arrivals_cons, Turn.arrivals_cons, Step.arrival?_of_decode (decode_hello hn h)]
  rfl

theorem width_crowding (username : String) :
    (standardLeft.rosterMessage .right "middle" [username]).width =
      85 + Json.stringWidth username := by
  have hkind : Json.stringWidth Side.right.syncKind.tag = 11 := by decide
  have hsource : Json.stringWidth standardLeft.name = 6 := by decide
  have hdestination : Json.stringWidth "middle" = 8 := by decide
  simp only [rosterMessage, Message.width_mk, Message.Body.width_roster, Json.rosterWidth,
    List.map_cons, List.sum_cons, List.map_nil, List.sum_nil, List.length_singleton, hkind, hsource,
    hdestination]
  omega

def bobComes : List Turn :=
  [⟨.calm, hears (hello "bob")⟩, ⟨.calm, .sync .right⟩]

/-- A chat fills a datagram, and with one more letter it is too wide. The roster of one client with
a long name is too wide for the neighbor, and is so when another client has come. -/
theorem encode_by_width_crowding :
    (∃ d, Datagram.encode (Datagram.letterChat 65429) = .ok d ∧ d.length = 65507) ∧
    Datagram.encode (Datagram.letterChat 65430) = .error (.tooLarge 65508 65507) ∧
    let s := (standardLeft.play .initial (crowding longName)).1
    let s' := (standardLeft.play s bobComes).1
    s'.registry.clientIds = [longName, "bob"] ∧
    standardLeft.pushedTo .right s bobComes = [] ∧
    (standardLeft.syncSide .calm .right s').1 = s' ∧
    (standardLeft.syncSide .calm .right s').2.attempts = [] := by
  obtain ⟨_, _, hlength, herror, _, hcrowd⟩ := encode_by_width
  have hfull : Datagram.encode (Datagram.letterChat 65429) =
      .ok (Datagram.frame (Datagram.letterChat 65429).json) := by
    refine Datagram.encode_of_length ?_
    rw [Message.length_frame_json, Datagram.width_letterChat]
    decide
  refine ⟨⟨_, hfull, ?_⟩, (herror _ _).mpr ?_, ?_⟩
  · rw [hlength _ _ hfull, Datagram.width_letterChat]
  · rw [Datagram.width_letterChat]
    decide
  · obtain ⟨username, heq, _, hne, hwidth⟩ := exists_longName
    rw [heq]
    intro s s'
    have hbob : Turn.arrivals bobComes = [(⟨.v4 10 0 0 9, 9⟩, hello "bob")] := by
      decide +kernel
    have hfits : (hello username).fits = true :=
      Message.fits_iff.mpr (by rw [size_hello, hwidth])
    have harrivals := arrivals_crowding hne hfits
    obtain ⟨hids, _⟩ := hcrowd standardLeft .initial .right (crowding username) (by
      rw [harrivals]
      exact List.forall_mem_singleton.mpr nofun)
    obtain ⟨hids', hstays, hpush⟩ := hcrowd standardLeft s .right bobComes (by
      rw [hbob]
      exact List.forall_mem_singleton.mpr nofun)
    have hs : s.registry.clientIds = [username] := by
      rw [harrivals] at hids
      exact hids
    have hwide : 65507 <
        (standardLeft.rosterMessage .right "middle" s.registry.clientIds).width := by
      rw [hs, width_crowding, hwidth]
      decide
    rw [hbob, hs] at hids'
    obtain ⟨hnone, _, hfails⟩ := hpush _ (hstays _ (neighbor_crowding username)) hwide
    exact ⟨hids', hnone, (hfails .calm).1, (hfails .calm).2.1⟩

end Crowd

end ChatRelay
