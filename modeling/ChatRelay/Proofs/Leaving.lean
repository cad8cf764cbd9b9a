import ChatRelay.Proofs.SizeLaw

namespace ChatRelay

/-- What is taken out does not count among what never could be. -/
theorem filter_eraseP_of_disjoint {α : Type} {p q : α → Bool} (h : ∀ x, q x → p x = false)
    (l : List α) : (l.eraseP q).filter p = l.filter p := by
  induction l with
  | nil => rfl
  | cons x l ih =>
    cases hx : q x with
    | true => rw [List.eraseP_cons_of_pos hx, List.filter_cons_of_neg (by simp [h x hx])]
    | false => rw [List.eraseP_cons_of_neg (by simp [hx]), List.filter_cons, List.filter_cons, ih]

theorem filter_eraseP_self {α : Type} (p : α → Bool) (l : List α) :
    (l.eraseP p).filter p = (l.filter p).tail := by
  induction l with
  | nil => rfl
  | cons x l ih =>
    cases hx : p x with
    | true => rw [List.eraseP_cons_of_pos hx, List.filter_cons_of_pos hx, List.tail_cons]
    | false =>
      rw [List.eraseP_cons_of_neg (by simp [hx]), List.filter_cons_of_neg (by simp [hx]),
        List.filter_cons_of_neg (by simp [hx]), ih]

namespace Registry

def sessionsOf (r : Registry) (x : String) : List Connection := r.clients.filter (·.id = x)

def sessionsBut (r : Registry) (x : String) : List Connection := r.clients.filter (·.id ≠ x)

variable {r : Registry} {m : Message} {x : String}

/-- Who leaves gives the oldest session up. -/
theorem sessions_receive_disconnect (a : Address) (hk : m.kind = .disconnect) :
    (r.receive m a).sessionsOf m.source = (r.sessionsOf m.source).tail ∧
      (r.receive m a).sessionsBut m.source = r.sessionsBut m.source := by
  unfold sessionsOf sessionsBut
  rw [clients_receive, hk]
  exact ⟨filter_eraseP_self _ _, filter_eraseP_of_disjoint (by simp) _⟩

/-- Sessions end only by a disconnect of their client. -/
theorem sessionsOf_receive (a : Address) (h : m.source = x → m.kind ≠ .disconnect) :
    r.sessionsOf x <+: (r.receive m a).sessionsOf x := by
  unfold sessionsOf
  rw [clients_receive]
  split
  · rw [List.filter_append]
    exact List.prefix_append _ _
  · rename_i hk
    have hother : ∀ c : Connection, decide (c.id = m.source) → decide (c.id = x) = false := by
      intro c hc
      exact decide_eq_false fun hx => h ((of_decide_eq_true hc).symm.trans hx) hk
    exact ⟨[], (List.append_nil _).trans (filter_eraseP_of_disjoint hother r.clients).symm⟩
  · exact List.prefix_rfl

/-- Sessions last until a goodbye comes in under their name. -/
theorem sessionsOf_receiveAll {ms : List (Address × Message)}
    (h : ∀ y ∈ ms, y.2.source = x → y.2.kind ≠ .disconnect) :
    r.sessionsOf x <+: (r.receiveAll ms).sessionsOf x := by
  induction ms generalizing r with
  | nil => exact List.prefix_rfl
  | cons y ms ih =>
    obtain ⟨hy, hms⟩ := List.forall_mem_cons.mp h
    exact (sessionsOf_receive y.1 hy).trans (ih hms)

end Registry

namespace Node

variable (n : Node) (e : Surroundings)

/-- Passing on what waits leaves all that a node knows as it is. -/
theorem registry_drain (s : State) : (n.drain e s).1.registry = s.registry := by
  have hrun : ∀ (k : Nat) (s : State),
      (n.run e s (List.replicate k .dispatch)).1.registry = s.registry := by
    intro k
    induction k with
    | zero => exact fun _ => rfl
    | succ k ih => exact fun s => (ih _).trans (registry_dispatch e s)
  exact hrun _ s

theorem registry_handle_of_decode {a : Address} {d : List UInt8} {m : Message} {s : State}
    (h : Datagram.decode d = .ok m) :
    (n.handle e a d s).1.registry = s.registry.receive m a := by
  change (n.drain e (n.ingest a d s).1).1.registry = _
  rw [registry_drain, n.ingest_of_decode s h]
  rfl

end Node

namespace ChatClient

variable {send : Address → Except String Unit} {server : Address} {username : String}
  {c : ChatClient} {d : List UInt8}

theorem size_disconnect (username : String) :
    (Call.disconnect.told username).size = (hello username).size + 3 := by
  have hkind : Json.stringWidth Message.Kind.disconnect.tag = 12 := by decide
  have hempty : Json.stringWidth "" = 2 := by decide
  rw [size_hello, Message.size_eq_width, Call.told, Message.width_toEveryone, hkind, hempty]
  omega

/-- Who has registered has a name that its registration has room for. -/
theorem hello_of_connect (h : connect send server username = .ok (c, d)) :
    username ≠ "" ∧ (hello username).fits = true ∧ send server = .ok () ∧
      c = ⟨server, username, 1, []⟩ ∧ d = Datagram.frame (hello username).json := by
  obtain ⟨_, m, hm, hd, hs, rfl⟩ := connect_eq_ok.mp h
  obtain ⟨hv, rfl⟩ := Message.withText_eq_ok.mp hm
  obtain ⟨hfits, rfl⟩ := Datagram.encode_eq_ok.mp hd
  refine ⟨?_, decide_eq_true hfits, hs, rfl, rfl⟩
  rintro rfl
  exact absurd hv (by decide)

theorem brings_of_connect (h : connect send server username = .ok (c, d)) (acts : List Act) :
    (ClientCourse.start c d).Brings acts ((ClientCourse.start c d).run send acts) := by
  obtain ⟨hn, _, hs, rfl, rfl⟩ := hello_of_connect h
  exact ClientCourse.brings_run hs hn acts

/-- Whatever a client has done since it registered, it can make the same calls. -/
theorem call_of_connect (h : connect send server username = .ok (c, d)) (acts : List Act)
    (x : Call) :
    let t := (ClientCourse.start c d).run send acts
    ((x.told username).fits = true → t.client.call send x =
      (.ok (Datagram.frame (x.told username).json),
        { t.client with sent := t.client.sent + 1 })) ∧
    ((x.told username).fits = false → t.client.call send x =
      (.error (.protocol (.tooLarge (x.told username).size 65507)), t.client)) := by
  intro t
  obtain ⟨hn, _, hs, hc, _⟩ := hello_of_connect h
  have hbrings := brings_of_connect h acts
  have hserver : t.client.server = server := hbrings.server.trans (hc ▸ rfl)
  have hname : t.client.username = username := hbrings.username.trans (hc ▸ rfl)
  rw [← hname] at hn ⊢
  exact ⟨fun hx => call_of_fits (hserver ▸ hs) hn hx, fun hx => call_of_not_fits hn hx⟩

/-- All that a client has sent holds a message, and that of a disconnect only if one fits a
datagram. -/
theorem decode_of_mem_wire (h : connect send server username = .ok (c, d)) {acts : List Act}
    {b : List UInt8} (hb : b ∈ ((ClientCourse.start c d).run send acts).wire) :
    ∃ m, Datagram.decode b = .ok m ∧
      (m.kind = .disconnect → (Call.disconnect.told username).fits = true) := by
  have hwire := (brings_of_connect h acts).wire
  obtain ⟨hn, hfits, _, rfl, rfl⟩ := hello_of_connect h
  rw [hwire] at hb
  rcases List.mem_append.mp hb with hb | hb
  · cases List.mem_singleton.mp hb
    exact ⟨_, decode_hello hn hfits, nofun⟩
  · obtain ⟨m, hm, rfl⟩ := List.mem_map.mp hb
    obtain ⟨y, _, rfl, hy⟩ := source_said hm
    refine ⟨_, Datagram.decode_of_encode (Message.encode_of_fits hy) (valid_told hn y), ?_⟩
    cases y with
    | chat text => exact nofun
    | privately destination text => exact nofun
    | disconnect => exact fun _ => hy

/-- A client that has registered. Leaving takes three octets more than that did. If a datagram has
room for these, the client can leave at any time, and wherever its datagram comes to, it loses the
oldest of its sessions, and nobody else loses one. Else the client can leave at no time, and its
sessions last as long as nobody else sends datagrams under its name. -/
theorem leaving_by_size (h : connect send server username = .ok (c, d)) :
    let bye := Call.disconnect.told username
    (hello username).size = 78 + Json.stringWidth username ∧
    bye.size = (hello username).size + 3 ∧
    ((hello username).size ≤ 65504 →
      (∀ acts : List Act,
        let t := (ClientCourse.start c d).run send acts
        t.client.call send .disconnect =
          (.ok (Datagram.frame bye.json), { t.client with sent := t.client.sent + 1 })) ∧
      ∀ (n : Node) (e : Surroundings) (a : Address) (s : State),
        let s' := (n.handle e a (Datagram.frame bye.json) s).1
        s'.registry.sessionsOf username = (s.registry.sessionsOf username).tail ∧
        s'.registry.sessionsBut username = s.registry.sessionsBut username) ∧
    (65504 < (hello username).size →
      (∀ acts : List Act,
        let t := (ClientCourse.start c d).run send acts
        t.client.call send .disconnect =
          (.error (.protocol (.tooLarge ((hello username).size + 3) 65507)), t.client)) ∧
      ∀ (n : Node) (s : State) (turns : List Turn),
        (∀ x ∈ Turn.arrivals turns, x.2.source = username →
          ∃ acts, ∃ b ∈ ((ClientCourse.start c d).run send acts).wire,
            Datagram.decode b = .ok x.2) →
        s.registry.sessionsOf username <+:
          (n.play s turns).1.registry.sessionsOf username) := by
  intro bye
  have hbye : bye.size = (hello username).size + 3 := size_disconnect username
  refine ⟨size_hello username, hbye, ?_, ?_⟩
  · intro hroom
    have hleaves : bye.fits = true := Message.fits_iff.mpr (by omega)
    refine ⟨fun acts => (call_of_connect h acts .disconnect).1 hleaves, fun n e a s => ?_⟩
    have hvalid : bye.Valid := valid_told (hello_of_connect h).1 .disconnect
    have hdecode := Datagram.decode_of_encode (Message.encode_of_fits hleaves) hvalid
    dsimp only
    rw [n.registry_handle_of_decode e hdecode]
    exact Registry.sessions_receive_disconnect a rfl
  · intro hroom
    have hstays : bye.fits = false := Message.not_fits_iff.mpr (by omega)
    refine ⟨fun acts => ?_, fun n s turns hsent => ?_⟩
    · rw [← hbye]
      exact (call_of_connect h acts .disconnect).2 hstays
    · have hplay := (n.play_alike s turns).clients
      unfold Registry.sessionsOf
      rw [hplay]
      refine Registry.sessionsOf_receiveAll fun x hx hsource hk => ?_
      obtain ⟨acts, b, hb, hd⟩ := hsent x hx hsource
      obtain ⟨m, hm, hfits⟩ := decode_of_mem_wire h hb
      cases hd.symm.trans hm
      exact Bool.false_ne_true (hstays.symm.trans (hfits hk))

section Farewells

open Node

def home : Address := ⟨.v4 10 0 0 9, 9⟩

/-- A client registers twice, says something and leaves once: one of its sessions is left. -/
theorem leaving_by_size_once :
    ∃ c d, connect Surroundings.calm.send ⟨.v4 127 0 0 1, 8080⟩ "ann" = .ok (c, d) ∧
      let s := (standardLeft.run .calm .initial [.ingest home d, .ingest home d]).1
      let t := (ClientCourse.start c d).run Surroundings.calm.send [.call (.chat "hi")]
      let bye := Call.disconnect.told "ann"
      s.registry.sessionsOf "ann" = [⟨"ann", home⟩, ⟨"ann", home⟩] ∧
      t.client.call Surroundings.calm.send .disconnect =
        (.ok (Datagram.frame bye.json), { t.client with sent := 3 }) ∧
      (standardLeft.handle .calm home (Datagram.frame bye.json) s).1.registry.sessionsOf "ann" =
        [⟨"ann", home⟩] := by
  have hc : connect Surroundings.calm.send ⟨.v4 127 0 0 1, 8080⟩ "ann" =
      .ok (⟨⟨.v4 127 0 0 1, 8080⟩, "ann", 1, []⟩, Datagram.frame (hello "ann").json) :=
    connect_of_fits rfl (by decide) (by decide) (by decide +kernel)
  obtain ⟨_, _, hroom, _⟩ := leaving_by_size hc
  obtain ⟨hcall, hleave⟩ := hroom (by decide +kernel)
  refine ⟨_, _, hc, ?_, hcall [.call (.chat "hi")], ?_⟩
  · decide +kernel
  · rw [(hleave standardLeft .calm home _).1]
    decide +kernel

/-- A client whose name fills a datagram when it registers can register, and has a session that it
cannot give up. -/
theorem longName_cannot_leave :
    ∃ c d, connect Surroundings.calm.send ⟨.v4 127 0 0 1, 8080⟩ longName = .ok (c, d) ∧
      (standardLeft.handle .calm home d .initial).1.registry.sessionsOf longName =
        [⟨longName, home⟩] ∧
      c.call Surroundings.calm.send .disconnect =
        (.error (.protocol (.tooLarge 65510 65507)), c) := by
  obtain ⟨username, heq, hzero, hne, hwidth⟩ := exists_longName
  rw [heq]
  have hsize : (hello username).size = 65507 := by rw [size_hello, hwidth]
  have hfits : (hello username).fits = true := Message.fits_iff.mpr (Nat.le_of_eq hsize)
  have hbye : (Call.disconnect.told username).size = 65510 := by rw [size_disconnect, hsize]
  refine ⟨_, _, connect_of_fits rfl hzero hne hfits, ?_, ?_⟩
  · rw [registry_handle_of_decode _ _ (decode_hello hne hfits)]
    simp [Registry.sessionsOf, Registry.clients_receive, hello, State.initial, Registry.empty]
  · rw [← hbye]
    exact call_of_not_fits hne (Message.not_fits_iff.mpr (by rw [hbye]; decide))

end Farewells

end ChatClient

end ChatRelay
