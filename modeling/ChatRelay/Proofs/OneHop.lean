import ChatRelay.Proofs.BackAndForth

namespace ChatRelay

namespace Chain

variable {l : Layout} {c : Chain} {m : Message} {trail : List Position} {p : Position}

/-- The message that has waited longest at a node is not for everyone and has come from a neighbor.
Its destination has no session here, but a neighbor that is known has told of it, and can be sent
to; if both neighbors have told of it, that is the left one. -/
structure Repeats (c : Chain) (p : Position) (e : Surroundings) (m : Message) : Prop where
  forwarded : ∃ queue trail trails, (c.stations p).state.queue = m :: queue ∧
    (c.stations p).trails = trail :: trails ∧ trail ≠ []
  single : m.destination ≠ "broadcast"
  absent : ∀ x ∈ (c.stations p).state.registry.clients, x.id ≠ m.destination
  told : ∃ side link, (c.stations p).state.registry.neighbor side = some link ∧
    m.destination ∈ (c.stations p).state.registry.roster side ∧
    (side = .right → (c.stations p).state.registry.neighbor .left = none ∨
      m.destination ∉ (c.stations p).state.registry.roster .left) ∧
    e.send link.address = .ok ()

/-- Someone has never had sessions with two nodes that are neighbors. -/
def Scattered (l : Layout) (c : Chain) (x : String) : Prop :=
  ∀ p q side, l.topology.neighbor? side p = some q → (p, x) ∈ c.registered →
    (q, x) ∉ c.registered

/-- A waiting message came along its trail. -/
theorem Sound.passed_of_waiting (h : c.Sound l)
    (hz : (m, trail) ∈ (c.stations p).state.queue.zip (c.stations p).trails) :
    m.Ordinary ∧ Passed l c.registered m p trail :=
  (List.forall₂_iff_zip.mp (h.stations p).queue).2 hz

theorem Sound.passed_of_parcel {x : Parcel} (h : x.Sound l c.registered)
    (hd : Datagram.decode x.datagram = .ok m) (hm : m.kind.isSync = false) :
    m.Ordinary ∧ ∃ p, Passed l c.registered m p x.trail ∧
      ∀ q, l.topology.isValid q = true → x.target = l.home q → q = p := by
  cases h with
  | roster encoded valid kind ids_eq place next target known =>
    cases hd.symm.trans (Datagram.decode_of_encode encoded valid)
    rw [kind, Side.isSync_syncKind] at hm
    cases hm
  | word encoded ordinary passed target sender =>
    cases hd.symm.trans (Datagram.decode_of_encode encoded ordinary.valid)
    exact ⟨ordinary, _, passed, target⟩

theorem Sound.passed_of_bears (h : c.Sound l) (hm : m.kind.isSync = false)
    (hb : c.Bears m trail) : m.Ordinary ∧ ∃ p, Passed l c.registered m p trail := by
  rcases hb with ⟨x, hx, hd, rfl⟩ | ⟨p, hz⟩
  · obtain ⟨ho, p, hp, _⟩ := Sound.passed_of_parcel (h.transit x hx) hd hm
    exact ⟨ho, p, hp⟩
  · obtain ⟨ho, hp⟩ := h.passed_of_waiting hz
    exact ⟨ho, p, hp⟩

theorem Sound.passed_of_bearsTo (h : c.Sound l) (hm : m.kind.isSync = false)
    (hb : c.BearsTo l m trail p) : Passed l c.registered m p trail := by
  obtain ⟨hv, ⟨x, hx, ht, hd, rfl⟩ | hz⟩ := hb
  · obtain ⟨_, q, hq, htarget⟩ := Sound.passed_of_parcel (h.transit x hx) hd hm
    cases htarget p hv ht
    exact hq
  · exact (h.passed_of_waiting hz).2

/-- A trail of two nodes tells of two neighbors that have had the destination. -/
theorem Scattered.length_le (h : c.Scattered l m.destination)
    (hp : Passed l c.registered m p trail) : trail.length ≤ 1 := by
  match trail, hp with
  | [], _ => exact Nat.zero_le 1
  | [_], _ => exact Nat.le_refl 1
  | i :: _ :: _, ⟨_, ⟨side, hs⟩, hp, ⟨_, _, hi, _⟩⟩ => exact absurd hp (h i p side hs hi)

theorem Scattered.not_mem (h : c.Scattered l m.destination)
    (hp : Passed l c.registered m p trail) : p ∉ trail := by
  have hlength := h.length_le hp
  match trail, hp with
  | [], _ => exact List.not_mem_nil
  | [i], ⟨_, ⟨side, hs⟩, _, _⟩ =>
    intro hmem
    cases List.mem_singleton.mp hmem
    exact Topology.neighbor?_ne_self hs
  | _ :: _ :: _, _ => simp at hlength

theorem bears_of_lose {k : Nat}
    (hb : Chain.Bears { c with transit := c.transit.eraseIdx k } m trail) : c.Bears m trail := by
  rcases hb with ⟨x, hx, hd, ht⟩ | hz
  · exact .inl ⟨x, List.mem_of_mem_eraseIdx hx, hd, ht⟩
  · exact .inr hz

/-- What a chain bears after a step of a node it bore before, or it waits at the node or has just
been sent by it. -/
theorem bears_advance {trails : List (List Position)} {mark : List Position}
    {next : State × Output} (hb : (c.advance l p trails mark next).Bears m trail) :
    c.Bears m trail ∨ (m, trail) ∈ next.1.queue.zip trails ∨
      trail = mark ∧ ∃ x ∈ next.2.sent, Datagram.decode x.2 = .ok m := by
  rcases hb with ⟨x, hx, hd, ht⟩ | ⟨q, hz⟩
  · rcases List.mem_append.mp hx with hx | hx
    · exact .inl (.inl ⟨x, hx, hd, ht⟩)
    · obtain ⟨y, hy, rfl⟩ := List.mem_map.mp hx
      exact .inr (.inr ⟨ht.symm, y, hy, hd⟩)
  · change (m, trail) ∈ (Function.update c.stations p ⟨next.1, trails⟩ q).state.queue.zip
      (Function.update c.stations p ⟨next.1, trails⟩ q).trails at hz
    by_cases hq : q = p
    · subst hq
      rw [Function.update_self] at hz
      exact .inr (.inl hz)
    · rw [Function.update_of_ne hq] at hz
      exact .inl (.inr ⟨q, hz⟩)

def Twice (c : Chain) (m : Message) : Prop :=
  ∃ trail, 2 ≤ trail.length ∧ c.Bears m trail

/-- To come in does not lengthen a trail. -/
theorem Sound.bears_take (h : c.Sound l) {x : Parcel} (hx : x ∈ c.transit) {k : Nat}
    (hb : (Chain.take l { c with transit := c.transit.eraseIdx k } p x).Bears m trail) :
    c.Bears m trail := by
  have hlength := (h.stations p).queue.length_eq
  obtain ⟨m', hd⟩ : ∃ m', Datagram.decode x.datagram = .ok m' := by
    cases h.transit x hx with
    | roster encoded valid => exact ⟨_, Datagram.decode_of_encode encoded valid⟩
    | word encoded ordinary => exact ⟨_, Datagram.decode_of_encode encoded ordinary.valid⟩
  rw [take_of_decode hd] at hb
  rcases bears_advance hb with hb | hz | ⟨_, y, hy, _⟩
  · exact bears_of_lose hb
  · dsimp only at hz
    cases hsync : m'.kind.isSync with
    | true =>
      rw [Node.queue_accept_of_sync _ _ hsync, Nat.sub_self, List.replicate_zero,
        List.append_nil] at hz
      exact .inr ⟨p, hz⟩
    | false =>
      rw [Node.queue_accept _ _ hsync, List.length_append, List.length_singleton,
        Nat.add_sub_cancel_left, List.zip_append hlength] at hz
      rcases List.mem_append.mp hz with hz | hz
      · exact .inr ⟨p, hz⟩
      · cases List.mem_singleton.mp hz
        exact .inl ⟨x, hx, hd, rfl⟩
  · cases hy

/-- To be sent lengthens a trail only if the plan leads to a neighbor. -/
theorem Sound.twice_dispatch (h : c.Sound l) {e : Surroundings}
    (hb : (c.advance l p (c.stations p).trails.tail (c.nextTrail p)
      (Node.dispatch e (c.stations p).state)).Twice m) :
    c.Twice m ∨ c.Repeats p e m := by
  obtain ⟨trail, hlong, hb⟩ := hb
  rcases bears_advance hb with hb | hz | ⟨rfl, x, hx, hd⟩
  · exact .inl ⟨trail, hlong, hb⟩
  · rw [Node.queue_dispatch, ← List.tail_zip] at hz
    exact .inl ⟨trail, hlong, .inr ⟨p, List.mem_of_mem_tail hz⟩⟩
  · obtain ⟨m', queue, hq, he, ha, ho⟩ := (Node.mem_sent_dispatch e).mp hx
    have hqueue := (h.stations p).queue
    rw [hq] at hqueue
    obtain ⟨trail, trails, ⟨hm, _⟩, _, htrails⟩ := List.forall₂_cons_left_iff.mp hqueue
    cases hd.symm.trans (Datagram.decode_of_encode he hm.valid)
    have hnext := nextTrail_eq hq htrails
    cases hpass : (c.stations p).state.registry.passesOn m with
    | false =>
      rw [hpass, if_neg Bool.false_ne_true] at hnext
      rw [hnext] at hlong
      refine .inl ⟨trail, hlong, .inr ⟨p, ?_⟩⟩
      rw [hq, htrails]
      exact List.mem_cons_self
    | true =>
      rw [hpass, if_pos rfl] at hnext
      obtain ⟨side, target, hplan⟩ := Registry.passesOn_eq_true.mp hpass
      rw [hplan] at ha
      cases List.mem_singleton.mp ha
      obtain ⟨hsingle, habsent, hside⟩ := Registry.plan_eq_neighbor.mp hplan
      obtain ⟨link, hlink, haddress, htold, hleft⟩ := hside
      refine .inr ⟨⟨queue, trail, trails, hq, htrails, ?_⟩, hsingle, habsent,
        side, link, hlink, htold, hleft, haddress ▸ ho⟩
      rintro rfl
      rw [hnext] at hlong
      simp at hlong

/-- Only a dispatch that repeats a message makes it one that has been passed on twice. -/
theorem Sound.twice_step (h : c.Sound l) (hm : m.kind.isSync = false) {x : Move}
    (hb : (c.step l x).Twice m) :
    c.Twice m ∨ ∃ p e, x = .dispatch p e ∧ c.Repeats p e m := by
  unfold Chain.step at hb
  cases x with
  | post client p m' =>
    dsimp only at hb
    obtain ⟨trail, hlong, hb⟩ := hb
    split at hb
    · rcases hb with ⟨x, hx, hd, ht⟩ | hz
      · rcases List.mem_append.mp hx with hx | hx
        · exact .inl ⟨trail, hlong, .inl ⟨x, hx, hd, ht⟩⟩
        · cases List.mem_singleton.mp hx
          rw [← ht] at hlong
          simp at hlong
      · exact .inl ⟨trail, hlong, .inr hz⟩
    · exact .inl ⟨trail, hlong, hb⟩
  | arrive k p =>
    dsimp only at hb
    split at hb
    · rename_i y hy
      split at hb
      · obtain ⟨trail, hlong, hb⟩ := hb
        exact .inl ⟨trail, hlong, h.bears_take (List.mem_of_getElem? hy) hb⟩
      · exact .inl hb
    · exact .inl hb
  | lose k =>
    obtain ⟨trail, hlong, hb⟩ := hb
    exact .inl ⟨trail, hlong, bears_of_lose hb⟩
  | dispatch p e =>
    rcases h.twice_dispatch hb with hb | hb
    · exact .inl hb
    · exact .inr ⟨p, e, rfl, hb⟩
  | look p side e =>
    obtain ⟨trail, hlong, hb⟩ := hb
    obtain ⟨_, hqueue, hsent⟩ :=
      (l.topology.node p).syncSide_eq e side (c.stations p).state
    rcases bears_advance hb with hb | hz | ⟨_, x, hx, hd⟩
    · exact .inl ⟨trail, hlong, hb⟩
    · rw [hqueue] at hz
      exact .inl ⟨trail, hlong, .inr ⟨p, hz⟩⟩
    · obtain ⟨t, ht, _, hdata, _⟩ := Output.mem_sent.mp hx
      obtain ⟨k, _, _, hroster⟩ := hsent t ht
      obtain ⟨m', he, hv, hkind, _⟩ := Node.rosterDatagram_eq_ok hroster
      rw [hdata] at he
      cases hd.symm.trans (Datagram.decode_of_encode he hv)
      rw [hkind, Side.isSync_syncKind] at hm
      cases hm

/-- Who repeats a message has it on its way with a trail of two nodes at least. -/
theorem Sound.twice_of_repeats (h : c.Sound l) {e : Surroundings} (hr : c.Repeats p e m) :
    (c.step l (.dispatch p e)).Twice m := by
  obtain ⟨⟨queue, trail, trails, hq, ht, hne⟩, hsingle, habsent, side, link, hlink, htold, hleft,
    ho⟩ := hr
  have hplan : (c.stations p).state.registry.plan m = .neighbor side link.address :=
    Registry.plan_eq_neighbor.mpr ⟨hsingle, habsent, link, hlink, rfl, htold, hleft⟩
  have hwait : (m, trail) ∈ (c.stations p).state.queue.zip (c.stations p).trails := by
    rw [hq, ht]
    exact List.mem_cons_self
  have hm := (h.passed_of_waiting hwait).1
  obtain ⟨d, hd⟩ := hm.written
  have hsent : (link.address, d) ∈ (Node.dispatch e (c.stations p).state).2.sent := by
    apply (Node.mem_sent_dispatch e).mpr
    refine ⟨m, queue, hq, hd, ?_, ho⟩
    rw [hplan]
    exact List.mem_cons_self
  have hnext : c.nextTrail p = p :: trail := by
    rw [nextTrail_eq hq ht, if_pos (Registry.passesOn_eq_true.mpr ⟨side, _, hplan⟩)]
  refine ⟨p :: trail, ?_, .inl ⟨⟨l.home p, link.address, d, p :: trail⟩, ?_, ?_, rfl⟩⟩
  · cases trail with
    | nil => exact absurd rfl hne
    | cons i trail => simp
  · apply List.mem_append_right
    rw [hnext]
    exact List.mem_map.mpr ⟨(link.address, d), hsent, rfl⟩
  · exact Datagram.decode_of_encode hd hm.valid

/-- Whatever has been passed on twice was passed on by a node that had it from a neighbor. -/
theorem exists_repeats {moves : List Move} (h : ∀ x ∈ moves, x.Legal l)
    (hm : m.kind.isSync = false) (ht : (initial.run l moves).Twice m) :
    ∃ before p e, before ++ [.dispatch p e] <+: moves ∧ (initial.run l before).Repeats p e m := by
  induction moves using List.reverseRecOn with
  | nil =>
    obtain ⟨_, _, ⟨x, hx, _⟩ | ⟨p, hz⟩⟩ := ht
    · cases hx
    · cases hz
  | append_singleton moves x ih =>
    have hmoves : ∀ y ∈ moves, y.Legal l := fun y hy => h y (List.mem_append_left _ hy)
    rw [run_append] at ht
    rcases (sound_run hmoves).twice_step hm ht with ht | ⟨p, e, rfl, hr⟩
    · obtain ⟨before, p, e, hpre, hr⟩ := ih hmoves ht
      exact ⟨before, p, e, hpre.trans (List.prefix_append _ _), hr⟩
    · exact ⟨moves, p, e, List.prefix_rfl, hr⟩

/-- Passing on a message to someone takes one datagram at most. -/
theorem length_attempts_dispatch {s : State} {queue : List Message} (hq : s.queue = m :: queue)
    (hb : m.isBroadcast = false) (e : Surroundings) :
    (Node.dispatch e s).2.attempts.length ≤ 1 := by
  rw [Node.dispatch_cons e hq]
  change (_ ++ []).length ≤ 1
  rw [List.append_nil]
  cases hd : Datagram.encode m with
  | error cause =>
    rw [Node.attempts_relay_of_error e _ hd]
    exact Nat.zero_le 1
  | ok d =>
    rw [Node.attempts_relay e _ hd]
    unfold attemptsTo
    rw [List.length_map]
    cases hs : s.registry.session? m.destination with
    | some k =>
      rw [Registry.plan_of_session hb hs]
      exact Nat.le_refl 1
    | none =>
      rcases Registry.plan_of_absence hb hs with hp | ⟨side, k, hp, _⟩
      · rw [hp]
        exact Nat.zero_le 1
      · rw [hp]
        exact Nat.le_refl 1

section Pair

def pair : Layout where
  topology := ⟨[⟨"left", "127.0.0.1", 8080⟩, ⟨"right", "127.0.0.1", 8081⟩]⟩
  home p := ⟨.v4 127 0 0 1, 8080 + p.index.toUInt16⟩
  apart := by
    intro p q _ _ h
    have h : p.index.toUInt16 = q.index.toUInt16 := by simpa using h
    exact congrArg Position.mk (UInt8.toUInt16_inj.mp h)

def guest : Address := ⟨.v4 10 0 0 9, 9⟩

def speaks (p : Position) (m : Message) : List Move :=
  [.post guest p m, .arrive 0 p, .dispatch p .calm]

def meets : List Move :=
  [.look ⟨0⟩ .right .calm, .look ⟨1⟩ .left .calm]

theorem agrees_pair : pair.Agrees Surroundings.calm.lookup := by
  intro p a h
  by_cases h0 : p = ⟨0⟩
  · subst h0
    cases (show Except.ok ⟨.v4 127 0 0 1, 8080⟩ = Except.ok a from h)
    rfl
  · by_cases h1 : p = ⟨1⟩
    · subst h1
      cases (show Except.ok ⟨.v4 127 0 0 1, 8081⟩ = Except.ok a from h)
      rfl
    · have hne0 : p.index.toNat ≠ 0 := fun hi => h0 (Position.ext_toNat hi)
      have hne1 : p.index.toNat ≠ 1 := fun hi => h1 (Position.ext_toNat hi)
      have hp : 2 ≤ p.index.toNat := by omega
      have hn : pair.topology.node? p = none := List.getElem?_eq_none hp
      unfold Topology.resolve at h
      rw [hn] at h
      cases h

theorem outside_pair : pair.Outside guest := by
  intro p _ h
  cases congrArg Address.host h

theorem legal_meets : ∀ x ∈ meets, x.Legal pair := by
  intro x hx
  simp only [meets, List.mem_cons, List.not_mem_nil, or_false] at hx
  rcases hx with rfl | rfl
  · exact ⟨by decide, agrees_pair⟩
  · exact ⟨by decide, agrees_pair⟩

theorem legal_speaks {p : Position} {m : Message} (hp : pair.topology.isValid p = true)
    (hm : m.OfClient) : ∀ x ∈ speaks p m, x.Legal pair := by
  intro x hx
  simp only [speaks, List.mem_cons, List.not_mem_nil, or_false] at hx
  rcases hx with rfl | rfl | rfl
  · exact ⟨hp, outside_pair, hm⟩
  · trivial
  · exact hp

def comes : Message := ⟨.connect, "bob", Message.everyone, .text ""⟩

def goes : Message := ⟨.disconnect, "bob", Message.everyone, .text ""⟩

def whisper : Message := ⟨.privateMessage, "ann", "bob", .text "hi"⟩

theorem ofClient_comes : comes.OfClient := ⟨"bob", .inl rfl⟩

theorem ofClient_goes : goes.OfClient := ⟨"bob", .inr ⟨.disconnect, rfl⟩⟩

theorem ofClient_whisper : whisper.OfClient := ⟨"ann", .inr ⟨.privately "bob" "hi", rfl⟩⟩

/-- Someone tells the left node something for a client of the right one. -/
def oneHop : List Move :=
  meets ++ speaks ⟨1⟩ comes ++ [.look ⟨1⟩ .left .calm, .arrive 0 ⟨0⟩] ++ speaks ⟨0⟩ whisper

/-- A client has been with both nodes, which have told each other of it, and has gone. -/
def roundTrip : List Move :=
  meets ++ speaks ⟨0⟩ comes ++ speaks ⟨1⟩ comes ++
    [.look ⟨0⟩ .right .calm, .arrive 0 ⟨1⟩, .look ⟨1⟩ .left .calm, .arrive 0 ⟨0⟩] ++
    speaks ⟨0⟩ goes ++ speaks ⟨1⟩ goes ++ speaks ⟨0⟩ whisper ++ [.arrive 0 ⟨1⟩, .dispatch ⟨1⟩ .calm]

theorem transit_oneHop : (initial.run pair oneHop).transit =
    [⟨pair.home ⟨0⟩, pair.home ⟨1⟩, Datagram.frame whisper.json, [⟨0⟩]⟩] := by
  decide +kernel

theorem transit_roundTrip : (initial.run pair roundTrip).transit =
    [⟨pair.home ⟨1⟩, pair.home ⟨0⟩, Datagram.frame whisper.json, [⟨1⟩, ⟨0⟩]⟩] := by
  decide +kernel

theorem legal_oneHop : ∀ x ∈ oneHop, x.Legal pair := by
  unfold oneHop
  simp only [List.forall_mem_append]
  refine ⟨⟨⟨legal_meets, legal_speaks (by decide) ofClient_comes⟩, ?_⟩,
    legal_speaks (by decide) ofClient_whisper⟩
  simp only [List.forall_mem_cons, List.not_mem_nil, false_imp_iff, implies_true, and_true]
  exact ⟨⟨by decide, agrees_pair⟩, trivial⟩

theorem legal_roundTrip : ∀ x ∈ roundTrip, x.Legal pair := by
  unfold roundTrip
  simp only [List.forall_mem_append]
  refine ⟨⟨⟨⟨⟨⟨⟨legal_meets, legal_speaks (by decide) ofClient_comes⟩,
    legal_speaks (by decide) ofClient_comes⟩, ?_⟩, legal_speaks (by decide) ofClient_goes⟩,
    legal_speaks (by decide) ofClient_goes⟩, legal_speaks (by decide) ofClient_whisper⟩, ?_⟩
  · simp only [List.forall_mem_cons, List.not_mem_nil, false_imp_iff, implies_true, and_true]
    exact ⟨⟨by decide, agrees_pair⟩, trivial, ⟨by decide, agrees_pair⟩, trivial⟩
  · simp only [List.forall_mem_cons, List.not_mem_nil, false_imp_iff, implies_true, and_true]
    exact ⟨trivial, (by decide : pair.topology.isValid ⟨1⟩ = true)⟩

/-- Both nodes have forgotten the client, and neither has told the other so. -/
theorem bounces_roundTrip :
    (initial.run pair roundTrip).Bounces pair whisper [⟨1⟩, ⟨0⟩] ⟨0⟩ ⟨1⟩ where
  valid := by decide
  ne := by decide
  transit := ⟨_, _, Datagram.encode_eq_ok.mpr ⟨by decide, rfl⟩, transit_roundTrip⟩
  waiting := by decide +kernel
  there := ⟨.right, by decide +kernel⟩
  back := ⟨.left, by decide +kernel⟩

theorem decode_whisper : Datagram.decode (Datagram.frame whisper.json) = .ok whisper :=
  Datagram.decode_of_encode (Datagram.encode_eq_ok.mpr ⟨by decide, rfl⟩) (by decide)

theorem scattered_oneHop : (initial.run pair oneHop).Scattered pair "bob" := by
  have hr : (initial.run pair oneHop).registered.all (·.1 = ⟨1⟩) = true := by
    decide +kernel
  intro p q side hs hp hq
  have hp : p = ⟨1⟩ := by simpa using List.all_eq_true.mp hr _ hp
  have hq : q = ⟨1⟩ := by simpa using List.all_eq_true.mp hr _ hq
  subst hp hq
  exact Topology.neighbor?_ne_self hs

end Pair

/-- In every chain that can come about, a private message is passed on more than once exactly if
some node repeats it. That takes a destination that has been at two neighbors: a message to anyone
else is passed on once at most and never comes back to a node. Each time it takes one datagram at
most. -/
theorem twice_iff_repeats (l : Layout) (moves : List Move) (h : ∀ x ∈ moves, x.Legal l)
    (m : Message) (hm : m.kind = .privateMessage) :
    ((∃ before, before <+: moves ∧ (initial.run l before).Twice m) ↔
      ∃ before p e, before ++ [.dispatch p e] <+: moves ∧ (initial.run l before).Repeats p e m) ∧
    ((initial.run l moves).Scattered l m.destination →
      (∀ trail, (initial.run l moves).Bears m trail → trail.length ≤ 1) ∧
      ∀ trail p, (initial.run l moves).BearsTo l m trail p → p ∉ trail) ∧
    ∀ s queue e, s.queue = m :: queue → m.isBroadcast = false →
      (Node.dispatch e s).2.attempts.length ≤ 1 := by
  have hsync : m.kind.isSync = false := by
    rw [hm]
    rfl
  have hsound := sound_run h
  refine ⟨⟨?_, ?_⟩, ?_, fun s queue e hq hb => length_attempts_dispatch hq hb e⟩
  · rintro ⟨before, hpre, ht⟩
    obtain ⟨before', p, e, hpre', hr⟩ :=
      exists_repeats (fun x hx => h x (hpre.subset hx)) hsync ht
    exact ⟨before', p, e, hpre'.trans hpre, hr⟩
  · rintro ⟨before, p, e, hpre, hr⟩
    have hbefore : ∀ x ∈ before, x.Legal l := fun x hx =>
      h x (hpre.subset (List.mem_append_left _ hx))
    refine ⟨before ++ [.dispatch p e], hpre, ?_⟩
    rw [run_append]
    exact (sound_run hbefore).twice_of_repeats hr
  · intro hs
    constructor
    · intro trail hb
      obtain ⟨_, p, hp⟩ := hsound.passed_of_bears hsync hb
      exact hs.length_le hp
    · intro trail p hb
      exact hs.not_mem (hsound.passed_of_bearsTo hsync hb)

/-- A message for a client of the other node is passed on once. -/
theorem twice_iff_repeats_oneHop :
    (∀ x ∈ oneHop, x.Legal pair) ∧ whisper.kind = .privateMessage ∧
      (initial.run pair oneHop).BearsTo pair whisper [⟨0⟩] ⟨1⟩ ∧
      (∀ trail, (initial.run pair oneHop).Bears whisper trail → trail.length ≤ 1) ∧
      ∀ trail p, (initial.run pair oneHop).BearsTo pair whisper trail p → p ∉ trail := by
  have hx : (⟨pair.home ⟨0⟩, pair.home ⟨1⟩, Datagram.frame whisper.json, [⟨0⟩]⟩ : Parcel) ∈
      (initial.run pair oneHop).transit := by
    rw [transit_oneHop]
    exact List.mem_cons_self
  refine ⟨legal_oneHop, rfl, ⟨by decide, .inl ⟨_, hx, rfl, decode_whisper, rfl⟩⟩, ?_⟩
  exact (twice_iff_repeats pair oneHop legal_oneHop whisper rfl).2.1 scattered_oneHop

/-- A message for a client that has been at both nodes comes back to the node that it was sent to,
when each node has passed it on, and can go to and fro without end. -/
theorem whisper_comes_back :
    pair.topology.fault? = none ∧ (∀ x ∈ roundTrip, x.Legal pair) ∧
      whisper.kind = .privateMessage ∧
      (initial.run pair roundTrip).BearsTo pair whisper [⟨1⟩, ⟨0⟩] ⟨0⟩ ∧
      ∀ k, ∃ moves, (∀ x ∈ moves, x.Legal pair) ∧
        ∃ trail, k ≤ trail.length ∧ (initial.run pair moves).Bears whisper trail := by
  have hx : (⟨pair.home ⟨1⟩, pair.home ⟨0⟩, Datagram.frame whisper.json, [⟨1⟩, ⟨0⟩]⟩ : Parcel) ∈
      (initial.run pair roundTrip).transit := by
    rw [transit_roundTrip]
    exact List.mem_cons_self
  refine ⟨by decide, legal_roundTrip, rfl, ⟨by decide, .inl ⟨_, hx, rfl, decode_whisper, rfl⟩⟩, ?_⟩
  intro k
  obtain ⟨moves, hlegal, trail, p, q, hlength, hb⟩ :=
    bounces_roundTrip.without_end rfl (by decide) k
  obtain ⟨sender, d, hd, ht⟩ := hb.transit
  refine ⟨roundTrip ++ moves, ?_, trail, by omega,
    .inl ⟨⟨sender, pair.home p, d, trail⟩, ?_, ?_, rfl⟩⟩
  · intro x hx
    rcases List.mem_append.mp hx with hx | hx
    · exact legal_roundTrip x hx
    · exact hlegal x hx
  · rw [run_append, ht]
    exact List.mem_cons_self
  · exact Datagram.decode_of_encode hd (by decide)

end Chain

end ChatRelay
