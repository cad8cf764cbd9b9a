import ChatRelay.Proofs.ClientCalls
import ChatRelay.Proofs.Neighbors
import ChatRelay.Proofs.Routing
import ChatRelay.Proofs.Syncing
import ChatRelay.Proofs.WholeChain
import Mathlib.Data.List.Forall2
import Mathlib.Data.List.Induction

namespace ChatRelay

/-- A message that nodes pass on. Who comes says so to everyone. -/
structure Message.Ordinary (m : Message) : Prop where
  valid : m.Valid
  notSync : m.kind.isSync = false
  open_of_connect : m.kind = .connect → m.isBroadcast = true
  written : ∃ d, Datagram.encode m = .ok d

theorem Message.OfClient.ordinary {m : Message} {d : List UInt8} (h : m.OfClient)
    (hd : Datagram.encode m = .ok d) : m.Ordinary := by
  obtain ⟨username, h | ⟨x, h⟩⟩ := h
  · obtain ⟨hv, rfl⟩ := Message.withText_eq_ok.mp h
    exact ⟨hv, rfl, fun _ => rfl, d, hd⟩
  · obtain ⟨hv, _, hs, hk⟩ := ChatClient.message_eq_ok h
    exact ⟨hv, hs, fun h => absurd h hk, d, hd⟩

/-- The datagram of a roster holds a valid sync of the clients. -/
theorem Node.rosterDatagram_eq_ok {n : Node} {side : Side} {c : Connection} {r : Registry}
    {d : List UInt8} (h : n.rosterDatagram side c r = .ok d) :
    ∃ m : Message, Datagram.encode m = .ok d ∧ m.Valid ∧ m.kind = side.syncKind ∧
      m.roster? = some r.clientIds := by
  obtain ⟨hname, hd⟩ := n.rosterDatagram_iff.mp h
  exact ⟨_, hd, n.valid_rosterMessage.mpr hname, rfl, rfl⟩

variable {l : Layout} {reg reg' : List (Position × String)}

/-- A message to someone came to a place along a trail: each node on it passed the message on to a
neighbor that had had this client. -/
def Passed (l : Layout) (reg : List (Position × String)) (m : Message) :
    Position → List Position → Prop
  | _, [] => True
  | p, i :: trail => m.isBroadcast = false ∧ (∃ side, l.topology.neighbor? side i = some p) ∧
      (p, m.destination) ∈ reg ∧ Passed l reg m i trail

theorem Passed.mono (hr : reg ⊆ reg') {m : Message} {p : Position} {trail : List Position}
    (h : Passed l reg m p trail) : Passed l reg' m p trail := by
  induction trail generalizing p with
  | nil => trivial
  | cons i trail ih =>
    obtain ⟨hb, hs, hd, htrail⟩ := h
    exact ⟨hb, hs, hr hd, ih htrail⟩

/-- What a node knows is true or was true once: its sessions are of clients, its neighbors are where
they are, its rosters tell of clients that the neighbors have had, and so do the trails. -/
structure Station.Sound (l : Layout) (reg : List (Position × String)) (p : Position)
    (s : Station) : Prop where
  queue : List.Forall₂ (fun m trail => m.Ordinary ∧ Passed l reg m p trail) s.state.queue s.trails
  sessions : ∀ c ∈ s.state.registry.clients, (p, c.id) ∈ reg
  addresses : ∀ c ∈ s.state.registry.clients, l.Outside c.address
  neighbors : ∀ side c, s.state.registry.neighbor side = some c →
    ∃ q, l.topology.neighbor? side p = some q ∧ c.address = l.home q
  rosters : ∀ side, ∀ id ∈ s.state.registry.roster side,
    ∃ q, l.topology.neighbor? side p = some q ∧ (q, id) ∈ reg

/-- A datagram on its way holds either the clients of a node, for a neighbor of that, or a message
that has come along its trail. A connect for a node comes from a client. -/
inductive Parcel.Sound (l : Layout) (reg : List (Position × String)) (x : Parcel) : Prop where
  | roster {p q : Position} {side : Side} {m : Message} {ids : List String}
      (encoded : Datagram.encode m = .ok x.datagram) (valid : m.Valid)
      (kind : m.kind = side.syncKind) (ids_eq : m.roster? = some ids)
      (place : l.topology.isValid p = true) (next : l.topology.neighbor? side p = some q)
      (target : x.target = l.home q) (known : ∀ id ∈ ids, (p, id) ∈ reg)
  | word {p : Position} {m : Message}
      (encoded : Datagram.encode m = .ok x.datagram) (ordinary : m.Ordinary)
      (passed : Passed l reg m p x.trail)
      (target : ∀ q, l.topology.isValid q = true → x.target = l.home q → q = p)
      (sender : m.kind = .connect → l.Outside x.target ∨ l.Outside x.sender)

structure Chain.Sound (l : Layout) (c : Chain) : Prop where
  stations : ∀ p, (c.stations p).Sound l c.registered p
  transit : ∀ x ∈ c.transit, x.Sound l c.registered

/-- What was true once stays so: no more is forgotten of who has registered where. -/
theorem Station.Sound.mono (hr : reg ⊆ reg') {p : Position} {s : Station}
    (h : s.Sound l reg p) : s.Sound l reg' p where
  queue := h.queue.imp fun _ _ h => ⟨h.1, h.2.mono hr⟩
  sessions := fun c hc => hr (h.sessions c hc)
  addresses := h.addresses
  neighbors := h.neighbors
  rosters := by
    intro side id hid
    obtain ⟨q, hq, hm⟩ := h.rosters side id hid
    exact ⟨q, hq, hr hm⟩

/-- To have other messages wait changes nothing of what a node knows. -/
theorem Station.Sound.requeue {p : Position} {s s' : Station} (h : s.Sound l reg p)
    (hr : s'.state.registry = s.state.registry)
    (hq : List.Forall₂ (fun m trail => m.Ordinary ∧ Passed l reg m p trail)
      s'.state.queue s'.trails) : s'.Sound l reg p where
  queue := hq
  sessions := hr.symm ▸ h.sessions
  addresses := hr.symm ▸ h.addresses
  neighbors := hr.symm ▸ h.neighbors
  rosters := hr.symm ▸ h.rosters

/-- A node may take any message in if its connects come from clients and its rosters are true. -/
theorem Station.Sound.receive {p : Position} {s s' : Station} (h : s.Sound l reg p) {m : Message}
    {a : Address} (hr : s'.state.registry = s.state.registry.receive m a)
    (hq : List.Forall₂ (fun m trail => m.Ordinary ∧ Passed l reg m p trail)
      s'.state.queue s'.trails)
    (hc : ∀ k ∈ s'.state.registry.clients, (p, k.id) ∈ reg)
    (ha : m.kind = .connect → l.Outside a)
    (hi : ∀ side, m.kind.origin? = some side → ∀ id ∈ m.roster?.getD [],
      ∃ q, l.topology.neighbor? side p = some q ∧ (q, id) ∈ reg) : s'.Sound l reg p where
  queue := hq
  sessions := hc
  addresses := by
    intro k hk
    rw [hr] at hk
    rcases Registry.mem_clients_receive _ hk with hk | ⟨hm, rfl⟩
    · exact h.addresses k hk
    · exact ha hm
  neighbors := by
    intro side k hk
    rw [hr, Registry.neighbor_receive] at hk
    exact h.neighbors side k hk
  rosters := by
    intro side id hid
    rw [hr, Registry.roster_receive] at hid
    split at hid
    · rename_i ho
      cases hm : m.roster? with
      | none =>
        rw [hm] at hid
        exact h.rosters side id hid
      | some ids =>
        rw [hm] at hid
        exact hi side ho id (by simpa [hm] using hid)
    · exact h.rosters side id hid

theorem Parcel.Sound.mono (hr : reg ⊆ reg') {x : Parcel} (h : x.Sound l reg) :
    x.Sound l reg' := by
  cases h with
  | roster encoded valid kind ids_eq place next target known =>
    exact .roster encoded valid kind ids_eq place next target fun id hid => hr (known id hid)
  | word encoded ordinary passed target sender =>
    exact .word encoded ordinary (passed.mono hr) target sender

namespace Chain

variable {c : Chain} {p : Position}

theorem sound_initial : initial.Sound l where
  stations := by
    intro p
    exact {
      queue := .nil
      sessions := nofun
      addresses := nofun
      neighbors := by
        intro side c h
        cases side <;> cases h
      rosters := by
        intro side id h
        cases side <;> cases h }
  transit := nofun

def registeredAfter (c : Chain) (p : Position) (r : Registry) : List (Position × String) :=
  c.registered ++ r.clientIds.map fun x => (p, x)

theorem registered_subset (c : Chain) (p : Position) (r : Registry) :
    c.registered ⊆ c.registeredAfter p r :=
  List.subset_append_left _ _

theorem mem_registeredAfter {r : Registry} {k : Connection} (h : k ∈ r.clients) :
    (p, k.id) ∈ c.registeredAfter p r :=
  List.mem_append_right _ (List.mem_map.mpr ⟨k.id, List.mem_map.mpr ⟨k, h, rfl⟩, rfl⟩)

/-- A step of one node keeps a chain sound if it leaves the node sound and sends what is sound. -/
theorem Sound.advance (h : c.Sound l) {trails : List (List Position)} {trail : List Position}
    {next : State × Output}
    (hs : Station.Sound l (c.registeredAfter p next.1.registry) p ⟨next.1, trails⟩)
    (hx : ∀ x ∈ next.2.sent,
      Parcel.Sound l (c.registeredAfter p next.1.registry) ⟨l.home p, x.1, x.2, trail⟩) :
    (c.advance l p trails trail next).Sound l := by
  have hr := c.registered_subset p next.1.registry
  constructor
  · intro q
    change ((Function.update c.stations p ⟨next.1, trails⟩) q).Sound l _ q
    by_cases hq : q = p
    · subst hq
      rw [Function.update_self]
      exact hs
    · rw [Function.update_of_ne hq]
      exact (h.stations q).mono hr
  · intro x hmem
    rcases List.mem_append.mp hmem with hmem | hmem
    · exact (h.transit x hmem).mono hr
    · obtain ⟨y, hy, rfl⟩ := List.mem_map.mp hmem
      exact hx y hy

theorem take_of_decode {x : Parcel} {m : Message} (h : Datagram.decode x.datagram = .ok m) :
    c.take l p x = c.advance l p ((c.stations p).trails ++ List.replicate
        ((Node.accept m x.sender (c.stations p).state).queue.length -
          (c.stations p).state.queue.length) x.trail) []
      (Node.accept m x.sender (c.stations p).state,
        { log := (l.topology.node p).acceptEvents m x.sender }) := by
  unfold take
  dsimp only
  rw [Node.ingest_of_decode _ _ h]

/-- A roster tells a node of the clients of the neighbor that it comes from. -/
theorem Sound.take_roster (h : c.Sound l) {x : Parcel} {m : Message} {ids : List String}
    {q : Position} {side : Side} (hd : Datagram.decode x.datagram = .ok m)
    (hk : m.kind = side.syncKind) (hi : m.roster? = some ids)
    (hq : l.topology.neighbor? side.opposite p = some q)
    (hids : ∀ id ∈ ids, (q, id) ∈ c.registered) : (c.take l p x).Sound l := by
  have hr := c.registered_subset p ((c.stations p).state.registry.receive m x.sender)
  have hs := (h.stations p).mono hr
  have hsync : m.kind.isSync = true := by
    rw [hk]
    exact side.isSync_syncKind
  rw [take_of_decode hd, Node.queue_accept_of_sync _ _ hsync, Nat.sub_self, List.replicate_zero,
    List.append_nil]
  apply h.advance
  · apply hs.receive rfl
    · dsimp only
      rw [Node.queue_accept_of_sync _ _ hsync]
      exact hs.queue
    · exact fun k hk => mem_registeredAfter hk
    · intro hc
      rw [hc] at hsync
      cases hsync
    · intro t ho id hid
      rw [hk, Side.origin?_syncKind] at ho
      cases ho
      rw [hi] at hid
      exact ⟨q, hq, hr (hids id hid)⟩
  · exact nofun

/-- Any other message waits at the node with the trail along which it came. -/
theorem Sound.take_word (h : c.Sound l) {x : Parcel} {m : Message}
    (hd : Datagram.decode x.datagram = .ok m) (hm : m.Ordinary)
    (hx : Passed l c.registered m p x.trail) (ha : m.kind = .connect → l.Outside x.sender) :
    (c.take l p x).Sound l := by
  have hr := c.registered_subset p ((c.stations p).state.registry.receive m x.sender)
  have hs := (h.stations p).mono hr
  have hlen : (Node.accept m x.sender (c.stations p).state).queue.length -
      (c.stations p).state.queue.length = 1 := by
    rw [Node.queue_accept _ _ hm.notSync, List.length_append]
    exact Nat.add_sub_cancel_left _ 1
  rw [take_of_decode hd, hlen]
  apply h.advance
  · apply hs.receive rfl
    · dsimp only
      rw [Node.queue_accept _ _ hm.notSync]
      exact List.rel_append hs.queue (.cons ⟨hm, hx.mono hr⟩ .nil)
    · exact fun k hk => mem_registeredAfter hk
    · exact ha
    · intro side ho
      exact absurd ho (Message.Kind.origin?_ne_some hm.notSync side)
  · exact nofun

/-- What a node takes in and files is what was true of the sender of it. -/
theorem Sound.take (h : c.Sound l) {x : Parcel} (hx : x.Sound l c.registered)
    (hp : l.topology.isValid p = true) (ht : x.target = l.home p) : (c.take l p x).Sound l := by
  cases hx with
  | roster encoded valid kind ids_eq place next target known =>
    have hq := l.apart _ p (Topology.isValid_of_neighbor? next) hp (target.symm.trans ht)
    subst hq
    exact h.take_roster (Datagram.decode_of_encode encoded valid) kind ids_eq
      (Topology.neighbor?_opposite place next) known
  | word encoded ordinary passed target sender =>
    cases target p hp ht
    apply h.take_word (Datagram.decode_of_encode encoded ordinary.valid) ordinary passed
    intro hc
    rcases sender hc with ho | ho
    · exact absurd ht.symm (ho p hp)
    · exact ho

/-- A message goes to clients of the node, or to a neighbor that has had its destination, and then
the node joins its trail. -/
theorem Sound.parcel_of_plan (h : c.Sound l) {m : Message} {queue : List Message} {d : List UInt8}
    {a : Address}
    (hq : (c.stations p).state.queue = m :: queue) (hd : Datagram.encode m = .ok d)
    (ha : a ∈ ((c.stations p).state.registry.plan m).targets) :
    Parcel.Sound l c.registered ⟨l.home p, a, d, c.nextTrail p⟩ := by
  have hs := h.stations p
  have hqueue := hs.queue
  rw [hq] at hqueue
  obtain ⟨trail, trails, ⟨hm, hpassed⟩, _, htrails⟩ := List.forall₂_cons_left_iff.mp hqueue
  have hnext := nextTrail_eq hq htrails
  -- What stays here goes to a client, and the trail stays as it is.
  have hlocal : (c.stations p).state.registry.passesOn m = false → l.Outside a →
      Parcel.Sound l c.registered ⟨l.home p, a, d, c.nextTrail p⟩ := by
    intro hpass hout
    rw [hnext, hpass]
    exact .word hd hm hpassed (fun q hv he => absurd he.symm (hout q hv)) fun _ => .inl hout
  cases hb : m.isBroadcast with
  | true =>
    have hplan := Registry.plan_broadcast (r := (c.stations p).state.registry) hb
    rw [hplan] at ha
    obtain ⟨k, hk, rfl⟩ := List.mem_map.mp ha
    apply hlocal
    · unfold Registry.passesOn
      rw [hplan]
    · exact hs.addresses k (List.mem_filter.mp hk).1
  | false =>
    cases hsession : (c.stations p).state.registry.session? m.destination with
    | some k =>
      have hplan := Registry.plan_of_session hb hsession
      rw [hplan] at ha
      cases List.mem_singleton.mp ha
      apply hlocal
      · unfold Registry.passesOn
        rw [hplan]
      · exact hs.addresses k (Registry.session?_eq_some hsession).1
    | none =>
      rcases Registry.plan_of_absence hb hsession with hplan | ⟨side, k, hplan, hk, hid⟩
      · rw [hplan] at ha
        cases ha
      · have hpass : (c.stations p).state.registry.passesOn m = true := by
          unfold Registry.passesOn
          rw [hplan]
        rw [hplan] at ha
        cases List.mem_singleton.mp ha
        obtain ⟨q, hq, hhome⟩ := hs.neighbors side k hk
        obtain ⟨q', hq', hreg⟩ := hs.rosters side _ hid
        cases hq.symm.trans hq'
        rw [hnext, hpass]
        apply Parcel.Sound.word (p := q) hd hm
        · exact ⟨hb, ⟨side, hq⟩, hreg, hpassed⟩
        · intro q' hv he
          exact l.apart q' q hv (Topology.isValid_of_neighbor? hq) (he.symm.trans hhome)
        · intro hc
          rw [hm.open_of_connect hc] at hb
          cases hb

/-- A message that is passed on to a neighbor has a trail that is longer by the node, and the roster
that sent it there tells that the neighbor has had its destination. -/
theorem Sound.dispatch (h : c.Sound l) (e : Surroundings) :
    (c.advance l p (c.stations p).trails.tail (c.nextTrail p)
      (Node.dispatch e (c.stations p).state)).Sound l := by
  have hregistry := Node.registry_dispatch e (c.stations p).state
  have hr := c.registered_subset p (c.stations p).state.registry
  have hs := (h.stations p).mono hr
  apply h.advance
  · rw [hregistry]
    apply hs.requeue hregistry
    dsimp only
    rw [Node.queue_dispatch]
    have hqueue := hs.queue
    cases hq : (c.stations p).state.queue with
    | nil =>
      rw [hq] at hqueue
      rw [List.forall₂_nil_left_iff.mp hqueue]
      exact .nil
    | cons m queue =>
      rw [hq] at hqueue
      obtain ⟨trail, trails, _, hrest, htrails⟩ := List.forall₂_cons_left_iff.mp hqueue
      rw [htrails]
      exact hrest
  · intro x hx
    obtain ⟨m, queue, hq, hd, ha, _⟩ := (Node.mem_sent_dispatch e).mp hx
    rw [hregistry]
    exact (h.parcel_of_plan hq hd ha).mono hr

/-- A roster that is pushed holds the clients that the node has at that time. -/
theorem Sound.look (h : c.Sound l) (hp : l.topology.isValid p = true) (side : Side)
    {e : Surroundings} (he : l.Agrees e.lookup) :
    (c.advance l p (c.stations p).trails []
      ((l.topology.node p).syncSide e side (c.stations p).state)).Sound l := by
  have hs := h.stations p
  obtain ⟨hregistry, hqueue, hsent⟩ := (l.topology.node p).syncSide_eq e side (c.stations p).state
  have hclients : ((l.topology.node p).syncSide e side (c.stations p).state).1.registry.clients =
      (c.stations p).state.registry.clients := by
    rcases hregistry with hregistry | ⟨_, found, hregistry, _⟩
    · rw [hregistry]
    · rw [hregistry, Registry.clients_setNeighbor]
  have hr := c.registered_subset p
    ((l.topology.node p).syncSide e side (c.stations p).state).1.registry
  have hs' := hs.mono hr
  apply h.advance
  · constructor
    · dsimp only
      rw [hqueue]
      exact hs'.queue
    · dsimp only
      rw [hclients]
      exact hs'.sessions
    · dsimp only
      rw [hclients]
      exact hs'.addresses
    · intro t k hk
      dsimp only at hk
      rcases hregistry with hregistry | ⟨q, found, hregistry, hq, hfound⟩
      · rw [hregistry] at hk
        exact hs.neighbors t k hk
      · rw [hregistry, Registry.neighbor_setNeighbor] at hk
        split at hk
        · rename_i ht
          subst ht
          exact ⟨q, hq, he q k.address (hfound k hk)⟩
        · exact hs.neighbors t k hk
    · intro t id hid
      dsimp only at hid
      rcases hregistry with hregistry | ⟨q, found, hregistry, _⟩
      · rw [hregistry] at hid
        exact hs'.rosters t id hid
      · rw [hregistry, Registry.roster_setNeighbor] at hid
        exact hs'.rosters t id hid
  · intro x hx
    obtain ⟨t, ht, htarget, hdatagram, _⟩ := Output.mem_sent.mp hx
    obtain ⟨k, hk, hka, hroster⟩ := hsent t ht
    obtain ⟨m, hd, hv, hkind, hids⟩ := Node.rosterDatagram_eq_ok hroster
    obtain ⟨q, hq, hhome⟩ := hs.neighbors side k hk
    rw [← htarget, ← hdatagram]
    apply Parcel.Sound.mono hr
    apply Parcel.Sound.roster hd hv hkind hids hp hq (hka.trans hhome)
    intro id hid
    obtain ⟨x, hmem, rfl⟩ := List.mem_map.mp hid
    exact hs.sessions x hmem

theorem Sound.post (h : c.Sound l) {client : Address} {m : Message} {d : List UInt8}
    (hp : l.topology.isValid p = true) (hc : l.Outside client) (hm : m.OfClient)
    (hd : Datagram.encode m = .ok d) :
    Sound l { c with transit := c.transit ++ [⟨client, l.home p, d, []⟩] } where
  stations := h.stations
  transit := by
    intro x hx
    rcases List.mem_append.mp hx with hx | hx
    · exact h.transit x hx
    · cases List.mem_singleton.mp hx
      apply Parcel.Sound.word (p := p) hd (hm.ordinary hd)
      · trivial
      · exact fun q hq he => (l.apart p q hp hq he).symm
      · exact fun _ => .inr hc

theorem Sound.lose (h : c.Sound l) (k : Nat) :
    Sound l { c with transit := c.transit.eraseIdx k } where
  stations := h.stations
  transit := fun x hx => h.transit x (List.mem_of_mem_eraseIdx hx)

/-- No move makes a chain unsound. -/
theorem Sound.step (h : c.Sound l) {x : Move} (hx : x.Legal l) : (c.step l x).Sound l := by
  unfold Chain.step
  cases x with
  | post client p m =>
    dsimp only
    cases hd : Datagram.encode m with
    | error cause => exact h
    | ok d => exact h.post hx.1 hx.2.1 hx.2.2 hd
  | arrive k p =>
    dsimp only
    split
    · rename_i y hy
      split
      · rename_i hp
        exact (h.lose k).take (h.transit y (List.mem_of_getElem? hy)) hp.1 hp.2
      · exact h
    · exact h
  | lose k => exact h.lose k
  | dispatch p e => exact h.dispatch e
  | look p side e => exact h.look hx.1 side hx.2

/-- Every chain that can come about is sound. -/
theorem sound_run {moves : List Move} (h : ∀ x ∈ moves, x.Legal l) :
    (initial.run l moves).Sound l := by
  induction moves using List.reverseRecOn with
  | nil => exact sound_initial
  | append_singleton moves x ih =>
    unfold run
    rw [List.foldl_append]
    exact (ih fun y hy => h y (List.mem_append_left _ hy)).step (h x (by simp))

end Chain

end ChatRelay
