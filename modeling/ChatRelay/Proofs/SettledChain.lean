import ChatRelay.Proofs.Bookkeeping
import ChatRelay.Proofs.ForwardTrails

namespace ChatRelay

/-- Only a plan that leads nowhere is counted as a miss. -/
theorem Node.routingMisses_dispatch (e : Surroundings) {s : State} {m : Message}
    {queue : List Message} {d : List UInt8} (hq : s.queue = m :: queue)
    (hd : Datagram.encode m = .ok d) :
    (dispatch e s).1.counters.routingMisses =
      s.counters.routingMisses + if s.registry.plan m = .miss then 1 else 0 := by
  rw [dispatch_cons e hq]
  dsimp only
  by_cases hp : s.registry.plan m = .miss
  · rw [relay_of_miss e (s := { s with queue := queue }) hd hp, if_pos hp]
  · obtain ⟨log, _, hrelay⟩ := relay_of_plan e (s := { s with queue := queue }) hd hp
    rw [hrelay, if_neg hp]
    unfold sendAll
    dsimp only
    rw [foldl_countAttempt]
    rfl

/-- Where a message for someone ends: with a session at the node that it comes to, with a session at
a neighbor of that node, or nowhere. -/
inductive Course where
  | here (session : Connection)
  | beside (q : Position) (session : Connection)
  | nowhere
deriving DecidableEq, Repr

namespace Chain

variable {l : Layout} {c : Chain} {p q : Position} {m : Message} {e : Surroundings}

def session? (c : Chain) (p : Position) (id : String) : Option Connection :=
  (c.stations p).state.registry.session? id

def misses (c : Chain) (p : Position) : Nat :=
  (c.stations p).state.counters.routingMisses

/-- Every node knows where its neighbors listen, and holds their clients as they are. -/
structure Synchronised (l : Layout) (c : Chain) : Prop where
  linked : ∀ p side, l.topology.isValid p = true →
    ((c.stations p).state.registry.neighbor side).map Connection.address =
      (l.topology.neighbor? side p).map l.home
  agreed : ∀ p q side, l.topology.isValid p = true → l.topology.neighbor? side p = some q →
    (c.stations p).state.registry.roster side = (c.stations q).state.registry.clientIds

/-- The way of a message for someone that comes to a node: sessions there come first, then those at
the left neighbor, then those at the right one. Nodes further away do not count. -/
inductive Leads (l : Layout) (c : Chain) (p : Position) (id : String) : Course → Prop where
  | here {s : Connection} (hs : c.session? p id = some s) : Leads l c p id (.here s)
  | left {q : Position} {s : Connection} (hhere : c.session? p id = none)
      (hq : l.topology.left? p = some q) (hs : c.session? q id = some s) :
      Leads l c p id (.beside q s)
  | right {q : Position} {s : Connection} (hhere : c.session? p id = none)
      (hleft : ∀ q, l.topology.left? p = some q → c.session? q id = none)
      (hq : l.topology.right? p = some q) (hs : c.session? q id = some s) :
      Leads l c p id (.beside q s)
  | nowhere (hhere : c.session? p id = none)
      (hleft : ∀ q, l.topology.left? p = some q → c.session? q id = none)
      (hright : ∀ q, l.topology.right? p = some q → c.session? q id = none) :
      Leads l c p id .nowhere

/-- Someone is beside a node on a side, or not. -/
theorem beside_or_absent (l : Layout) (c : Chain) (p : Position) (side : Side) (id : String) :
    (∃ q s, l.topology.neighbor? side p = some q ∧ c.session? q id = some s) ∨
      ∀ q, l.topology.neighbor? side p = some q → c.session? q id = none := by
  by_cases h : ∃ q s, l.topology.neighbor? side p = some q ∧ c.session? q id = some s
  · exact .inl h
  · refine .inr fun q hq => ?_
    cases hs : c.session? q id with
    | none => rfl
    | some s => exact absurd ⟨q, s, hq, hs⟩ h

theorem exists_leads (l : Layout) (c : Chain) (p : Position) (id : String) :
    ∃ course, c.Leads l p id course := by
  cases hs : c.session? p id with
  | some s => exact ⟨_, .here hs⟩
  | none =>
    rcases beside_or_absent l c p .left id with ⟨q, s, hq, hs'⟩ | hleft
    · exact ⟨_, .left hs hq hs'⟩
    · rcases beside_or_absent l c p .right id with ⟨q, s, hq, hs'⟩ | hright
      · exact ⟨_, .right hs hleft hq hs'⟩
      · exact ⟨_, .nowhere hs hleft hright⟩

theorem Leads.session?_beside {id : String} {s : Connection}
    (h : c.Leads l p id (.beside q s)) : c.session? q id = some s := by
  cases h with
  | left _ _ hs => exact hs
  | right _ _ _ hs => exact hs

/-- The roster of a side tells of those with a session at the neighbor there. -/
theorem Synchronised.mem_roster (h : c.Synchronised l) (hp : l.topology.isValid p = true)
    {side : Side} (hq : l.topology.neighbor? side p = some q) {id : String} :
    id ∈ (c.stations p).state.registry.roster side ↔ c.session? q id ≠ none := by
  rw [h.agreed p q side hp hq]
  unfold session? Registry.clientIds
  rw [ne_eq, Registry.session?_eq_none, List.mem_map]
  push Not
  rfl

/-- A roster tells of a client where the neighbor has it. -/
theorem Synchronised.through?_of_session (h : c.Synchronised l)
    (hp : l.topology.isValid p = true) {side : Side}
    (hq : l.topology.neighbor? side p = some q) {id : String} {s : Connection}
    (hs : c.session? q id = some s) :
    (c.stations p).state.registry.through? side id = some (.neighbor side (l.home q)) := by
  have hlinked := h.linked p side hp
  rw [hq] at hlinked
  obtain ⟨n, hn, haddress⟩ := Option.map_eq_some_iff.mp hlinked
  refine Registry.through?_eq_some.mpr ⟨n, hn, ?_, by rw [haddress]⟩
  rw [h.mem_roster hp hq, hs]
  nofun

/-- A roster tells of no client that the neighbor does not have. -/
theorem Synchronised.through?_of_absence (h : c.Synchronised l)
    (hp : l.topology.isValid p = true) {side : Side} {id : String}
    (hs : ∀ q, l.topology.neighbor? side p = some q → c.session? q id = none) :
    (c.stations p).state.registry.through? side id = none := by
  rw [Option.eq_none_iff_forall_ne_some]
  intro x hx
  obtain ⟨n, hn, hid, _⟩ := Registry.through?_eq_some.mp hx
  have hlinked := h.linked p side hp
  rw [hn] at hlinked
  obtain ⟨q, hq, _⟩ := Option.map_eq_some_iff.mp hlinked.symm
  exact (h.mem_roster hp hq).mp hid (hs q hq)

/-- What a node plans is the way of the message. -/
theorem Synchronised.plan_of_leads (h : c.Synchronised l) (hp : l.topology.isValid p = true)
    (hm : m.isBroadcast = false) {course : Course}
    (hc : c.Leads l p m.destination course) :
    match course with
    | .here s => (c.stations p).state.registry.plan m = .here s.address
    | .beside q _ => ∃ side, l.topology.neighbor? side p = some q ∧
        (c.stations p).state.registry.plan m = .neighbor side (l.home q)
    | .nowhere => (c.stations p).state.registry.plan m = .miss := by
  cases hc with
  | here hs => exact Registry.plan_of_session hm hs
  | left hhere hq hs =>
    refine ⟨.left, hq, ?_⟩
    rw [Registry.plan_of_absent hm hhere, h.through?_of_session hp hq hs]
    rfl
  | right hhere hleft hq hs =>
    refine ⟨.right, hq, ?_⟩
    rw [Registry.plan_of_absent hm hhere, h.through?_of_absence hp hleft,
      h.through?_of_session hp hq hs]
    rfl
  | nowhere hhere hleft hright =>
    rw [Registry.plan_of_absent hm hhere, h.through?_of_absence hp hleft,
      h.through?_of_absence hp hright]
    rfl

/-- A node that keeps its registry in a step leaves all registries of the chain alone. -/
theorem registry_advance {trails : List (List Position)} {trail : List Position}
    {next : State × Output} (h : next.1.registry = (c.stations p).state.registry)
    (q : Position) :
    ((c.advance l p trails trail next).stations q).state.registry =
      (c.stations q).state.registry := by
  by_cases hq : q = p
  · subst hq
    rw [stations_advance_self]
    exact h
  · rw [stations_advance_of_ne l c hq]

/-- A message that is no sync comes to a node: it waits there, and nothing else changes. -/
theorem arrive_word {k : Nat} {x : Parcel} (hk : c.transit[k]? = some x)
    (hp : l.topology.isValid p = true) (hx : x.target = l.home p)
    (hd : Datagram.decode x.datagram = .ok m)
    (hm : m.kind = .chat ∨ m.kind = .privateMessage) :
    (c.step l (.arrive k p)).transit = c.transit.eraseIdx k ∧
      ((c.step l (.arrive k p)).stations p).state.queue =
        (c.stations p).state.queue ++ [m] ∧
      ∀ q, ((c.step l (.arrive k p)).stations q).state.registry =
        (c.stations q).state.registry := by
  have hsync : m.kind.isSync = false := by
    rcases hm with hm | hm <;> rw [hm] <;> rfl
  have hreceive : ∀ r : Registry, r.receive m x.sender = r := by
    intro r
    unfold Registry.receive
    rcases hm with hm | hm <;> rw [hm]
  rw [step_arrive_eq hk hp hx, take_of_decode hd]
  refine ⟨List.append_nil _, ?_, fun q => registry_advance (hreceive _) q⟩
  rw [stations_advance_self]
  exact Node.queue_accept x.sender _ hsync

/-- To pass something on changes no registry in the chain. -/
theorem registry_dispatch (l : Layout) (c : Chain) (p q : Position) (e : Surroundings) :
    ((c.step l (.dispatch p e)).stations q).state.registry =
      (c.stations q).state.registry :=
  registry_advance (Node.registry_dispatch e _) q

theorem queue_dispatch (l : Layout) (c : Chain) (p : Position) (e : Surroundings) :
    ((c.step l (.dispatch p e)).stations p).state.queue =
      (c.stations p).state.queue.tail := by
  unfold step
  dsimp only
  rw [stations_advance_self]
  exact Node.queue_dispatch e _

/-- A node passes on some of what waits there. -/
theorem run_dispatches (l : Layout) (c : Chain) (p : Position) (e : Surroundings) (n : Nat) :
    ((c.run l (List.replicate n (.dispatch p e))).stations p).state.queue =
        (c.stations p).state.queue.drop n ∧
      ∀ q, ((c.run l (List.replicate n (.dispatch p e))).stations q).state.registry =
        (c.stations q).state.registry := by
  induction n generalizing c with
  | zero => exact ⟨rfl, fun _ => rfl⟩
  | succ n ih =>
    obtain ⟨hqueue, hregistry⟩ := ih (c.step l (.dispatch p e))
    constructor
    · rw [queue_dispatch, List.drop_tail] at hqueue
      exact hqueue
    · exact fun q => (hregistry q).trans (registry_dispatch l c p q e)

def bring (l : Layout) (c : Chain) (k : Nat) (p : Position) (e : Surroundings) : Chain :=
  c.run l (.arrive k p :: List.replicate (c.stations p).state.queue.length (.dispatch p e))

/-- Then it is the turn of its message, and every node knows what it knew before. -/
theorem bring_word {k : Nat} {x : Parcel} (hk : c.transit[k]? = some x)
    (hp : l.topology.isValid p = true) (hx : x.target = l.home p)
    (hd : Datagram.decode x.datagram = .ok m)
    (hm : m.kind = .chat ∨ m.kind = .privateMessage) (e : Surroundings) :
    ((c.bring l k p e).stations p).state.queue = [m] ∧
      (∀ q, ((c.bring l k p e).stations q).state.registry = (c.stations q).state.registry) ∧
      ((c.stations p).state.queue = [] →
        (c.bring l k p e).transit = c.transit.eraseIdx k) := by
  obtain ⟨htransit, hqueue, hregistry⟩ := arrive_word hk hp hx hd hm
  obtain ⟨hqueue', hregistry'⟩ := run_dispatches l (c.step l (.arrive k p)) p e
    (c.stations p).state.queue.length
  refine ⟨?_, fun q => (hregistry' q).trans (hregistry q), ?_⟩
  · rw [hqueue, List.drop_left] at hqueue'
    exact hqueue'
  · intro hempty
    unfold bring
    rw [hempty]
    exact htransit

/-- What a node sends for a message, and what it counts. -/
theorem turn_of_plan {queue : List Message} {d : List UInt8}
    (hq : (c.stations p).state.queue = m :: queue) (hd : Datagram.encode m = .ok d)
    (he : ∀ a, e.send a = .ok ()) :
    (c.step l (.dispatch p e)).transit = c.transit ++
        (((c.stations p).state.registry.plan m).targets.map fun target =>
          (⟨l.home p, target, d, c.nextTrail p⟩ : Parcel)) ∧
      ∀ q, (c.step l (.dispatch p e)).misses q = c.misses q +
        if q = p ∧ (c.stations p).state.registry.plan m = .miss then 1 else 0 := by
  constructor
  · change c.transit ++ (Node.dispatch e (c.stations p).state).2.sent.map _ = _
    rw [Node.sent_dispatch e hq hd he, List.map_map]
    rfl
  · intro q
    unfold step misses
    dsimp only
    by_cases hqp : q = p
    · subst hqp
      rw [stations_advance_self]
      simp only [true_and]
      exact Node.routingMisses_dispatch e hq hd
    · rw [stations_advance_of_ne l c hqp, if_neg fun h => hqp h.1]
      rfl

/-- In a chain in which every node knows its neighbors and their clients, a message that comes to a
node goes along its way: one datagram to the oldest session here, or one to a neighbor and from
there one to the oldest session there, or none and the node counts a miss. No registry changes. -/
theorem routed_along_course (l : Layout) (c : Chain) (h : c.Synchronised l) (i : Position)
    (hi : l.topology.isValid i = true) (k : Nat) (x : Parcel) (hk : c.transit[k]? = some x)
    (hx : x.target = l.home i) (m : Message) (hm : Datagram.decode x.datagram = .ok m)
    (hkind : m.kind = .chat ∨ m.kind = .privateMessage) (hb : m.isBroadcast = false)
    (d : List UInt8) (hd : Datagram.encode m = .ok d) (e e' : Surroundings)
    (he : ∀ a, e.send a = .ok ()) (he' : ∀ a, e'.send a = .ok ()) :
    let c₁ := c.bring l k i e
    let c₂ := c₁.step l (.dispatch i e)
    ((c.stations i).state.queue = [] → c₁.transit = c.transit.eraseIdx k) ∧
    (∀ p, (c₂.stations p).state.registry = (c.stations p).state.registry) ∧
    (∃ course, c.Leads l i m.destination course) ∧
    ∀ course, c.Leads l i m.destination course →
      match course with
      | .here s =>
        c₂.transit = c₁.transit ++ [⟨l.home i, s.address, d, c₁.nextTrail i⟩] ∧
          ∀ p, c₂.misses p = c₁.misses p
      | .beside j s =>
        c₂.transit = c₁.transit ++ [⟨l.home i, l.home j, d, c₁.nextTrail i⟩] ∧
          (∀ p, c₂.misses p = c₁.misses p) ∧
          let c₃ := c₂.bring l c₁.transit.length j e'
          let c₄ := c₃.step l (.dispatch j e')
          ((c₂.stations j).state.queue = [] → c₃.transit = c₁.transit) ∧
            c₄.transit = c₃.transit ++ [⟨l.home j, s.address, d, c₃.nextTrail j⟩] ∧
            (∀ p, c₄.misses p = c₃.misses p) ∧
            ∀ p, (c₄.stations p).state.registry = (c.stations p).state.registry
      | .nowhere =>
        c₂.transit = c₁.transit ∧ ∀ p, c₂.misses p = c₁.misses p + if p = i then 1 else 0 := by
  intro c₁ c₂
  obtain ⟨hqueue, hregistry, htransit⟩ := bring_word hk hi hx hm hkind e
  have hregistry₂ : ∀ p, (c₂.stations p).state.registry = (c.stations p).state.registry :=
    fun p => (registry_dispatch l c₁ i p e).trans (hregistry p)
  obtain ⟨hturn, hmisses⟩ := turn_of_plan (l := l) hqueue hd he
  rw [hregistry i] at hturn hmisses
  refine ⟨htransit, hregistry₂, exists_leads l c i _, ?_⟩
  intro course hcourse
  have hplan := h.plan_of_leads hi hb hcourse
  cases course with
  | here s =>
    rw [hplan] at hturn hmisses
    exact ⟨hturn, by simpa using hmisses⟩
  | nowhere =>
    rw [hplan] at hturn hmisses
    exact ⟨hturn.trans (List.append_nil _), by simpa using hmisses⟩
  | beside j s =>
    obtain ⟨side, hside, hplan⟩ := hplan
    rw [hplan] at hturn hmisses
    refine ⟨hturn, by simpa using hmisses, ?_⟩
    intro c₃ c₄
    have hj : l.topology.isValid j = true := Topology.isValid_of_neighbor? hside
    have hforwarded : c₂.transit[c₁.transit.length]? =
        some ⟨l.home i, l.home j, d, c₁.nextTrail i⟩ := by
      rw [hturn]
      exact List.getElem?_concat_length
    obtain ⟨hqueue₃, hregistry₃, htransit₃⟩ := bring_word hforwarded hj rfl
      (Datagram.decode_of_encode hd (Datagram.valid_of_decode hm)) hkind e'
    -- Nothing has changed the registry there, so its own session comes before any neighbor.
    have hplan₃ : (c₃.stations j).state.registry.plan m = .here s.address := by
      rw [hregistry₃ j, hregistry₂ j]
      exact Registry.plan_of_session hb hcourse.session?_beside
    obtain ⟨hturn₄, hmisses₄⟩ := turn_of_plan (l := l) hqueue₃ hd he'
    rw [hplan₃] at hturn₄ hmisses₄
    refine ⟨?_, hturn₄, by simpa using hmisses₄, ?_⟩
    · intro hempty
      rw [htransit₃ hempty, hturn, List.eraseIdx_append_of_length_le (Nat.le_refl _), Nat.sub_self]
      exact List.append_nil _
    · exact fun p =>
        ((registry_dispatch l c₃ j p e').trans (hregistry₃ p)).trans (hregistry₂ p)

/-- What a node knows of a side once all nodes know the clients of their neighbors. -/
def settledFlank (l : Layout) (clients : Position → List Connection) (p : Position)
    (side : Side) : Flank where
  roster := ((l.topology.neighbor? side p).map fun q => (clients q).map (·.id)).getD []
  neighbor := (l.topology.neighbor? side p).map fun q => ⟨(l.topology.node q).name, l.home q⟩

def settled (l : Layout) (clients : Position → List Connection) (transit : List Parcel) :
    Chain where
  stations p := ⟨{ State.initial with registry :=
    ⟨clients p, settledFlank l clients p .left, settledFlank l clients p .right⟩ }, []⟩
  transit := transit
  registered := []

/-- Whatever clients the nodes have, all can know their neighbors. -/
theorem synchronised_settled (l : Layout) (clients : Position → List Connection)
    (transit : List Parcel) : (settled l clients transit).Synchronised l where
  linked := by
    intro p side _
    have hneighbor : ((settled l clients transit).stations p).state.registry.neighbor side =
        (settledFlank l clients p side).neighbor := by
      cases side <;> rfl
    rw [hneighbor]
    exact Option.map_map _ _ _
  agreed := by
    intro p q side _ hq
    have hroster : ((settled l clients transit).stations p).state.registry.roster side =
        (settledFlank l clients p side).roster := by
      cases side <;> rfl
    rw [hroster]
    unfold settledFlank
    rw [hq]
    rfl

section Standard

def standardLayout : Layout where
  topology := .standard
  home p := ⟨.v4 127 0 0 1, 8080 + p.index.toUInt16⟩
  apart := by
    intro p q _ _ h
    apply Position.ext_toNat
    have hport : (8080 + p.index.toUInt16 : UInt16) = 8080 + q.index.toUInt16 :=
      congrArg Address.port h
    rw [UInt16.add_right_inj] at hport
    exact congrArg UInt8.toNat (UInt8.toUInt16_inj.mp hport)

def visitors (p : Position) : List Connection :=
  if p = ⟨1⟩ then [⟨"bob", ⟨.v4 10 0 0 1, 1⟩⟩, ⟨"bob", ⟨.v4 10 0 0 2, 2⟩⟩]
  else if p = ⟨2⟩ then [⟨"bob", ⟨.v4 10 0 0 3, 3⟩⟩, ⟨"eve", ⟨.v4 10 0 0 4, 4⟩⟩]
  else []

def letter (destination : String) : Message :=
  ⟨.privateMessage, "ann", destination, .text "hi"⟩

def letterParcel (destination : String) : Parcel :=
  ⟨⟨.v4 10 0 0 9, 9⟩, standardLayout.home ⟨0⟩, Datagram.frame (letter destination).json, []⟩

/-- Someone on the left writes to a client of the middle and to one of the right node. -/
def letters : Chain :=
  settled standardLayout visitors [letterParcel "bob", letterParcel "eve"]

theorem encode_letter : ∀ destination ∈ ["bob", "eve"],
    Datagram.encode (letter destination) = .ok (Datagram.frame (letter destination).json) := by
  simp only [List.forall_mem_cons, List.not_mem_nil, false_imp_iff, implies_true, and_true]
  exact ⟨Datagram.encode_eq_ok.mpr ⟨by decide, rfl⟩, Datagram.encode_eq_ok.mpr ⟨by decide, rfl⟩⟩

/-- One letter goes to the oldest of two sessions next door. The other is missed, for nodes further
away do not count. -/
theorem routed_along_course_letters :
    let l := standardLayout
    let c := letters
    let d := Datagram.frame (letter "bob").json
    let c₁ := c.bring l 0 ⟨0⟩ .calm
    let c₂ := c₁.step l (.dispatch ⟨0⟩ .calm)
    let c₃ := c₂.bring l c₁.transit.length ⟨1⟩ .calm
    let c₄ := c₃.step l (.dispatch ⟨1⟩ .calm)
    let c₅ := c.bring l 1 ⟨0⟩ .calm
    let c₆ := c₅.step l (.dispatch ⟨0⟩ .calm)
    c.Synchronised l ∧ l.topology.isValid ⟨0⟩ = true ∧
      Datagram.encode (letter "bob") = .ok d ∧ Datagram.decode d = .ok (letter "bob") ∧
      (letter "bob").isBroadcast = false ∧
      c₂.transit = c₁.transit ++ [⟨l.home ⟨0⟩, l.home ⟨1⟩, d, c₁.nextTrail ⟨0⟩⟩] ∧
      c₄.transit = c₃.transit ++ [⟨l.home ⟨1⟩, ⟨.v4 10 0 0 1, 1⟩, d, c₃.nextTrail ⟨1⟩⟩] ∧
      c₆.transit = c₅.transit ∧ c₆.misses ⟨0⟩ = c₅.misses ⟨0⟩ + 1 := by
  intro l c d c₁ c₂ c₃ c₄ c₅ c₆
  have hsync : c.Synchronised l := synchronised_settled _ _ _
  have hbob : Datagram.encode (letter "bob") = .ok d := encode_letter _ (by decide)
  have hbob' : Datagram.decode d = .ok (letter "bob") := Datagram.decode_of_encode hbob (by decide)
  have heve := encode_letter "eve" (by decide)
  have heve' := Datagram.decode_of_encode heve (by decide)
  obtain ⟨_, _, _, hcourse⟩ := routed_along_course l c hsync ⟨0⟩ (by decide) 0 (letterParcel "bob")
    rfl rfl (letter "bob") hbob' (.inr rfl) (by decide) d hbob .calm .calm (fun _ => rfl)
    (fun _ => rfl)
  obtain ⟨_, _, _, hcourse'⟩ := routed_along_course l c hsync ⟨0⟩ (by decide) 1
    (letterParcel "eve") rfl rfl (letter "eve") heve' (.inr rfl) (by decide) _ heve .calm .calm
    (fun _ => rfl) (fun _ => rfl)
  have hleft : ∀ q id, l.topology.left? ⟨0⟩ = some q → c.session? q id = none :=
    fun q id hq => by cases hq
  have hleads : c.Leads l ⟨0⟩ "bob" (.beside ⟨1⟩ ⟨"bob", ⟨.v4 10 0 0 1, 1⟩⟩) :=
    .right (by decide) (fun q => hleft q _) (by decide) (by decide)
  have hleads' : c.Leads l ⟨0⟩ "eve" .nowhere := by
    refine .nowhere (by decide) (fun q => hleft q _) ?_
    intro q hq
    have hmiddle : l.topology.right? ⟨0⟩ = some ⟨1⟩ := by decide
    cases hmiddle.symm.trans hq
    decide
  obtain ⟨hone, _, _, htwo, _⟩ := hcourse _ hleads
  obtain ⟨hnone, hmiss⟩ := hcourse' _ hleads'
  exact ⟨hsync, by decide, hbob, hbob', by decide, hone, htwo, hnone, hmiss ⟨0⟩⟩

end Standard

end Chain

end ChatRelay
