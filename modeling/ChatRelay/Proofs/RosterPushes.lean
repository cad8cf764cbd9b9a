import ChatRelay.Proofs.Neighbors
import ChatRelay.Proofs.RunKnowledge
import ChatRelay.Proofs.Schedule
import ChatRelay.Proofs.WholeChain

namespace ChatRelay

namespace Topology

variable {t : Topology} {p : Position}

/-- The nodes of a table without fault have names. -/
theorem name_node_ne_empty (ht : t.fault? = none) (hp : t.isValid p = true) :
    (t.node p).name ≠ "" := by
  have hlt : p.index.toNat < t.nodes.length := of_decide_eq_true hp
  have hname : (t.node p).name = t.nodes[p.index.toNat].name := by
    unfold node name? node?
    rw [List.getElem?_eq_getElem hlt]
    rfl
  rw [hname]
  exact ((fault?_eq_none.mp ht).named _ (List.getElem_mem hlt)).1

theorem name_node {name : String} (h : t.name? p = some name) : (t.node p).name = name := by
  unfold node
  rw [h]
  rfl

end Topology

/-- A roster that a node has told, and the datagram that holds it. -/
structure Telling where
  ids : List String
  datagram : List UInt8
deriving DecidableEq, Repr

/-- The clients that a node has told a side of in a moment, if a datagram got away. -/
def Moment.tellings (side : Side) (x : Moment) : List Telling :=
  if x.turn.step = .sync side then
    x.output.sent.map fun d => ⟨x.before.registry.clientIds, d.2⟩
  else []

theorem Moment.ids_of_mem_tellings {side : Side} {x : Moment} {y : Telling}
    (h : y ∈ x.tellings side) :
    x.turn.step = .sync side ∧ y.ids = x.before.registry.clientIds ∧
      ∃ d ∈ x.output.sent, y.datagram = d.2 := by
  unfold tellings at h
  split at h
  · rename_i hstep
    obtain ⟨d, hd, rfl⟩ := List.mem_map.mp h
    exact ⟨hstep, rfl, d, hd, rfl⟩
  · cases h

namespace Node

variable (n : Node) (s : State)

/-- The name of a neighbor that a node knows is that of its place. -/
theorem neighbor_moment (x : Turn) {side : Side} {c : Connection}
    (h : (n.moment s x).after.registry.neighbor side = some c) :
    s.registry.neighbor side = some c ∨
      ∃ p, n.topology.neighbor? side n.position = some p ∧ n.topology.name? p = some c.id := by
  obtain ⟨e, step⟩ := x
  cases step with
  | ingest a d =>
    change (n.ingest a d s).1.registry.neighbor side = some c at h
    cases hd : Datagram.decode d with
    | error cause =>
      rw [n.ingest_of_damage s hd] at h
      exact .inl h
    | ok m =>
      rw [n.ingest_of_decode s hd] at h
      change (s.registry.receive m a).neighbor side = some c at h
      rw [Registry.neighbor_receive] at h
      exact .inl h
  | dispatch =>
    change (dispatch e s).1.registry.neighbor side = some c at h
    rw [registry_dispatch] at h
    exact .inl h
  | sync side' => exact n.neighbor_syncSide e h

/-- Only a sync of its kind changes a roster. -/
theorem roster_moment (x : Turn) {side : Side}
    (h : ∀ y ∈ x.step.arrival?, y.2.kind ≠ side.syncKind) :
    (n.moment s x).after.registry.roster side.opposite = s.registry.roster side.opposite := by
  refine ((n.step_alike x.surroundings s x.step).roster side.opposite).trans ?_
  cases hx : x.step.arrival? with
  | none => rfl
  | some y =>
    change (s.registry.receive y.2 y.1).roster side.opposite = _
    rw [Registry.roster_receive, if_neg]
    intro ho
    have hkind := (Side.origin?_eq_some _ _).mp ho
    have hother := h y hx
    cases side <;> exact hother hkind

/-- Whatever a node tells a side are the clients that it has, under its own name and the name of the
neighbor. -/
theorem encode_of_mem_tellings {x : Turn} {side : Side} {y : Telling}
    (h : y ∈ (n.moment s x).tellings side) :
    ∃ c, s.registry.neighbor side = some c ∧ n.name ≠ "" ∧
      Datagram.encode (n.rosterMessage side c.id y.ids) = .ok y.datagram := by
  obtain ⟨e, step⟩ := x
  obtain ⟨hstep, hids, d, hd, hdata⟩ := Moment.ids_of_mem_tellings h
  change step = .sync side at hstep
  subst hstep
  obtain ⟨a, ha, _, had, _⟩ := Output.mem_sent.mp hd
  obtain ⟨c, hc, _, hroster⟩ := (n.syncSide_eq e side s).2.2 a ha
  obtain ⟨hname, hencode⟩ := n.rosterDatagram_iff.mp hroster
  rw [hids, hdata, ← had]
  exact ⟨c, hc, hname, hencode⟩

end Node

/-- A node, its neighbor on one side, what the node has told that side so far, and what the neighbor
has heard of this. -/
structure Link where
  teller : State
  listener : State
  told : List Telling
  heard : List Telling

namespace Link

/-- What happens at a link: either node makes a turn, or the neighbor hears something that it has
been told. -/
inductive Move where
  | teller (x : Turn)
  | listener (x : Turn)
  | hear (k : Nat) (sender : Address)

/-- What else comes to the neighbor is no sync from this side. -/
def Move.Legal (side : Side) : Move → Prop
  | .listener x => ∀ y ∈ x.step.arrival?, y.2.kind ≠ side.syncKind
  | .teller _ | .hear _ _ => True

instance (side : Side) (x : Move) : Decidable (x.Legal side) :=
  match x with
  | .listener x => inferInstanceAs (Decidable (∀ y ∈ x.step.arrival?, y.2.kind ≠ side.syncKind))
  | .teller _ | .hear _ _ => isTrue trivial

def initial : Link := ⟨.initial, .initial, [], []⟩

section Moves

variable (t : Topology) (side : Side) (p q : Position)

def step (w : Link) : Move → Link
  | .teller x =>
    let next := (t.node p).moment w.teller x
    { w with teller := next.after, told := w.told ++ next.tellings side }
  | .listener x => { w with listener := ((t.node q).moment w.listener x).after }
  | .hear k sender =>
    match w.told[k]? with
    | some y =>
      { w with
        listener := ((t.node q).ingest sender y.datagram w.listener).1
        heard := w.heard ++ [y] }
    | none => w

def run (moves : List Move) : Link :=
  moves.foldl (step t side p q) initial

theorem run_concat (moves : List Move) (x : Move) :
    run t side p q (moves ++ [x]) = (run t side p q moves).step t side p q x := by
  unfold run
  rw [List.foldl_append]
  rfl

def message (ids : List String) : Message :=
  (t.node p).rosterMessage side (t.node q).name ids

end Moves

variable {t : Topology} {side : Side} {p q : Position} {w : Link} {moves : List Move}

/-- Whatever has been told was told in some moment. -/
theorem exists_push {y : Telling} (h : y ∈ (run t side p q moves).told) :
    ∃ before e after, moves = before ++ .teller ⟨e, .sync side⟩ :: after ∧
      y ∈ ((t.node p).moment (run t side p q before).teller ⟨e, .sync side⟩).tellings side := by
  induction moves using List.reverseRecOn with
  | nil => cases h
  | append_singleton moves x ih =>
    have hearlier : y ∈ (run t side p q moves).told →
        ∃ before e after, moves ++ [x] = before ++ .teller ⟨e, .sync side⟩ :: after ∧
          y ∈ ((t.node p).moment (run t side p q before).teller
            ⟨e, .sync side⟩).tellings side := by
      intro h
      obtain ⟨before, e, after, rfl, hy⟩ := ih h
      exact ⟨before, e, after ++ [x], by simp, hy⟩
    rw [run_concat] at h
    cases x with
    | teller x =>
      rcases List.mem_append.mp h with h | h
      · exact hearlier h
      · obtain ⟨e, step⟩ := x
        have hstep : step = .sync side := (Moment.ids_of_mem_tellings h).1
        subst hstep
        exact ⟨moves, e, [], rfl, h⟩
    | listener x => exact hearlier h
    | hear k sender =>
      unfold step at h
      dsimp only at h
      split at h
      · exact hearlier h
      · exact hearlier h

/-- The teller knows its neighbor by name, everything told can be read, and the roster of the
listener is the one that it has heard last. -/
structure Sound (t : Topology) (side : Side) (p q : Position) (w : Link) : Prop where
  named : ∀ c, w.teller.registry.neighbor side = some c → (t.node q).name = c.id
  told : ∀ y ∈ w.told, Datagram.encode (message t side p q y.ids) = .ok y.datagram
  heard : ∀ y ∈ w.heard, y ∈ w.told
  roster : w.listener.registry.roster side.opposite =
    (w.heard.getLast?.map Telling.ids).getD []

theorem sound_initial : initial.Sound t side p q where
  named := by cases side <;> exact nofun
  told := List.forall_mem_nil _
  heard := List.forall_mem_nil _
  roster := by cases side <;> rfl

/-- What a node has told can be read wherever it comes to. -/
theorem Sound.decode_of_told (h : w.Sound t side p q) (hname : (t.node p).name ≠ "")
    {y : Telling} (hy : y ∈ w.told) : Datagram.decode y.datagram = .ok (message t side p q y.ids) :=
  Datagram.decode_of_encode (h.told y hy) ((t.node p).valid_rosterMessage.mpr hname)

/-- What the teller tells is what it knows at the time, in the order in which it tells it. -/
theorem Sound.teller (h : w.Sound t side p q) (hq : t.neighbor? side p = some q) (x : Turn) :
    (w.step t side p q (.teller x)).Sound t side p q where
  named := by
    intro c hc
    rcases (t.node p).neighbor_moment w.teller x hc with hc | ⟨q', hq', hname⟩
    · exact h.named c hc
    · -- Found in this turn, at the only place that lies on this side.
      cases hq.symm.trans hq'
      exact Topology.name_node hname
  told := by
    intro y hy
    rcases List.mem_append.mp hy with hy | hy
    · exact h.told y hy
    · obtain ⟨c, hc, _, hencode⟩ := (t.node p).encode_of_mem_tellings w.teller hy
      unfold message
      rw [h.named c hc]
      exact hencode
  heard := fun y hy => List.mem_append_left _ (h.heard y hy)
  roster := h.roster

theorem Sound.listener (h : w.Sound t side p q) {x : Turn}
    (hx : (Move.listener x).Legal side) :
    (w.step t side p q (.listener x)).Sound t side p q where
  named := h.named
  told := h.told
  heard := h.heard
  roster := ((t.node q).roster_moment w.listener x hx).trans h.roster

/-- What hearing a roster does to the neighbor. -/
theorem Sound.ingest_of_told (h : w.Sound t side p q) (hname : (t.node p).name ≠ "")
    {y : Telling} (hy : y ∈ w.told) (sender : Address) :
    (t.node q).ingest sender y.datagram w.listener =
      (Node.accept (message t side p q y.ids) sender w.listener,
        { log := [.received side.syncKind (t.node p).name sender] }) := by
  rw [(t.node q).ingest_of_decode _ (h.decode_of_told hname hy)]
  congr 1
  unfold Node.acceptEvents Node.isMisaddressed message Node.rosterMessage
  cases side <;> simp [Side.syncKind]

theorem roster_accept (ids : List String) (sender : Address) (s : State) (side' : Side) :
    (Node.accept (message t side p q ids) sender s).registry.roster side' =
      if side' = side.opposite then ids else s.registry.roster side' := by
  cases side <;> cases side' <;> rfl

/-- The listener holds what it has heard last, also where that was told before what it heard
earlier. -/
theorem Sound.hear (h : w.Sound t side p q) (hname : (t.node p).name ≠ "") (k : Nat)
    (sender : Address) : (w.step t side p q (.hear k sender)).Sound t side p q := by
  unfold step
  dsimp only
  split
  · rename_i y hk
    have hy : y ∈ w.told := List.mem_of_getElem? hk
    refine ⟨h.named, h.told, ?_, ?_⟩
    · intro z hz
      rcases List.mem_append.mp hz with hz | hz
      · exact h.heard z hz
      · cases List.mem_singleton.mp hz
        exact hy
    · dsimp only
      rw [h.ingest_of_told hname hy sender, roster_accept, if_pos rfl, List.getLast?_concat]
      rfl
  · exact h

theorem sound_run (hname : (t.node p).name ≠ "") (hq : t.neighbor? side p = some q)
    (hlegal : ∀ x ∈ moves, x.Legal side) : (run t side p q moves).Sound t side p q := by
  induction moves using List.reverseRecOn with
  | nil => exact sound_initial
  | append_singleton moves x ih =>
    have h := ih fun y hy => hlegal y (List.mem_append_left _ hy)
    have hx : x.Legal side := hlegal x (by simp)
    rw [run_concat]
    cases x with
    | teller x => exact h.teller hq x
    | listener x => exact h.listener hx
    | hear k sender => exact h.hear hname k sender

/-- A roster that no datagram can hold is not sent. -/
theorem Sound.attempts_of_too_long (h : w.Sound t side p q) (e : Surroundings)
    (hlong : Datagram.maxLength <
      (Datagram.frame (message t side p q w.teller.registry.clientIds).json).length) :
    ((t.node p).moment w.teller ⟨e, .sync side⟩).output.attempts = [] := by
  apply List.eq_nil_iff_forall_not_mem.mpr
  intro a ha
  obtain ⟨c, hc, _, hroster⟩ := ((t.node p).syncSide_eq e side w.teller).2.2 a ha
  obtain ⟨_, hencode⟩ := (t.node p).rosterDatagram_iff.mp hroster
  rw [← h.named c hc] at hencode
  exact absurd (Datagram.encode_eq_ok.mp hencode).1 (Nat.not_le_of_lt hlong)

/-- A roster that fits is sent to the neighbor once this is known. -/
theorem Sound.attempts_of_fits (h : w.Sound t side p q) (hname : (t.node p).name ≠ "")
    (hq : t.neighbor? side p = some q) {e : Surroundings} {c : Connection}
    (hc : w.teller.registry.neighbor side = some c) (he : e.send c.address = .ok ())
    (hfits : (Datagram.frame (message t side p q w.teller.registry.clientIds).json).length ≤
      Datagram.maxLength) :
    ((t.node p).moment w.teller ⟨e, .sync side⟩).output.attempts =
      [⟨c.address, Datagram.frame (message t side p q w.teller.registry.clientIds).json,
        .ok ()⟩] := by
  have hencode := Datagram.encode_eq_ok.mpr ⟨hfits, rfl⟩
  unfold message at hencode
  rw [h.named c hc] at hencode
  change ((t.node p).syncSide e side w.teller).2.attempts = _
  rw [(t.node p).syncSide_of_known e hq hc]
  have := (t.node p).attempts_pushRoster e ((t.node p).rosterDatagram_iff.mpr ⟨hname, hencode⟩) he
  rw [this, ← h.named c hc]
  rfl

/-- Of two neighbors in a sound table one holds of the other, at any time, nothing yet or the very
clients that the other had when it told of them some time before. To hear of them changes this
roster and nothing else, and is never taken for a mistake. If the other has the same clients as when
it told what was heard last, both agree. What does not fit a datagram is not told, and what fits is.
-/
theorem roster_agreement (t : Topology) (side : Side) (p q : Position) (moves : List Move)
    (htable : t.fault? = none) (hp : t.isValid p = true) (hq : t.neighbor? side p = some q)
    (hlegal : ∀ x ∈ moves, x.Legal side) :
    let w := run t side p q moves
    (w.heard = [] ∧ w.listener.registry.roster side.opposite = [] ∨
      ∃ before e after y, moves = before ++ .teller ⟨e, .sync side⟩ :: after ∧
        y ∈ ((t.node p).moment (run t side p q before).teller ⟨e, .sync side⟩).tellings side ∧
        w.heard.getLast? = some y ∧
        w.listener.registry.roster side.opposite =
          (run t side p q before).teller.registry.clientIds) ∧
    (∀ y ∈ w.told, ∀ sender,
      let next := (t.node q).ingest sender y.datagram w.listener
      next.1.registry.roster side.opposite = y.ids ∧
        next.1.registry.roster side = w.listener.registry.roster side ∧
        next.1.registry.clients = w.listener.registry.clients ∧
        (∀ side', next.1.registry.neighbor side' = w.listener.registry.neighbor side') ∧
        next.1.queue = w.listener.queue ∧
        ∀ destination sender', .misaddressed destination sender' ∉ next.2.log) ∧
    (∀ y, w.heard.getLast? = some y → w.teller.registry.clientIds = y.ids →
      w.listener.registry.roster side.opposite = w.teller.registry.clientIds) ∧
    ∀ e, let d := Datagram.frame (message t side p q w.teller.registry.clientIds).json
      (Datagram.maxLength < d.length →
        ((t.node p).moment w.teller ⟨e, .sync side⟩).output.attempts = [] ∧
          (w.step t side p q (.teller ⟨e, .sync side⟩)).told = w.told ∧
          (w.step t side p q (.teller ⟨e, .sync side⟩)).listener = w.listener) ∧
      ∀ c, d.length ≤ Datagram.maxLength → w.teller.registry.neighbor side = some c →
        e.send c.address = .ok () →
        ((t.node p).moment w.teller ⟨e, .sync side⟩).output.sent = [(c.address, d)] ∧
          (w.step t side p q (.teller ⟨e, .sync side⟩)).told =
            w.told ++ [⟨w.teller.registry.clientIds, d⟩] := by
  intro w
  have hname := Topology.name_node_ne_empty htable hp
  have h : w.Sound t side p q := sound_run hname hq hlegal
  refine ⟨?_, ?_, ?_, ?_⟩
  · cases hlast : w.heard.getLast? with
    | none =>
      refine .inl ⟨List.getLast?_eq_none_iff.mp hlast, ?_⟩
      rw [h.roster, hlast]
      rfl
    | some y =>
      obtain ⟨before, e, after, hmoves, hy⟩ :=
        exists_push (h.heard y (List.mem_of_getLast? hlast))
      refine .inr ⟨before, e, after, y, hmoves, hy, rfl, ?_⟩
      rw [h.roster, hlast]
      exact (Moment.ids_of_mem_tellings hy).2.1
  · intro y hy sender
    have hsync : (message t side p q y.ids).kind.isSync = true := side.isSync_syncKind
    rw [h.ingest_of_told hname hy sender]
    refine ⟨?_, ?_, ?_, ?_, ?_, ?_⟩
    · rw [roster_accept, if_pos rfl]
    · rw [roster_accept, if_neg (by cases side <;> nofun)]
    · exact Registry.clients_receive_of_sync _ sender hsync
    · exact fun side' => Registry.neighbor_receive _ side' _ sender
    · exact Node.queue_accept_of_sync sender _ hsync
    · intro destination sender' hmem
      cases List.mem_singleton.mp hmem
  · intro y hlast hids
    rw [h.roster, hlast, hids]
    rfl
  · intro e d
    constructor
    · intro hlong
      have hnone := h.attempts_of_too_long e hlong
      refine ⟨hnone, ?_, rfl⟩
      change w.told ++ ((t.node p).moment w.teller ⟨e, .sync side⟩).tellings side = w.told
      unfold Moment.tellings Output.sent
      rw [hnone]
      simp
    · intro c hfits hc he
      have hone := h.attempts_of_fits hname hq hc he hfits
      have hsent : ((t.node p).moment w.teller ⟨e, .sync side⟩).output.sent =
          [(c.address, d)] := by
        unfold Output.sent
        rw [hone]
        rfl
      refine ⟨hsent, ?_⟩
      change w.told ++ ((t.node p).moment w.teller ⟨e, .sync side⟩).tellings side = _
      unfold Moment.tellings
      rw [hsent]
      exact congrArg _ (if_pos rfl)

section Belated

def comes (username : String) : Turn :=
  ⟨.calm, .ingest ⟨.v4 10 0 0 9, 9⟩
    (Datagram.frame (Message.json ⟨.connect, username, Message.everyone, .text ""⟩))⟩

/-- A node finds its neighbor, and tells it of one client and then of two. The neighbor hears the
second first, then the first, and the second again. -/
def belated : List Move :=
  [.teller ⟨.calm, .sync .right⟩, .teller (comes "bob"), .teller ⟨.calm, .sync .right⟩,
    .teller (comes "eve"), .teller ⟨.calm, .sync .right⟩, .listener (comes "joe"),
    .hear 1 ⟨.v4 127 0 0 1, 8080⟩, .hear 0 ⟨.v4 127 0 0 1, 8080⟩, .hear 1 ⟨.v4 127 0 0 1, 8080⟩]

/-- The listener ends up with the roster that came last, which is the one that was told last. -/
theorem roster_agreement_belated :
    let w := run .standard .right ⟨0⟩ ⟨1⟩ belated
    Topology.standard.fault? = none ∧ Topology.standard.isValid ⟨0⟩ = true ∧
      Topology.standard.neighbor? .right ⟨0⟩ = some ⟨1⟩ ∧
      (∀ x ∈ belated, x.Legal .right) ∧
      w.heard.map Telling.ids = [["bob", "eve"], ["bob"], ["bob", "eve"]] ∧
      w.listener.registry.roster .left = w.teller.registry.clientIds := by
  intro w
  have hlegal : ∀ x ∈ belated, x.Legal .right := by decide +kernel
  have hids : w.heard.map Telling.ids = [["bob", "eve"], ["bob"], ["bob", "eve"]] := by
    decide +kernel
  have hclients : w.teller.registry.clientIds = ["bob", "eve"] := by decide +kernel
  obtain ⟨_, _, hagree, _⟩ :=
    roster_agreement .standard .right ⟨0⟩ ⟨1⟩ belated (by decide) (by decide) (by decide) hlegal
  obtain ⟨y, hy, hyids⟩ : ∃ y, w.heard.getLast? = some y ∧ y.ids = ["bob", "eve"] := by
    have hlast := congrArg List.getLast? hids
    rw [List.getLast?_map] at hlast
    exact Option.map_eq_some_iff.mp hlast
  exact ⟨by decide, by decide, by decide, hlegal, hids, hagree y hy (hclients.trans hyids.symm)⟩

end Belated

end Link

end ChatRelay
