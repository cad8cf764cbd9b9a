import ChatRelay.Proofs.Relaying

namespace ChatRelay

@[simp] theorem Side.isSync_syncKind (s : Side) : s.syncKind.isSync = true := by
  cases s <;> rfl

namespace Node

variable (n : Node) (e : Surroundings)

/-- A search writes down the place that the names lead to, or nothing, and sends nothing. -/
theorem findNeighbor_eq (side : Side) (p : Position) (s : State) :
    ∃ found log, n.findNeighbor e side p s =
        ({ s with registry := s.registry.setNeighbor side found }, { log := log }) ∧
      ∀ c, found = some c → n.topology.name? p = some c.id ∧
        n.topology.resolve e.lookup p = .ok c.address := by
  unfold findNeighbor
  dsimp only
  split
  · rename_i c hc
    refine ⟨some c, _, rfl, ?_⟩
    intro c' hc'
    cases hc'
    obtain ⟨address, ha, hc⟩ := Json.bind_eq_ok.mp hc
    split at hc
    · rename_i name hname
      cases hc
      exact ⟨hname, ha⟩
    · cases hc
  · exact ⟨none, _, rfl, nofun⟩

/-- Telling a neighbor changes nothing but counts, and takes one datagram at most. -/
theorem pushRoster_eq (side : Side) (c : Connection) (s : State) :
    ∃ counters, (n.pushRoster e side c s).1 = { s with counters := counters } ∧
      ∀ t ∈ (n.pushRoster e side c s).2.attempts, t.target = c.address ∧
        n.rosterDatagram side c s.registry = .ok t.datagram := by
  unfold pushRoster
  split
  · exact ⟨s.counters, rfl, nofun⟩
  · rename_i d hd
    dsimp only
    split
    · refine ⟨_, rfl, ?_⟩
      intro t ht
      cases List.mem_singleton.mp ht
      exact ⟨rfl, hd⟩
    · refine ⟨_, rfl, ?_⟩
      intro t ht
      cases List.mem_singleton.mp ht
      exact ⟨rfl, hd⟩

/-- Looking after a side leaves the sessions, the rosters, the other side and what waits alone. What
it sends goes to the neighbor that it knew, and holds the clients here. -/
theorem syncSide_eq (side : Side) (s : State) :
    ((n.syncSide e side s).1.registry = s.registry ∨
      ∃ p found, (n.syncSide e side s).1.registry = s.registry.setNeighbor side found ∧
        n.topology.neighbor? side n.position = some p ∧
        ∀ c, found = some c → n.topology.resolve e.lookup p = .ok c.address) ∧
    (n.syncSide e side s).1.queue = s.queue ∧
    ∀ t ∈ (n.syncSide e side s).2.attempts, ∃ c, s.registry.neighbor side = some c ∧
      t.target = c.address ∧ n.rosterDatagram side c s.registry = .ok t.datagram := by
  unfold syncSide
  split
  · exact ⟨.inl rfl, rfl, nofun⟩
  · rename_i p hp
    split
    · obtain ⟨found, log, hf, hc⟩ := n.findNeighbor_eq e side p s
      rw [hf]
      exact ⟨.inr ⟨p, found, rfl, hp, fun c h => (hc c h).2⟩, rfl, nofun⟩
    · rename_i c hc
      obtain ⟨counters, hs, ht⟩ := n.pushRoster_eq e side c s
      rw [hs]
      refine ⟨.inl rfl, rfl, ?_⟩
      intro t hmem
      exact ⟨c, hc, ht t hmem⟩

theorem syncSide_of_end {side : Side} (s : State)
    (h : n.topology.neighbor? side n.position = none) : n.syncSide e side s = (s, {}) := by
  unfold syncSide
  rw [h]

theorem syncSide_of_unknown {side : Side} {p : Position} {s : State}
    (h : n.topology.neighbor? side n.position = some p)
    (hc : s.registry.neighbor side = none) :
    n.syncSide e side s = n.findNeighbor e side p s := by
  unfold syncSide
  rw [h]
  dsimp only
  rw [hc]

theorem syncSide_of_known {side : Side} {p : Position} {s : State} {c : Connection}
    (h : n.topology.neighbor? side n.position = some p)
    (hc : s.registry.neighbor side = some c) :
    n.syncSide e side s = n.pushRoster e side c s := by
  unfold syncSide
  rw [h]
  dsimp only
  rw [hc]

/-- The name of a neighbor that a node knows is that of its place. -/
theorem neighbor_syncSide {side side' : Side} {s : State} {c : Connection}
    (h : (n.syncSide e side' s).1.registry.neighbor side = some c) :
    s.registry.neighbor side = some c ∨
      ∃ p, n.topology.neighbor? side n.position = some p ∧ n.topology.name? p = some c.id := by
  cases hp : n.topology.neighbor? side' n.position with
  | none =>
    rw [n.syncSide_of_end e s hp] at h
    exact .inl h
  | some p =>
    cases hc : s.registry.neighbor side' with
    | some c' =>
      rw [n.syncSide_of_known e hp hc, registry_pushRoster] at h
      exact .inl h
    | none =>
      obtain ⟨found, log, hfind, hfound⟩ := n.findNeighbor_eq e side' p s
      rw [n.syncSide_of_unknown e hp hc, hfind] at h
      dsimp only at h
      rw [Registry.neighbor_setNeighbor] at h
      split at h
      · rename_i hside
        subst hside
        exact .inr ⟨p, hp, (hfound c h).1⟩
      · exact .inl h

/-- What a node that knows its clients under these names tells a side. -/
def rosterMessage (side : Side) (destination : String) (ids : List String) : Message :=
  ⟨side.syncKind, n.name, destination, .roster ids⟩

theorem flaw?_rosterMessage (side : Side) (destination : String) (ids : List String) :
    (n.rosterMessage side destination ids).flaw? =
      if n.name = "" then some .emptySource else none := by
  unfold Message.flaw? rosterMessage Message.Kind.carriesRoster
  simp

theorem valid_rosterMessage {side : Side} {destination : String} {ids : List String} :
    (n.rosterMessage side destination ids).Valid ↔ n.name ≠ "" := by
  unfold Message.Valid
  rw [flaw?_rosterMessage]
  simp

/-- Only a node without a name, or a datagram that is too short, keeps a roster from the neighbor.
-/
theorem rosterDatagram_eq (side : Side) (c : Connection) (r : Registry) :
    n.rosterDatagram side c r =
      if n.name = "" then .error (.invalid .emptySource)
      else Datagram.encode (n.rosterMessage side c.id r.clientIds) := by
  have hflaw := n.flaw?_rosterMessage side c.id r.clientIds
  change ((n.rosterMessage side c.id r.clientIds).checked.mapError .invalid >>=
    Datagram.encode) = _
  unfold Message.checked
  rw [hflaw]
  by_cases hname : n.name = ""
  · rw [if_pos hname, if_pos hname]
    rfl
  · rw [if_neg hname, if_neg hname]
    rfl

theorem rosterDatagram_iff {side : Side} {c : Connection} {r : Registry} {d : List UInt8} :
    n.rosterDatagram side c r = .ok d ↔
      n.name ≠ "" ∧ Datagram.encode (n.rosterMessage side c.id r.clientIds) = .ok d := by
  rw [rosterDatagram_eq]
  split <;> simp_all

/-- A roster that a datagram can hold is tried once. -/
theorem attempts_pushRoster_of_datagram {side : Side} {c : Connection} {s : State}
    {d : List UInt8} (hd : n.rosterDatagram side c s.registry = .ok d) :
    (n.pushRoster e side c s).2.attempts = [⟨c.address, d, e.send c.address⟩] := by
  unfold pushRoster
  rw [hd]
  cases e.send c.address <;> rfl

/-- Where nothing fails, a roster gets away as one datagram. -/
theorem attempts_pushRoster {side : Side} {c : Connection} {s : State} {d : List UInt8}
    (hd : n.rosterDatagram side c s.registry = .ok d) (he : e.send c.address = .ok ()) :
    (n.pushRoster e side c s).2.attempts = [⟨c.address, d, .ok ()⟩] := by
  rw [n.attempts_pushRoster_of_datagram e hd, he]

/-- A search is no cause for a warning, and is not counted. -/
theorem findNeighbor_quiet (side : Side) (p : Position) (s : State) :
    ∃ registry log, n.findNeighbor e side p s = ({ s with registry := registry }, { log := log }) ∧
      ∀ x ∈ log, x.level ≠ .warn := by
  unfold findNeighbor
  dsimp only
  split
  · refine ⟨_, _, rfl, ?_⟩
    intro x hx
    cases List.mem_singleton.mp hx
    nofun
  · refine ⟨_, _, rfl, ?_⟩
    intro x hx
    cases List.mem_singleton.mp hx
    nofun

theorem mem_log_pushRoster {side : Side} {c : Connection} {s : State} {x : Event}
    (h : x ∈ (n.pushRoster e side c s).2.log) :
    (∃ target reason, x = .unsynced side target reason) ∨
      ∃ cause, x = .rosterUnwritable side cause := by
  unfold pushRoster at h
  split at h
  · exact .inr ⟨_, List.mem_singleton.mp h⟩
  · dsimp only at h
    split at h
    · cases h
    · exact .inl ⟨_, _, List.mem_singleton.mp h⟩

/-- All that looking after a side can tell. -/
theorem mem_log_syncSide {side : Side} {s : State} {x : Event}
    (h : x ∈ (n.syncSide e side s).2.log) :
    (∃ c, x = .neighborFound side c) ∨ (∃ cause, x = .neighborMissing side cause) ∨
      (∃ target reason, x = .unsynced side target reason) ∨
      ∃ cause, x = .rosterUnwritable side cause := by
  unfold syncSide at h
  split at h
  · cases h
  · split at h
    · unfold findNeighbor at h
      dsimp only at h
      split at h
      · exact .inl ⟨_, List.mem_singleton.mp h⟩
      · exact .inr (.inl ⟨_, List.mem_singleton.mp h⟩)
    · exact .inr (.inr (n.mem_log_pushRoster e h))

/-- Rosters are told by datagrams only. -/
theorem secondary_syncSide (side : Side) (s : State) :
    (n.syncSide e side s).2.secondary = [] := by
  unfold syncSide
  split
  · rfl
  · split
    · unfold findNeighbor
      dsimp only
      split <;> rfl
    · unfold pushRoster
      dsimp only
      split
      · rfl
      · split <;> rfl

end Node

end ChatRelay
