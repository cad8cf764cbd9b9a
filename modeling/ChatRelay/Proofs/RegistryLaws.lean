import ChatRelay.Node.Run

/-- Only syncs come from a side. -/
theorem ChatRelay.Message.Kind.origin?_ne_some {k : Message.Kind} (h : k.isSync = false)
    (s : Side) : k.origin? ≠ some s := by
  intro ho
  cases k with
  | connect => cases ho
  | disconnect => cases ho
  | chat => cases ho
  | privateMessage => cases ho
  | syncLeft => cases h
  | syncRight => cases h

namespace ChatRelay.Registry

variable (r : Registry) (s t : Side)

@[simp] theorem roster_setRoster (ids : List String) :
    (r.setRoster s ids).roster t = if t = s then ids else r.roster t := by
  cases s <;> cases t <;> rfl

@[simp] theorem neighbor_setRoster (ids : List String) :
    (r.setRoster s ids).neighbor t = r.neighbor t := by
  cases s <;> cases t <;> rfl

@[simp] theorem clients_setRoster (ids : List String) :
    (r.setRoster s ids).clients = r.clients := by
  cases s <;> rfl

@[simp] theorem roster_setNeighbor (n : Option Connection) :
    (r.setNeighbor s n).roster t = r.roster t := by
  cases s <;> cases t <;> rfl

@[simp] theorem neighbor_setNeighbor (n : Option Connection) :
    (r.setNeighbor s n).neighbor t = if t = s then n else r.neighbor t := by
  cases s <;> cases t <;> rfl

@[simp] theorem clients_setNeighbor (n : Option Connection) :
    (r.setNeighbor s n).clients = r.clients := by
  cases s <;> rfl

@[simp] theorem roster_addClient (id : String) (a : Address) :
    (r.addClient id a).roster s = r.roster s := by
  cases s <;> rfl

@[simp] theorem roster_removeClient (id : String) :
    (r.removeClient id).roster s = r.roster s := by
  cases s <;> rfl

@[simp] theorem neighbor_addClient (id : String) (a : Address) :
    (r.addClient id a).neighbor s = r.neighbor s := by
  cases s <;> rfl

@[simp] theorem neighbor_removeClient (id : String) :
    (r.removeClient id).neighbor s = r.neighbor s := by
  cases s <;> rfl

@[simp] theorem clients_applySync (m : Message) : (r.applySync m).clients = r.clients := by
  unfold applySync
  split <;> simp

@[simp] theorem neighbor_applySync (m : Message) :
    (r.applySync m).neighbor s = r.neighbor s := by
  unfold applySync
  split <;> simp

/-- A sync that keeps to the rules is always filed, under the side that it comes from. -/
theorem fileSync_of_valid {m : Message} (h : m.Valid) (hm : m.kind.isSync = true) :
    ∃ side ids, m.kind.origin? = some side ∧ m.body = .roster ids ∧
      r.fileSync m = .ok (some side, r.setRoster side ids) := by
  obtain ⟨kind, source, destination, body⟩ := m
  have hbody : ∃ ids, body = .roster ids := by
    cases body with
    | roster ids => exact ⟨ids, rfl⟩
    | text t =>
      unfold Message.Valid Message.flaw? at h
      split at h
      · cases h
      · cases kind <;> simp_all [Message.Kind.isSync, Message.Kind.carriesRoster]
  obtain ⟨ids, rfl⟩ := hbody
  cases kind with
  | syncLeft => exact ⟨_, ids, rfl, rfl, rfl⟩
  | syncRight => exact ⟨_, ids, rfl, rfl, rfl⟩
  | connect | disconnect | chat | privateMessage => cases hm

/-- A message may change sessions or one roster, but never a neighbor. -/
@[simp] theorem neighbor_receive (m : Message) (a : Address) :
    (r.receive m a).neighbor s = r.neighbor s := by
  unfold receive
  split <;> simp

/-- A sync fills the roster of the side that it comes from; nothing else changes one. -/
theorem roster_receive (m : Message) (a : Address) :
    (r.receive m a).roster s =
      if m.kind.origin? = some s then m.roster?.getD (r.roster s) else r.roster s := by
  unfold receive applySync
  cases hk : m.kind <;> cases hr : m.roster? <;> cases s <;>
    simp [Message.Kind.origin?]

/-- A connect opens a session behind all others, and a disconnect closes the oldest of its source.
-/
theorem clients_receive (m : Message) (a : Address) :
    (r.receive m a).clients =
      match m.kind with
      | .connect => r.clients ++ [⟨m.source, a⟩]
      | .disconnect => r.clients.eraseP (·.id = m.source)
      | _ => r.clients := by
  unfold receive
  cases m.kind <;> simp [addClient, removeClient]

/-- A session was there before, or is that of a connect that has just come in. -/
theorem mem_clients_receive {m : Message} {a : Address} {c : Connection}
    (h : c ∈ (r.receive m a).clients) :
    c ∈ r.clients ∨ m.kind = .connect ∧ c = ⟨m.source, a⟩ := by
  rw [clients_receive] at h
  split at h
  · rename_i hk
    rcases List.mem_append.mp h with h | h
    · exact .inl h
    · exact .inr ⟨hk, List.mem_singleton.mp h⟩
  · exact .inl (List.mem_of_mem_eraseP h)
  · exact .inl h

theorem clients_receive_of_sync {m : Message} (a : Address) (h : m.kind.isSync = true) :
    (r.receive m a).clients = r.clients := by
  rw [clients_receive]
  split
  · rename_i hk
    rw [hk] at h
    cases h
  · rename_i hk
    rw [hk] at h
    cases h
  · rfl

end ChatRelay.Registry

namespace ChatRelay.Node

theorem queue_accept_of_sync {m : Message} (a : Address) (s : State) (h : m.kind.isSync = true) :
    (accept m a s).queue = s.queue :=
  if_pos h

theorem queue_accept {m : Message} (a : Address) (s : State) (h : m.kind.isSync = false) :
    (accept m a s).queue = s.queue ++ [m] :=
  if_neg (by simp [h])

variable (n : Node) (e : Surroundings) (s : State)

@[simp] theorem registry_relay (m : Message) : (relay e m s).1.registry = s.registry := by
  unfold relay
  split
  · rfl
  · split <;> rfl

/-- Passing a message on leaves all that a node knows as it is. -/
@[simp] theorem registry_dispatch : (dispatch e s).1.registry = s.registry := by
  unfold dispatch
  split
  · rfl
  · exact registry_relay e _ _

@[simp] theorem registry_pushRoster (side : Side) (c : Connection) :
    (n.pushRoster e side c s).1.registry = s.registry := by
  unfold pushRoster
  split
  · rfl
  · dsimp only
    split <;> rfl

/-- Looking for a neighbor changes nothing but the neighbor on that side. -/
theorem registry_findNeighbor (side : Side) (p : Position) :
    ∃ c, (n.findNeighbor e side p s).1.registry = s.registry.setNeighbor side c := by
  unfold findNeighbor
  dsimp only
  split
  · exact ⟨_, rfl⟩
  · exact ⟨_, rfl⟩

end ChatRelay.Node
