import ChatRelay.Proofs.Arrivals
import ChatRelay.Proofs.DatagramCodec

namespace ChatRelay

namespace Output

@[simp] theorem attempts_append (o p : Output) :
    (o ++ p).attempts = o.attempts ++ p.attempts := rfl

@[simp] theorem secondary_append (o p : Output) :
    (o ++ p).secondary = o.secondary ++ p.secondary := rfl

@[simp] theorem log_append (o p : Output) : (o ++ p).log = o.log ++ p.log := rfl

@[simp] theorem empty_append (o : Output) : (⟨[], [], []⟩ : Output) ++ o = o := rfl

theorem append_assoc (o p q : Output) : o ++ p ++ q = o ++ (p ++ q) := by
  change (⟨o.attempts ++ p.attempts ++ q.attempts, o.secondary ++ p.secondary ++ q.secondary,
    o.log ++ p.log ++ q.log⟩ : Output) = _
  rw [List.append_assoc, List.append_assoc, List.append_assoc]
  rfl

@[simp] theorem append_empty (o : Output) : o ++ (⟨[], [], []⟩ : Output) = o := by
  obtain ⟨attempts, secondary, log⟩ := o
  change (⟨attempts ++ [], secondary ++ [], log ++ []⟩ : Output) = _
  simp

/-- What got away is what was tried without failure. -/
theorem mem_sent {o : Output} {x : Address × List UInt8} :
    x ∈ o.sent ↔ ∃ t ∈ o.attempts, t.target = x.1 ∧ t.datagram = x.2 ∧ t.outcome = .ok () := by
  unfold sent
  rw [List.mem_filterMap]
  constructor
  · rintro ⟨t, ht, hx⟩
    refine ⟨t, ht, ?_⟩
    split at hx
    · rename_i ho
      cases hx
      exact ⟨rfl, rfl, ho⟩
    · cases hx
  · rintro ⟨t, ht, ha, hd, ho⟩
    refine ⟨t, ht, ?_⟩
    rw [ho]
    dsimp only
    rw [ha, hd]

end Output

/-- Everything gets away, and no name is known. -/
def Surroundings.calm : Surroundings := ⟨fun _ => .ok (), fun _ => .error "unknown", .idle⟩

/-- A datagram to each of several targets, with what becomes of it. -/
def attemptsTo (e : Surroundings) (d : List UInt8) (targets : List Address) : List Attempt :=
  targets.map fun target => ⟨target, d, e.send target⟩

theorem sent_of_attempts {o : Output} {e : Surroundings} {d : List UInt8}
    {targets : List Address} (h : o.attempts = attemptsTo e d targets)
    (he : ∀ a, e.send a = .ok ()) : o.sent = targets.map fun target => (target, d) := by
  unfold Output.sent
  rw [h]
  unfold attemptsTo
  rw [List.filterMap_map, ← List.filterMap_eq_map]
  congr 1
  funext target
  simp [he]

namespace Node

variable (n : Node) (e : Surroundings)

@[simp] theorem queue_relay (m : Message) (s : State) : (relay e m s).1.queue = s.queue := by
  unfold relay
  split
  · rfl
  · split <;> rfl

@[simp] theorem secondary_relay (m : Message) (s : State) :
    (relay e m s).2.secondary = [] := by
  unfold relay
  split
  · rfl
  · split <;> rfl

/-- A message that no datagram can hold goes nowhere. -/
theorem relay_of_error {m : Message} {cause : ProtocolError} (s : State)
    (h : Datagram.encode m = .error cause) :
    relay e m s = (s, { log := [.unwritable cause] }) := by
  unfold relay
  rw [h]

theorem relay_of_miss {m : Message} {d : List UInt8} {s : State}
    (h : Datagram.encode m = .ok d) (hp : s.registry.plan m = .miss) :
    relay e m s =
      ({ s with counters := { s.counters with routingMisses := s.counters.routingMisses + 1 } },
        { log := [.missed m.destination m.source] }) := by
  unfold relay
  rw [h]
  dsimp only
  rw [hp]

/-- Any other message is sent to the targets of its plan. Only a neighbor is worth a note. -/
theorem relay_of_plan {m : Message} {d : List UInt8} {s : State}
    (h : Datagram.encode m = .ok d) (hp : s.registry.plan m ≠ .miss) :
    ∃ log, (∀ x ∈ log, x.level = .debug) ∧
      relay e m s = ((sendAll e d (s.registry.plan m).targets s).1,
        { log := log } ++ (sendAll e d (s.registry.plan m).targets s).2) := by
  unfold relay
  rw [h]
  dsimp only
  cases hplan : s.registry.plan m with
  | miss => exact absurd hplan hp
  | broadcast targets => exact ⟨[], List.forall_mem_nil _, rfl⟩
  | here target => exact ⟨[], List.forall_mem_nil _, rfl⟩
  | neighbor side target =>
    refine ⟨[.forwarded m.destination side], ?_, rfl⟩
    intro x hx
    cases List.mem_singleton.mp hx
    rfl

/-- A message that a datagram can hold is sent to the targets of its plan. -/
theorem attempts_relay {m : Message} {d : List UInt8} (s : State)
    (h : Datagram.encode m = .ok d) :
    (relay e m s).2.attempts = attemptsTo e d (s.registry.plan m).targets := by
  unfold relay
  simp only [h]
  split
  · rename_i hp
    rw [hp]
    rfl
  · rename_i hp
    rw [hp]
    rfl
  · rfl

/-- A message that no datagram can hold is not sent at all. -/
theorem attempts_relay_of_error {m : Message} {cause : ProtocolError} (s : State)
    (h : Datagram.encode m = .error cause) : (relay e m s).2.attempts = [] := by
  unfold relay
  simp only [h]

/-- All that relaying a message can tell. -/
theorem mem_log_relay {m : Message} {s : State} {x : Event} (h : x ∈ (relay e m s).2.log) :
    (∃ cause, x = .unwritable cause ∧ Datagram.encode m = .error cause) ∨
      x = .missed m.destination m.source ∨ (∃ side, x = .forwarded m.destination side) ∨
      ∃ target reason, x = .unsent target reason := by
  have hsend {d : List UInt8} {targets : List Address}
      (h : x ∈ (sendAll e d targets s).2.log) : ∃ target reason, x = .unsent target reason := by
    obtain ⟨t, _, h⟩ := List.mem_flatMap.mp h
    unfold attemptEvents at h
    split at h
    · cases h
    · exact ⟨_, _, List.mem_singleton.mp h⟩
  unfold relay at h
  split at h
  · rename_i hd
    exact .inl ⟨_, List.mem_singleton.mp h, hd⟩
  · split at h
    · exact .inr (.inl (List.mem_singleton.mp h))
    · rcases List.mem_cons.mp h with rfl | h
      · exact .inr (.inr (.inl ⟨_, rfl⟩))
      · exact .inr (.inr (.inr (hsend h)))
    · exact .inr (.inr (.inr (hsend h)))

theorem mem_log_deliver {m : Message} {x : Event} (h : x ∈ (deliver e m).log) :
    ∃ cause, x = .secondaryFailed e.secondary.name cause := by
  unfold deliver at h
  dsimp only at h
  split at h
  · cases h
  · exact ⟨_, List.mem_singleton.mp h⟩

theorem dispatch_nil {s : State} (h : s.queue = []) : dispatch e s = (s, {}) := by
  unfold dispatch
  rw [h]

theorem dispatch_cons {s : State} {m : Message} {queue : List Message}
    (h : s.queue = m :: queue) :
    dispatch e s = ((relay e m { s with queue := queue }).1,
      (relay e m { s with queue := queue }).2 ++ deliver e m) := by
  unfold dispatch
  rw [h]

@[simp] theorem queue_dispatch (s : State) : (dispatch e s).1.queue = s.queue.tail := by
  cases hq : s.queue with
  | nil =>
    rw [dispatch_nil e hq]
    exact hq
  | cons m queue =>
    rw [dispatch_cons e hq]
    exact queue_relay e m _

/-- A node sends the message that has waited longest to the targets of its plan, as far as this
works. -/
theorem mem_sent_dispatch {s : State} {x : Address × List UInt8} :
    x ∈ (dispatch e s).2.sent ↔ ∃ m queue, s.queue = m :: queue ∧
      Datagram.encode m = .ok x.2 ∧ x.1 ∈ (s.registry.plan m).targets ∧ e.send x.1 = .ok () := by
  rw [Output.mem_sent]
  cases hq : s.queue with
  | nil =>
    unfold dispatch
    rw [hq]
    simp
  | cons m queue =>
    have ha : (dispatch e s).2.attempts =
        (relay e m { s with queue := queue }).2.attempts := by
      rw [dispatch_cons e hq]
      exact List.append_nil _
    rw [ha]
    cases hd : Datagram.encode m with
    | error cause =>
      rw [attempts_relay_of_error e _ hd]
      simp [hd]
    | ok d =>
      rw [attempts_relay e _ hd]
      constructor
      · rintro ⟨t, ht, hx, hdata, ho⟩
        obtain ⟨a, hmem, rfl⟩ := List.mem_map.mp ht
        refine ⟨m, queue, rfl, ?_, hx ▸ hmem, hx ▸ ho⟩
        rw [hd]
        exact congrArg _ hdata
      · rintro ⟨m', queue', heq, hdata, hmem, ho⟩
        cases heq
        rw [hd] at hdata
        cases hdata
        exact ⟨_, List.mem_map.mpr ⟨x.1, hmem, rfl⟩, rfl, rfl, ho⟩

/-- Where nothing fails, a message is sent to all targets of its plan, in order. -/
theorem sent_dispatch {s : State} {m : Message} {queue : List Message} {d : List UInt8}
    (hq : s.queue = m :: queue) (hd : Datagram.encode m = .ok d) (he : ∀ a, e.send a = .ok ()) :
    (dispatch e s).2.sent = (s.registry.plan m).targets.map fun target => (target, d) := by
  apply sent_of_attempts _ he
  rw [dispatch_cons e hq]
  change (relay e m _).2.attempts ++ [] = _
  rw [List.append_nil, attempts_relay e _ hd]

/-- With nothing else waiting, a message is passed on as soon as it has come in. -/
theorem handle_of_decode {a : Address} {d : List UInt8} {m : Message} {s : State}
    (hd : Datagram.decode d = .ok m) (hm : m.kind.isSync = false) (hq : s.queue = []) :
    n.handle e a d s =
      ((relay e m { accept m a s with queue := [] }).1,
        { log := n.acceptEvents m a } ++
          ((relay e m { accept m a s with queue := [] }).2 ++ deliver e m)) := by
  have haccept : (accept m a s).queue = [m] := by
    simp [accept, hm, hq]
  unfold handle
  rw [n.ingest_of_decode s hd]
  dsimp only
  unfold drain
  rw [haccept]
  have hrun : n.run e (accept m a s) [.dispatch] =
      ((relay e m { accept m a s with queue := [] }).1,
        ((relay e m { accept m a s with queue := [] }).2 ++ deliver e m) ++ ⟨[], [], []⟩) := by
    unfold run step
    dsimp only
    rw [dispatch_cons e haccept]
    rfl
  rw [Output.append_empty] at hrun
  exact congrArg (fun r : State × Output => (r.1, _ ++ r.2)) hrun

/-- A node on which nothing waits files a message and sends it along its plan, at once. -/
theorem handle_of_encode {a : Address} {d : List UInt8} {m : Message} {s : State}
    (hd : Datagram.encode m = .ok d) (hv : m.Valid) (hm : m.kind.isSync = false)
    (hq : s.queue = []) :
    (n.handle e a d s).1.registry = s.registry.receive m a ∧
      (n.handle e a d s).1.queue = [] ∧
      (n.handle e a d s).2.attempts =
        attemptsTo e d ((s.registry.receive m a).plan m).targets := by
  rw [n.handle_of_decode e (Datagram.decode_of_encode hd hv) hm hq]
  refine ⟨registry_relay e _ m, queue_relay e m _, ?_⟩
  change [] ++ ((relay e m _).2.attempts ++ []) = _
  rw [List.append_nil, attempts_relay e _ hd]
  rfl

/-- A roster is filed, and nothing is sent for it. -/
theorem handle_of_sync {a : Address} {d : List UInt8} {m : Message} {s : State}
    (hd : Datagram.decode d = .ok m) (hm : m.kind.isSync = true) (hq : s.queue = []) :
    n.handle e a d s = (accept m a s, { log := n.acceptEvents m a }) := by
  have haccept : (accept m a s).queue = [] := by
    simp [accept, hm, hq]
  unfold handle
  rw [n.ingest_of_decode s hd]
  dsimp only
  unfold drain
  rw [haccept]
  exact congrArg (Prod.mk (accept m a s)) (Output.append_empty _)

/-- Nothing of a damaged datagram is kept but the count and the warning. -/
theorem handle_of_damage {a : Address} {d : List UInt8} {cause : ProtocolError} {s : State}
    (hd : Datagram.decode d = .error cause) (hq : s.queue = []) :
    n.handle e a d s = (refuse s, { log := [.damaged a cause] }) := by
  unfold handle
  rw [n.ingest_of_damage s hd]
  dsimp only
  unfold drain
  rw [show (refuse s).queue = [] from hq]
  exact congrArg (Prod.mk (refuse s)) (Output.append_empty _)

end Node

end ChatRelay
