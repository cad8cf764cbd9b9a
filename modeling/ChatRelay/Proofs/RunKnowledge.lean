import ChatRelay.Proofs.DatagramCodec
import ChatRelay.Proofs.SessionQueues

namespace ChatRelay

/-- The roster of the last message of a kind, empty if there was none. -/
def lastRoster (k : Message.Kind) (ms : List (Address × Message)) : List String :=
  ((ms.filter (·.2.kind = k)).getLast?.bind (·.2.roster?)).getD []

theorem Message.Valid.roster?_isSome {m : Message} (h : m.Valid) (hs : m.kind.isSync) :
    m.roster?.isSome := by
  obtain ⟨kind, source, destination, body⟩ := m
  unfold Valid flaw? at h
  unfold roster?
  cases body with
  | roster ids => rfl
  | text t =>
    have hc : kind.carriesRoster = true := hs
    simp only [hc] at h
    split at h <;> cases h

/-- The last roster is that of the last sync of its kind. -/
theorem lastRoster_concat {ms : List (Address × Message)} {m : Address × Message}
    (h : m.2.Valid) {k : Message.Kind} (hk : k.isSync) :
    lastRoster k (ms ++ [m]) =
      if m.2.kind = k then m.2.roster?.getD (lastRoster k ms) else lastRoster k ms := by
  unfold lastRoster
  rw [List.filter_append]
  split
  · rename_i hm
    subst hm
    have := h.roster?_isSome hk
    obtain ⟨ids, hi⟩ := Option.isSome_iff_exists.mp this
    simp [hi]
  · rename_i hm
    simp [hm]

theorem Side.origin?_eq_some (k : Message.Kind) (s : Side) :
    k.origin? = some s ↔ k = s.opposite.syncKind := by
  cases k <;> cases s <;> decide

/-- A node holds of each side the roster that came from there last. -/
theorem roster_receiveAll {ms : List (Address × Message)} (h : ∀ m ∈ ms, m.2.Valid) (s : Side) :
    (Registry.empty.receiveAll ms).roster s = lastRoster s.opposite.syncKind ms := by
  induction ms using List.reverseRecOn with
  | nil => cases s <;> rfl
  | append_singleton ms m ih =>
    rw [Registry.receiveAll_append]
    change ((Registry.empty.receiveAll ms).receive m.2 m.1).roster s = _
    rw [Registry.roster_receive, lastRoster_concat (h m (by simp)) (by cases s <;> rfl),
      ih fun x hx => h x (by simp [hx])]
    simp only [Side.origin?_eq_some]

/-- No message comes in that breaks a rule. -/
theorem valid_of_mem_arrivals {steps : List Step} {m : Address × Message}
    (h : m ∈ arrivals steps) : m.2.Valid := by
  obtain ⟨x, _, hx⟩ := List.mem_filterMap.mp h
  cases x with
  | ingest sender d =>
    cases hd : Datagram.decode d with
    | error cause =>
      rw [Step.arrival?_of_damage hd] at hx
      cases hx
    | ok n =>
      rw [Step.arrival?_of_decode hd] at hx
      cases hx
      exact Datagram.valid_of_decode hd
  | dispatch => cases hx
  | sync side => cases hx

/-- Only the rosters of the messages count, not where these were addressed to. -/
theorem lastRoster_eq (k : Message.Kind) (ms : List (Address × Message)) :
    lastRoster k ms =
      (((ms.filter (·.2.kind = k)).map (·.2.roster?)).getLast?.join).getD [] := by
  unfold lastRoster
  rw [List.getLast?_map]
  cases (ms.filter (·.2.kind = k)).getLast? <;> rfl

namespace Node

def knowledge (n : Node) (e : Surroundings) (steps : List Step) : Registry :=
  (n.run e .initial steps).1.registry

variable (n : Node) (e : Surroundings) (steps : List Step)

theorem clients_knowledge : (n.knowledge e steps).clients =
    survivors (remaining (arrivals steps)) (openings (arrivals steps)) :=
  (n.run_alike e .initial steps).clients.trans (clients_receiveAll _)

theorem filter_clients_knowledge (x : String) :
    (n.knowledge e steps).clients.filter (·.id = x) =
      ((openings (arrivals steps)).filter (·.id = x)).rtake
        (Change.left (changes x (arrivals steps))) := by
  rw [clients_knowledge]
  exact filter_survivors _ _ x

theorem roster_knowledge (s : Side) :
    (n.knowledge e steps).roster s = lastRoster s.opposite.syncKind (arrivals steps) :=
  ((n.run_alike e .initial steps).roster s).trans
    (roster_receiveAll (fun _ hm => valid_of_mem_arrivals hm) s)

/-- After any run the sessions of a client are the last of those that it opened, as many as it has
left open, all sessions stand in the order in which they were opened, and each roster is the last
that came from its side. Nothing that other clients do, no chat and no damaged datagram has a part
in any of this. -/
theorem knowledge_run (n : Node) (e : Surroundings) (steps : List Step) :
    (∀ x, (n.knowledge e steps).clients.filter (·.id = x) =
      ((openings (arrivals steps)).filter (·.id = x)).rtake
        (Change.left (changes x (arrivals steps)))) ∧
    (n.knowledge e steps).clients =
      survivors (fun x => Change.left (changes x (arrivals steps))) (openings (arrivals steps)) ∧
    (n.knowledge e steps).clients.Sublist (openings (arrivals steps)) ∧
    (n.knowledge e steps).roster .right = lastRoster .syncLeft (arrivals steps) ∧
    (n.knowledge e steps).roster .left = lastRoster .syncRight (arrivals steps) ∧
    ∀ (n' : Node) (e' : Surroundings) (steps' : List Step),
      (∀ x, changes x (arrivals steps') = changes x (arrivals steps) →
        (n'.knowledge e' steps').clients.filter (·.id = x) =
          (n.knowledge e steps).clients.filter (·.id = x)) ∧
      ∀ s : Side, ((arrivals steps').filter (·.2.kind = s.opposite.syncKind)).map (·.2.roster?) =
          ((arrivals steps).filter (·.2.kind = s.opposite.syncKind)).map (·.2.roster?) →
        (n'.knowledge e' steps').roster s = (n.knowledge e steps).roster s := by
  have hsublist : (n.knowledge e steps).clients.Sublist (openings (arrivals steps)) := by
    rw [clients_knowledge]
    exact survivors_sublist _ _
  refine ⟨n.filter_clients_knowledge e steps, n.clients_knowledge e steps, hsublist,
    n.roster_knowledge e steps .right, n.roster_knowledge e steps .left, ?_⟩
  intro n' e' steps'
  constructor
  · intro x hx
    rw [filter_clients_knowledge, filter_clients_knowledge, filter_openings, filter_openings, hx]
  · intro s hs
    rw [roster_knowledge, roster_knowledge, lastRoster_eq, lastRoster_eq, hs]

end Node

end ChatRelay
