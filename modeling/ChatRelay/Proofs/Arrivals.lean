import ChatRelay.Proofs.RegistryLaws

namespace ChatRelay

def Step.arrival? : Step → Option (Address × Message)
  | .ingest sender d =>
    match Datagram.decode d with
    | .ok m => some (sender, m)
    | .error _ => none
  | .dispatch | .sync _ => none

theorem Step.arrival?_of_decode {sender : Address} {d : List UInt8} {m : Message}
    (h : Datagram.decode d = .ok m) : (Step.ingest sender d).arrival? = some (sender, m) := by
  simp only [arrival?, h]

theorem Step.arrival?_of_damage {sender : Address} {d : List UInt8} {cause : ProtocolError}
    (h : Datagram.decode d = .error cause) : (Step.ingest sender d).arrival? = none := by
  simp only [arrival?, h]

def arrivals (steps : List Step) : List (Address × Message) :=
  steps.filterMap Step.arrival?

namespace Registry

def receiveAll (r : Registry) (ms : List (Address × Message)) : Registry :=
  ms.foldl (fun r (m : Address × Message) => r.receive m.2 m.1) r

/-- The same sessions and rosters; the neighbors may differ. -/
structure Alike (r r' : Registry) : Prop where
  clients : r.clients = r'.clients
  roster : ∀ s, r.roster s = r'.roster s

variable {r r' r'' : Registry}

theorem Alike.refl (r : Registry) : r.Alike r := ⟨rfl, fun _ => rfl⟩

theorem Alike.symm (h : r.Alike r') : r'.Alike r :=
  ⟨h.clients.symm, fun s => (h.roster s).symm⟩

theorem Alike.trans (h : r.Alike r') (h' : r'.Alike r'') : r.Alike r'' :=
  ⟨h.clients.trans h'.clients, fun s => (h.roster s).trans (h'.roster s)⟩

theorem alike_setNeighbor (r : Registry) (s : Side) (c : Option Connection) :
    (r.setNeighbor s c).Alike r :=
  ⟨clients_setNeighbor r s c, fun t => roster_setNeighbor r s t c⟩

theorem Alike.receive (h : r.Alike r') (m : Message) (a : Address) :
    (r.receive m a).Alike (r'.receive m a) := by
  constructor
  · rw [clients_receive, clients_receive, h.clients]
  · intro s
    rw [roster_receive, roster_receive, h.roster]

theorem Alike.receiveAll (h : r.Alike r') (ms : List (Address × Message)) :
    (r.receiveAll ms).Alike (r'.receiveAll ms) := by
  induction ms generalizing r r' with
  | nil => exact h
  | cons m ms ih => exact ih (h.receive m.2 m.1)

theorem receiveAll_append (r : Registry) (ms ms' : List (Address × Message)) :
    r.receiveAll (ms ++ ms') = (r.receiveAll ms).receiveAll ms' :=
  List.foldl_append

end Registry

namespace Node

variable (n : Node) (e : Surroundings)

theorem ingest_of_decode {sender : Address} {d : List UInt8} {m : Message} (s : State)
    (h : Datagram.decode d = .ok m) :
    n.ingest sender d s = (accept m sender s, { log := n.acceptEvents m sender }) := by
  simp only [ingest, h]

theorem ingest_of_damage {sender : Address} {d : List UInt8} {cause : ProtocolError} (s : State)
    (h : Datagram.decode d = .error cause) :
    n.ingest sender d s = (refuse s, { log := [.damaged sender cause] }) := by
  simp only [ingest, h]

/-- Of all that a node does only a message that comes in changes what it knows of clients. -/
theorem step_alike (s : State) (x : Step) :
    (n.step e s x).1.registry.Alike (s.registry.receiveAll x.arrival?.toList) := by
  cases x with
  | ingest sender d =>
    change (n.ingest sender d s).1.registry.Alike _
    cases hd : Datagram.decode d with
    | error cause =>
      rw [Step.arrival?_of_damage hd, n.ingest_of_damage s hd]
      exact .refl _
    | ok m =>
      rw [Step.arrival?_of_decode hd, n.ingest_of_decode s hd]
      exact .refl _
  | dispatch =>
    change (dispatch e s).1.registry.Alike s.registry
    rw [registry_dispatch]
    exact .refl _
  | sync side =>
    change (n.syncSide e side s).1.registry.Alike s.registry
    unfold syncSide
    split
    · exact .refl _
    · split
      · obtain ⟨c, hc⟩ := registry_findNeighbor n e s side ‹_›
        rw [hc]
        exact Registry.alike_setNeighbor _ _ _
      · rw [registry_pushRoster]
        exact .refl _

/-- Only what comes in changes the sessions and the rosters. -/
theorem run_alike (s : State) (steps : List Step) :
    (n.run e s steps).1.registry.Alike (s.registry.receiveAll (arrivals steps)) := by
  induction steps generalizing s with
  | nil => exact .refl _
  | cons x steps ih =>
    have hs : arrivals (x :: steps) = x.arrival?.toList ++ arrivals steps := by
      unfold arrivals
      cases hx : x.arrival? <;> simp [hx]
    rw [hs, Registry.receiveAll_append]
    exact (ih _).trans ((n.step_alike e s x).receiveAll _)

end Node

end ChatRelay
