import ChatRelay.Proofs.FailureIsolation
import ChatRelay.Proofs.Interleaving
import ChatRelay.Proofs.ClientCalls
import Mathlib.Logic.Relation

namespace ChatRelay

namespace Node

def passings (n : Node) (s : State) (turns : List Turn) : List Moment :=
  (n.history s turns).filter (·.taken?.isSome)

/-- The moment in which the message that comes in at a turn is passed on. As many messages are taken
before it as have come in before it. -/
def passing? (n : Node) (before : List Turn) (x : Turn) (after : List Turn) : Option Moment :=
  (n.passings .initial (before ++ x :: after))[(relayed (Turn.arrivals before)).length]?

end Node

/-- A node takes one datagram in and tries to send the other for its message. -/
inductive Forwards : List UInt8 → List UInt8 → Prop where
  | mk {n : Node} {before after : List Turn} {e : Surroundings} {a : Address} {d : List UInt8}
      {m : Message} {x : Moment} {t : Attempt} (hd : Datagram.decode d = .ok m)
      (hm : m.kind.isSync = false) (hx : n.passing? before ⟨e, .ingest a d⟩ after = some x)
      (ht : t ∈ x.output.attempts) : Forwards d t.datagram

/-- Any number of nodes take the datagram in and send it on, one after the other. -/
def Travels : List UInt8 → List UInt8 → Prop := Relation.ReflTransGen Forwards

/-- A moment in which a message is passed on: the second way out gets it, and one datagram goes to
each target of its plan, unless no datagram can hold it. -/
structure Moment.PassesOn (m : Message) (x : Moment) : Prop where
  step : x.turn.step = .dispatch
  secondary : x.output.secondary = [m]
  attempts : ∀ d, Datagram.encode m = .ok d →
    x.output.attempts = attemptsTo x.turn.surroundings d (x.before.registry.plan m).targets
  unsent : ∀ cause, Datagram.encode m = .error cause → x.output.attempts = []

/-- The same sessions and neighbors. What the neighbors have told may differ. -/
structure Registry.SameButRosters (r r' : Registry) : Prop where
  clients : r.clients = r'.clients
  neighbor : ∀ side, r.neighbor side = r'.neighbor side

/-- Moments of the same turn that tell apart at most what the neighbors have told: the same message
is passed on, and the same datagrams are sent unless it is for one client who has no session
here. -/
structure Moment.SameButRosters (x y : Moment) : Prop where
  turn : x.turn = y.turn
  registry : x.before.registry.SameButRosters y.before.registry
  taken : x.taken? = y.taken?
  secondary : x.output.secondary = y.output.secondary
  attempts : (∀ m ∈ x.taken?, m.isBroadcast = true ∨
    x.before.registry.session? m.destination ≠ none) → x.output.attempts = y.output.attempts

namespace Turn

theorem arrivals_append (turns turns' : List Turn) :
    arrivals (turns ++ turns') = arrivals turns ++ arrivals turns' := by
  simp [arrivals, ChatRelay.arrivals]

/-- A message that has to be passed on comes after those that came in before it. -/
theorem relayed_arrivals {before after : List Turn} {e : Surroundings} {a : Address}
    {d : List UInt8} {m : Message} (hd : Datagram.decode d = .ok m)
    (hm : m.kind.isSync = false) :
    relayed (arrivals (before ++ ⟨e, .ingest a d⟩ :: after)) =
      relayed (arrivals before) ++ m :: relayed (arrivals after) := by
  rw [arrivals_append, arrivals_cons, Step.arrival?_of_decode hd, relayed_append, relayed_append]
  exact congrArg _ (congrArg (· ++ _) (relayed_of_not_sync hm))

end Turn

namespace Node

variable (n : Node) {s s' : State}

/-- What has happened before some turns is all that these take over. -/
theorem history_append (before after : List Turn) :
    n.history s (before ++ after) =
      n.history s before ++ n.history (n.play s before).1 after := by
  induction before generalizing s with
  | nil => rfl
  | cons x before ih => simp only [List.cons_append, history_cons, play_cons, ih]

theorem taken_append (before after : List Turn) :
    n.taken s (before ++ after) = n.taken s before ++ n.taken (n.play s before).1 after := by
  induction before generalizing s with
  | nil => rfl
  | cons x before ih => simp only [List.cons_append, taken_cons, play_cons, ih, List.append_assoc]

theorem map_taken_passings (turns : List Turn) :
    (n.passings s turns).map Moment.taken? = (n.taken s turns).map some := by
  unfold passings taken
  rw [List.map_filterMap_some_eq_filter_map_isSome, List.filter_map]
  rfl

/-- What is taken from a queue depends on what waits in it, and on nothing else. -/
theorem taken_congr (h : s.queue = s'.queue) (turns : List Turn) :
    n.taken s turns = n.taken s' turns := by
  induction turns generalizing s s' with
  | nil => rfl
  | cons x turns ih =>
    have htaken : (n.moment s x).taken? = (n.moment s' x).taken? := by
      simp only [Moment.taken?, moment, h]
    have hqueue := n.queue_moment s x
    rw [htaken, h, ← n.queue_moment s' x, List.append_cancel_left_eq] at hqueue
    rw [taken_cons, taken_cons, htaken, ih hqueue]

theorem mem_history_of_passing {before after : List Turn} {x : Turn} {y : Moment}
    (h : n.passing? before x after = some y) :
    y ∈ n.history .initial (before ++ x :: after) ∧ y.taken?.isSome :=
  List.mem_filter.mp (List.mem_of_getElem? h)

section Datagram

variable {before after : List Turn} {e : Surroundings} {a : Address} {d : List UInt8} {m : Message}

/-- The message that is passed on is the one that came in. -/
theorem taken_of_passing (hd : Datagram.decode d = .ok m) (hm : m.kind.isSync = false)
    {y : Moment} (h : n.passing? before ⟨e, .ingest a d⟩ after = some y) : y.taken? = some m := by
  have htaken := congrArg (·[(relayed (Turn.arrivals before)).length]?)
    (n.map_taken_passings (s := .initial) (before ++ ⟨e, .ingest a d⟩ :: after))
  simp only [List.getElem?_map] at htaken
  rw [show (n.passings _ _)[_]? = _ from h] at htaken
  have hall := n.taken_append_queue .initial (before ++ ⟨e, .ingest a d⟩ :: after)
  rw [Turn.relayed_arrivals hd hm] at hall
  obtain ⟨m', hm', hy⟩ := Option.map_eq_some_iff.mp htaken.symm
  obtain ⟨hlt, _⟩ := List.getElem?_eq_some_iff.mp hm'
  have hmessage := congrArg (·[(relayed (Turn.arrivals before)).length]?) hall
  simp only [List.getElem?_append_left hlt, hm'] at hmessage
  rw [← hy, hmessage]
  simp [State.initial]

/-- Once nothing waits any more, the message has been passed on. -/
theorem passing?_isSome (hd : Datagram.decode d = .ok m) (hm : m.kind.isSync = false)
    (hq : (n.play .initial (before ++ ⟨e, .ingest a d⟩ :: after)).1.queue = []) :
    (n.passing? before ⟨e, .ingest a d⟩ after).isSome := by
  have hall := n.taken_append_queue .initial (before ++ ⟨e, .ingest a d⟩ :: after)
  rw [Turn.relayed_arrivals hd hm, hq, List.append_nil] at hall
  have hlength := congrArg List.length
    (n.map_taken_passings (s := .initial) (before ++ ⟨e, .ingest a d⟩ :: after))
  rw [List.length_map, List.length_map, hall] at hlength
  have hlt : (relayed (Turn.arrivals before)).length <
      (n.passings .initial (before ++ ⟨e, .ingest a d⟩ :: after)).length := by
    rw [hlength]
    simp [State.initial]
  exact Option.isSome_iff_exists.mpr ⟨_, List.getElem?_eq_getElem hlt⟩

end Datagram

theorem passesOn_of_taken {x : Turn} {m : Message} (h : (n.moment s x).taken? = some m) :
    (n.moment s x).PassesOn m := by
  obtain ⟨e, step⟩ := x
  cases step with
  | ingest a d => cases h
  | sync side => cases h
  | dispatch =>
    obtain ⟨queue, hq⟩ := List.head?_eq_some_iff.mp h
    refine ⟨rfl, ?_, ?_, ?_⟩
    · rw [secondary_moment, h, Option.toList_some]
    · exact fun d hd => n.attempts_moment_of_encode e hq hd
    · exact fun cause hd => n.attempts_moment_of_error e hq hd

end Node

/-- All that is sent for a message is the datagram of the message. -/
theorem Moment.PassesOn.encode_eq {m : Message} {x : Moment} {t : Attempt} (h : x.PassesOn m)
    (ht : t ∈ x.output.attempts) : Datagram.encode m = .ok t.datagram := by
  cases hd : Datagram.encode m with
  | error cause =>
    rw [h.unsent cause hd] at ht
    cases ht
  | ok d =>
    rw [h.attempts d hd] at ht
    obtain ⟨target, _, rfl⟩ := List.mem_map.mp ht
    rfl

section Hops

variable {d d' : List UInt8} {m m' : Message}

/-- No datagram is written for two messages. -/
theorem Datagram.eq_of_encode_of_decode (h : encode m' = .ok d) (hd : decode d = .ok m) :
    m' = m := by
  unfold decode at hd
  rw [read_of_encode h] at hd
  exact (Message.checked_eq_ok.mp (mapError_eq_ok.mp (mapError_eq_ok.mp hd))).2.symm

theorem Forwards.encode_eq (hd : Datagram.decode d = .ok m) (h : Forwards d d') :
    Datagram.encode m = .ok d' := by
  obtain ⟨hd', hm, hx, ht⟩ := h
  cases hd.symm.trans hd'
  obtain ⟨hmem, _⟩ := Node.mem_history_of_passing _ hx
  have htaken := Node.taken_of_passing _ hd hm hx
  obtain ⟨s, x, rfl⟩ := Node.mem_history _ _ hmem
  exact (Node.passesOn_of_taken _ htaken).encode_eq ht

/-- On its way a datagram stays as it is, or becomes the one that is written for its message. -/
theorem Travels.eq_or_encode_eq (hd : Datagram.decode d = .ok m) (h : Travels d d') :
    Datagram.decode d' = .ok m ∧ (d' = d ∨ Datagram.encode m = .ok d') := by
  induction h with
  | refl => exact ⟨hd, .inl rfl⟩
  | tail _ hlast ih =>
    have hwritten := hlast.encode_eq ih.1
    exact ⟨Datagram.decode_of_encode hwritten (Datagram.valid_of_decode hd), .inr hwritten⟩

/-- A datagram that has been written is written again to the octet. -/
theorem Travels.eq_of_encode (h : Datagram.encode m' = .ok d) (hd : Datagram.decode d = .ok m)
    (ht : Travels d d') : d' = d := by
  rcases (ht.eq_or_encode_eq hd).2 with hsame | hwritten
  · exact hsame
  · rw [Datagram.eq_of_encode_of_decode h hd, hwritten] at h
    exact Except.ok.inj h

/-- What a client sends is a datagram that holds the message it was asked to send. -/
theorem ChatClient.decode_of_post {send : Address → Except String Unit} {c c' : ChatClient}
    {x : Except Message.Flaw Message} (hx : ∀ m, x = .ok m → m.Valid)
    (h : c.post send x = (.ok d, c')) :
    ∃ m, x = .ok m ∧ Datagram.encode m = .ok d ∧ Datagram.decode d = .ok m := by
  obtain ⟨m, hm, hd, _⟩ := post_eq_ok.mp h
  exact ⟨m, hm, hd, Datagram.decode_of_encode hd (hx m hm)⟩

end Hops

section Rosters

variable {r r' : Registry} {m : Message}

theorem Registry.SameButRosters.refl (r : Registry) : r.SameButRosters r :=
  ⟨rfl, fun _ => rfl⟩

theorem Registry.SameButRosters.receive (h : r.SameButRosters r') (m : Message) (a : Address) :
    (r.receive m a).SameButRosters (r'.receive m a) := by
  constructor
  · rw [clients_receive, clients_receive, h.clients]
  · intro side
    rw [neighbor_receive, neighbor_receive, h.neighbor]

theorem Registry.SameButRosters.receive_sync (r : Registry) (a : Address)
    (hm : m.kind.isSync = true) : (r.receive m a).SameButRosters r :=
  ⟨clients_receive_of_sync r a hm, fun side => neighbor_receive r side m a⟩

/-- Rosters have no say where everyone is asked, or someone who has a session here. -/
theorem Registry.SameButRosters.plan_eq (h : r.SameButRosters r')
    (hm : m.isBroadcast = true ∨ r.session? m.destination ≠ none) : r.plan m = r'.plan m := by
  have hsession : r.session? m.destination = r'.session? m.destination :=
    congrArg (List.find? _) h.clients
  cases hb : m.isBroadcast with
  | true => rw [plan_broadcast hb, plan_broadcast hb, h.clients]
  | false =>
    obtain ⟨c, hc⟩ := Option.ne_none_iff_exists'.mp (hm.resolve_left (by simp [hb]))
    rw [plan_of_session hb hc, plan_of_session hb (hsession.symm.trans hc)]

namespace Node

variable (n : Node) {s s' : State}

theorem clients_syncSide (e : Surroundings) (side : Side) (s : State) :
    (n.syncSide e side s).1.registry.clients = s.registry.clients := by
  rcases (n.syncSide_eq e side s).1 with hsame | ⟨_, found, hset, _⟩
  · rw [hsame]
  · rw [hset, Registry.clients_setNeighbor]

theorem sameButRosters_after (h : s.registry.SameButRosters s'.registry) (x : Turn) :
    (n.moment s x).after.registry.SameButRosters (n.moment s' x).after.registry := by
  constructor
  · obtain ⟨e, step⟩ := x
    cases step with
    | ingest a d =>
      change (n.ingest a d s).1.registry.clients = (n.ingest a d s').1.registry.clients
      unfold ingest
      cases Datagram.decode d with
      | error cause => exact h.clients
      | ok m => exact (h.receive m a).clients
    | dispatch =>
      change (dispatch e s).1.registry.clients = (dispatch e s').1.registry.clients
      rw [registry_dispatch, registry_dispatch, h.clients]
    | sync side =>
      change (n.syncSide e side s).1.registry.clients = (n.syncSide e side s').1.registry.clients
      rw [clients_syncSide, clients_syncSide, h.clients]
  · intro side
    rw [neighbor_step, neighbor_step, h.neighbor]

/-- Rosters decide on the way of a message only where its destination has no session. -/
theorem planned_of_sameButRosters (h : s.registry.SameButRosters s'.registry)
    (hq : s.queue = s'.queue) (x : Turn)
    (hm : ∀ m ∈ (n.moment s x).taken?, m.isBroadcast = true ∨
      s.registry.session? m.destination ≠ none) :
    n.planned s x.step = n.planned s' x.step := by
  obtain ⟨e, step⟩ := x
  cases step with
  | ingest a d => rfl
  | dispatch =>
    cases hqueue : s.queue with
    | nil => simp only [planned, hqueue, ← hq]
    | cons m queue =>
      have htaken : m ∈ (n.moment s ⟨e, .dispatch⟩).taken? := congrArg List.head? hqueue
      rw [n.planned_dispatch hqueue, n.planned_dispatch (hq.symm.trans hqueue),
        h.plan_eq (hm m htaken)]
  | sync side =>
    have hroster : ∀ c, n.rosterDatagram side c s.registry = n.rosterDatagram side c s'.registry :=
      fun c => rosterDatagram_congr rfl c h.clients
    simp only [planned, pushPlan, h.neighbor, hroster]

theorem sameButRosters_moment (h : s.registry.SameButRosters s'.registry)
    (hq : s.queue = s'.queue) (x : Turn) :
    (n.moment s x).SameButRosters (n.moment s' x) := by
  have htaken : (n.moment s x).taken? = (n.moment s' x).taken? := by
    simp only [Moment.taken?, moment, hq]
  refine ⟨rfl, h, htaken, ?_, fun hm => ?_⟩
  · rw [secondary_moment, secondary_moment, htaken]
  · rw [attempts_moment, attempts_moment, n.planned_of_sameButRosters h hq x hm]

/-- Runs that start with other rosters stay alike, moment by moment. -/
theorem sameButRosters_history (h : s.registry.SameButRosters s'.registry)
    (hq : s.queue = s'.queue) (turns : List Turn) :
    List.Forall₂ Moment.SameButRosters (n.history s turns) (n.history s' turns) := by
  induction turns generalizing s s' with
  | nil => exact .nil
  | cons x turns ih =>
    refine .cons (n.sameButRosters_moment h hq x) (ih (n.sameButRosters_after h x) ?_)
    have hqueue := n.queue_moment s x
    rw [hq, (n.sameButRosters_moment h hq x).taken, ← n.queue_moment s' x,
      List.append_cancel_left_eq] at hqueue
    exact hqueue

/-- A sync that comes in puts nothing out and does not wait. -/
theorem moment_of_sync (e : Surroundings) (a : Address) {d : List UInt8}
    (hd : Datagram.decode d = .ok m) (hm : m.kind.isSync = true) :
    (n.moment s ⟨e, .ingest a d⟩).after.registry = s.registry.receive m a ∧
      (n.moment s ⟨e, .ingest a d⟩).after.queue = s.queue ∧
      (n.moment s ⟨e, .ingest a d⟩).output = { log := n.acceptEvents m a } := by
  change (n.ingest a d s).1.registry = _ ∧ (n.ingest a d s).1.queue = _ ∧
    (n.ingest a d s).2 = _
  rw [n.ingest_of_decode s hd]
  exact ⟨rfl, queue_accept_of_sync a s hm, rfl⟩

/-- Leaving a sync out leaves the queue as it is. -/
theorem secondary_without_sync (before after : List Turn) (e : Surroundings) (a : Address)
    {d : List UInt8} (hd : Datagram.decode d = .ok m) (hm : m.kind.isSync = true) :
    (n.play s (before ++ ⟨e, .ingest a d⟩ :: after)).2.secondary =
      (n.play s (before ++ after)).2.secondary := by
  obtain ⟨_, hqueue, _⟩ := n.moment_of_sync (s := (n.play s before).1) e a hd hm
  simp only [secondary_play, taken_append, taken_cons]
  rw [n.taken_congr hqueue after]
  rfl

theorem not_sync_of_taken {turns : List Turn} (h : m ∈ n.taken .initial turns) :
    m.kind.isSync = false := by
  have hwaited := List.mem_append_left (n.play .initial turns).1.queue h
  rw [taken_append_queue] at hwaited
  have hrelayed : m ∈ relayed (Turn.arrivals turns) := hwaited
  simpa using (List.mem_filter.mp hrelayed).2

end Node

end Rosters

/-- A node takes in a datagram that holds a message. Unless it is a sync, the message is passed on
once all that waits has been: the second way out gets just this message, and every datagram that is
sent for it holds just this message. These datagrams are all alike, and are the one that came in if
that was written for a message. So it goes with any number of nodes: whoever gets the datagram of
the last one reads what the first one read, and what a client sends comes in to the octet. A sync
puts nothing out and is never passed on. What comes after it is as without it, but for where
messages to single clients elsewhere are sent. -/
theorem relayed_faithfully {d : List UInt8} {m : Message} (h : Datagram.decode d = .ok m) :
    (m.kind.isSync = false →
      ∀ (n : Node) (before after : List Turn) (e : Surroundings) (a : Address),
        let x : Turn := ⟨e, .ingest a d⟩
        let turns := before ++ x :: after
        ((n.play .initial turns).1.queue = [] → (n.passing? before x after).isSome) ∧
        ∀ y, n.passing? before x after = some y →
          y ∈ n.history .initial turns ∧ y.taken? = some m ∧ y.PassesOn m ∧
          (∀ t ∈ y.output.attempts, Datagram.decode t.datagram = .ok m) ∧
          (∀ t ∈ y.output.attempts, ∀ t' ∈ y.output.attempts, t.datagram = t'.datagram) ∧
          ∀ m', Datagram.encode m' = .ok d → ∀ t ∈ y.output.attempts, t.datagram = d) ∧
    (∀ d', Travels d d' → Datagram.decode d' = .ok m ∧
      (∀ m', Datagram.encode m' = .ok d → d' = d) ∧
      ∀ r : ChatClient, r.receive d' = { r with inbox := r.inbox ++ [m] }) ∧
    (∀ (send : Address → Except String Unit) (c c' : ChatClient) (x : ChatClient.Call),
      c.call send x = (.ok d, c') →
        x.message c.username = .ok m ∧ ∀ d', Travels d d' → d' = d) ∧
    (∀ (send : Address → Except String Unit) (server : Address) (username : String)
      (c : ChatClient), ChatClient.connect send server username = .ok (c, d) →
        Message.connect username = .ok m ∧ ∀ d', Travels d d' → d' = d) ∧
    (m.kind.isSync = true →
      ∀ (n : Node) (before after : List Turn) (e : Surroundings) (a : Address),
        let x : Turn := ⟨e, .ingest a d⟩
        let s := (n.play .initial before).1
        let y := n.moment s x
        y.output.attempts = [] ∧ y.output.secondary = [] ∧
        (∀ m' ∈ n.taken .initial (before ++ x :: after), m'.kind.isSync = false) ∧
        (n.play .initial (before ++ x :: after)).2.secondary =
          (n.play .initial (before ++ after)).2.secondary ∧
        n.history .initial (before ++ x :: after) =
          n.history .initial before ++ y :: n.history y.after after ∧
        n.history .initial (before ++ after) =
          n.history .initial before ++ n.history s after ∧
        List.Forall₂ Moment.SameButRosters (n.history y.after after) (n.history s after)) := by
  refine ⟨?_, ?_, ?_, ?_, ?_⟩
  · intro hm n before after e a x turns
    refine ⟨n.passing?_isSome h hm, fun y hy => ?_⟩
    have htaken := n.taken_of_passing h hm hy
    obtain ⟨hmem, _⟩ := n.mem_history_of_passing hy
    have hpass : y.PassesOn m := by
      obtain ⟨s, x', rfl⟩ := n.mem_history _ hmem
      exact n.passesOn_of_taken htaken
    have hwritten : ∀ t ∈ y.output.attempts, Datagram.encode m = .ok t.datagram :=
      fun t ht => hpass.encode_eq ht
    refine ⟨hmem, htaken, hpass, ?_, ?_, ?_⟩
    · exact fun t ht => Datagram.decode_of_encode (hwritten t ht) (Datagram.valid_of_decode h)
    · exact fun t ht t' ht' => Except.ok.inj ((hwritten t ht).symm.trans (hwritten t' ht'))
    · intro m' hd t ht
      rw [Datagram.eq_of_encode_of_decode hd h, hwritten t ht] at hd
      exact Except.ok.inj hd
  · intro d' ht
    have hdecode := (ht.eq_or_encode_eq h).1
    exact ⟨hdecode, fun m' hd => ht.eq_of_encode hd h, fun r => r.receive_of_decode hdecode⟩
  · intro send c c' x hcall
    obtain ⟨m', hm', hd, hdecode⟩ := ChatClient.decode_of_post
      (fun m hx => (ChatClient.message_eq_ok hx).1) hcall
    cases h.symm.trans hdecode
    exact ⟨hm', fun d' ht => ht.eq_of_encode hd h⟩
  · intro send server username c hconnect
    obtain ⟨_, hpost⟩ := ChatClient.connect_eq_ok.mp hconnect
    obtain ⟨m', hm', hd, hdecode⟩ := ChatClient.decode_of_post
      (fun m hx => (Message.withText_eq_ok.mp hx).1)
      (ChatClient.post_eq_ok (c := ⟨server, username, 0, []⟩) |>.mpr hpost)
    cases h.symm.trans hdecode
    exact ⟨hm', fun d' ht => ht.eq_of_encode hd h⟩
  · intro hm n before after e a x s y
    obtain ⟨hregistry, hqueue, houtput⟩ := n.moment_of_sync (s := s) e a h hm
    have hsame : y.after.registry.SameButRosters s.registry :=
      hregistry ▸ .receive_sync s.registry a hm
    refine ⟨congrArg Output.attempts houtput, congrArg Output.secondary houtput,
      fun m' hm' => n.not_sync_of_taken hm', n.secondary_without_sync before after e a h hm, ?_,
      n.history_append before after, n.sameButRosters_history hsame hqueue after⟩
    rw [Node.history_append, Node.history_cons]

section Letter

def greeting : Message := ⟨.privateMessage, "ann", "bob", .text "hi"⟩

/-- The greeting as a list of its fields. No node writes it so. -/
def listedGreeting : List UInt8 :=
  Datagram.frame (Text.octets "[\"PrivateMessage\",\"ann\",\"bob\",\x7b\"Text\":\"hi\"\x7d]")

def rumor : Message := ⟨.syncRight, "mid", "left", .roster ["bob"]⟩

/-- The greeting comes to bob in another form, and whatever node it passes then leaves that form
alone. The roster of another node is kept and goes no further. -/
theorem relayed_faithfully_letter :
    let x : Turn := ⟨.calm, .ingest ⟨.v4 10 0 0 7, 7⟩ listedGreeting⟩
    let before : List Turn := [⟨.calm, Node.hears ⟨.connect, "bob", Message.everyone, .text ""⟩⟩]
    let after : List Turn := [⟨.calm, .dispatch⟩, ⟨.calm, .dispatch⟩]
    Datagram.decode listedGreeting = .ok greeting ∧
      (Node.standardLeft.passing? before x after).isSome ∧
      listedGreeting ≠ Datagram.frame greeting.json ∧
      Travels listedGreeting (Datagram.frame greeting.json) ∧
      (∀ d, Travels (Datagram.frame greeting.json) d → d = Datagram.frame greeting.json) ∧
      (Node.standardLeft.moment .initial ⟨.calm, Node.hears rumor⟩).output.attempts = [] ∧
      (Node.standardLeft.moment .initial ⟨.calm, Node.hears rumor⟩).output.secondary = [] := by
  intro x before after
  have hlisted : Datagram.decode listedGreeting = .ok greeting := by decide +kernel
  have hgreeting : Datagram.encode greeting = .ok (Datagram.frame greeting.json) := by
    decide +kernel
  have hqueue : (Node.standardLeft.play .initial (before ++ x :: after)).1.queue = [] := by
    decide +kernel
  have hsent : (Node.standardLeft.passing? before x after).map
      (fun y => y.output.attempts.map (·.datagram)) = some [Datagram.frame greeting.json] := by
    decide +kernel
  obtain ⟨y, hy, hattempts⟩ := Option.map_eq_some_iff.mp hsent
  have ht : Datagram.frame greeting.json ∈ y.output.attempts.map (·.datagram) := by
    simp only [hattempts, List.mem_singleton]
  obtain ⟨t, ht, hdatagram⟩ := List.mem_map.mp ht
  have htravels : Travels listedGreeting (Datagram.frame greeting.json) :=
    hdatagram ▸ .single (.mk hlisted rfl hy ht)
  obtain ⟨hpassing, _⟩ := (relayed_faithfully hlisted).1 rfl Node.standardLeft before after .calm _
  obtain ⟨_, htravel, _⟩ := relayed_faithfully
    (Datagram.decode_of_encode hgreeting (Datagram.valid_of_decode hlisted))
  have hrumor : Datagram.decode (Datagram.frame rumor.json) = .ok rumor := by decide +kernel
  obtain ⟨hnothing, hsecondary, _⟩ := (relayed_faithfully hrumor).2.2.2.2 rfl
    Node.standardLeft [] [] .calm ⟨.v4 10 0 0 9, 9⟩
  exact ⟨hlisted, hpassing hqueue, by decide +kernel, htravels,
    fun d hd => (htravel d hd).2.1 _ hgreeting, hnothing, hsecondary⟩

end Letter

end ChatRelay
