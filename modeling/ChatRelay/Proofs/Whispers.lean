import ChatRelay.Proofs.Fidelity
import ChatRelay.Proofs.OvertTurns

namespace ChatRelay

def State.waiting (s : State) : List Bool := s.queue.map (·.isWhisper)

namespace Moment

/-- Whether a moment has to do with anything but whispers. -/
def isOvert (x : Moment) : Bool := x.turn.isOvert x.before.waiting

def sentTo (a : Address) (x : Moment) : List (List UInt8) :=
  (x.output.sent.filter (·.1 = a)).map (·.2)

/-- Moments of the same turn that tell apart at most what is counted and what waits: the node knows
the same, asks for the same datagrams and puts out the same. -/
structure Agree (n : Node) (x y : Moment) : Prop where
  turn : x.turn = y.turn
  before : x.before.registry = y.before.registry
  taken : x.taken? = y.taken?
  planned : n.planned x.before x.turn.step = n.planned y.before y.turn.step
  output : x.output = y.output
  after : x.after.registry = y.after.registry

namespace Agree

variable {n : Node} {x y z : Moment}

theorem symm (h : x.Agree n y) : y.Agree n x :=
  ⟨h.turn.symm, h.before.symm, h.taken.symm, h.planned.symm, h.output.symm, h.after.symm⟩

theorem trans (h : x.Agree n y) (h' : y.Agree n z) : x.Agree n z :=
  ⟨h.turn.trans h'.turn, h.before.trans h'.before, h.taken.trans h'.taken,
    h.planned.trans h'.planned, h.output.trans h'.output, h.after.trans h'.after⟩

theorem sentTo (h : x.Agree n y) (a : Address) : x.sentTo a = y.sentTo a := by
  unfold Moment.sentTo
  rw [h.output]

/-- Moments that agree with the same moments agree. -/
theorem forall₂ {xs ys zs : List Moment} (h : List.Forall₂ (Agree n) xs zs)
    (h' : List.Forall₂ (Agree n) ys zs) : List.Forall₂ (Agree n) xs ys := by
  induction h generalizing ys with
  | nil =>
    cases h'
    exact .nil
  | cons hx _ ih =>
    cases h' with
    | cons hy hys => exact .cons (hx.trans hy.symm) (ih hys)

theorem flatMap_sentTo {xs ys : List Moment} (h : List.Forall₂ (Agree n) xs ys) (a : Address) :
    xs.flatMap (·.sentTo a) = ys.flatMap (·.sentTo a) := by
  induction h with
  | nil => rfl
  | cons hx _ ih => rw [List.flatMap_cons, List.flatMap_cons, hx.sentTo, ih]

end Agree

end Moment

/-- Where words to a client go, as a node sees it: to the oldest session of the client, else to one
neighbor who has told of the client, else nowhere. -/
inductive Registry.LeadsTo (r : Registry) (id : String) : List Address → Prop where
  | here {c : Connection} (hc : r.session? id = some c) : r.LeadsTo id [c.address]
  | through {side : Side} {c : Connection} (hs : r.session? id = none)
      (hc : r.neighbor side = some c) (hr : id ∈ r.roster side) : r.LeadsTo id [c.address]
  | nowhere (hs : r.session? id = none)
      (hn : ∀ side c, r.neighbor side = some c → id ∉ r.roster side) : r.LeadsTo id []

/-- States that tell apart at most what is counted, and the whispers that wait in the first one. -/
structure State.Overt (s t : State) : Prop where
  registry : s.registry = t.registry
  queue : s.queue.filter (!·.isWhisper) = t.queue

namespace Node

/-- The moments of a run that have to do with anything but whispers. -/
def overtMoments (n : Node) (s : State) (turns : List Turn) : List Moment :=
  (n.history s turns).filter (·.isOvert)

def sentTo (n : Node) (turns : List Turn) (a : Address) : List (List UInt8) :=
  ((n.play .initial turns).2.sent.filter (·.1 = a)).map (·.2)

end Node

section Plans

variable {r : Registry} {m : Message}

/-- Whispers are no news to a node. -/
theorem Registry.receive_of_whisper (h : m.isWhisper = true) (a : Address) :
    r.receive m a = r := by
  unfold receive
  rcases (Message.kind_of_isWhisper h).1 with hk | hk
  · rw [hk]
  · rw [hk]

/-- What is planned for words to one client is where they lead. -/
theorem Registry.leadsTo_plan (h : m.isBroadcast = false) :
    r.LeadsTo m.destination (r.plan m).targets := by
  cases hs : r.session? m.destination with
  | some c =>
    rw [plan_of_session h hs]
    exact .here hs
  | none =>
    rcases plan_of_absence h hs with hmiss | ⟨side, c, hp, hc, hr⟩
    · rw [hmiss]
      rw [plan_of_absent h hs] at hmiss
      apply LeadsTo.nowhere hs
      intro side
      rw [← through?_eq_none]
      -- A side that told of the client would be the plan, and no side is the plan to miss.
      cases hl : r.through? .left m.destination with
      | some x =>
        obtain ⟨c, _, _, rfl⟩ := through?_eq_some.mp hl
        rw [hl] at hmiss
        cases hmiss
      | none =>
        rw [hl] at hmiss
        cases hr : r.through? .right m.destination with
        | some x =>
          obtain ⟨c, _, _, rfl⟩ := through?_eq_some.mp hr
          rw [hr] at hmiss
          cases hmiss
        | none =>
          cases side
          · exact hl
          · exact hr
    · rw [hp]
      exact .through hs hc hr

/-- Of a message to one client only the name of the client matters. -/
theorem Registry.plan_congr {m' : Message} (h : m.isBroadcast = false)
    (h' : m'.isBroadcast = false) (hd : m.destination = m'.destination) :
    r.plan m = r.plan m' := by
  simp only [plan, h, h', hd, Bool.false_eq_true, if_false]

theorem Registry.LeadsTo.length_le {id : String} {targets : List Address}
    (h : r.LeadsTo id targets) : targets.length ≤ 1 := by
  cases h with
  | here => exact Nat.le_refl 1
  | through => exact Nat.le_refl 1
  | nowhere => exact Nat.zero_le 1

end Plans

namespace Node

variable (n : Node) {s t : State}

section Congruence

variable (e : Surroundings)

theorem output_relay_congr (h : s.registry = t.registry) (m : Message) :
    (relay e m s).2 = (relay e m t).2 := by
  unfold relay
  rw [h]
  cases Datagram.encode m with
  | error cause => rfl
  | ok d => cases t.registry.plan m <;> rfl

theorem output_dispatch_congr (h : s.registry = t.registry)
    (hq : s.queue.head? = t.queue.head?) : (dispatch e s).2 = (dispatch e t).2 := by
  cases hs : s.queue with
  | nil =>
    rw [hs] at hq
    rw [dispatch_nil e hs, dispatch_nil e (List.head?_eq_none_iff.mp hq.symm)]
  | cons m queue =>
    rw [hs] at hq
    obtain ⟨queue', ht⟩ := List.head?_eq_some_iff.mp hq.symm
    rw [dispatch_cons e hs, dispatch_cons e ht]
    have hrelay : (relay e m { s with queue := queue }).2 =
        (relay e m { t with queue := queue' }).2 :=
      output_relay_congr (s := { s with queue := queue }) (t := { t with queue := queue' }) e h m
    exact congrArg (· ++ deliver e m) hrelay

theorem syncSide_congr (h : s.registry = t.registry) (side : Side) :
    (n.syncSide e side s).2 = (n.syncSide e side t).2 ∧
      (n.syncSide e side s).1.registry = (n.syncSide e side t).1.registry := by
  rw [syncSide_row, syncSide_row, ← h]
  cases n.row? side with
  | none => exact ⟨rfl, h⟩
  | some row =>
    cases s.registry.neighbor side with
    | none =>
      dsimp only
      cases row.find e.lookup <;> exact ⟨rfl, rfl⟩
    | some c =>
      dsimp only
      rw [registry_pushRoster, registry_pushRoster]
      refine ⟨?_, h⟩
      unfold pushRoster
      rw [← h]
      cases n.rosterDatagram side c s.registry with
      | error cause => rfl
      | ok d =>
        dsimp only
        cases e.send c.address <;> rfl

end Congruence

/-- What a moment asks for and puts out is up to what the node knows and to the message that it
takes from the queue. -/
theorem agree_moment (h : s.registry = t.registry) {x : Turn}
    (htaken : (n.moment s x).taken? = (n.moment t x).taken?) :
    (n.moment s x).Agree n (n.moment t x) := by
  obtain ⟨e, step⟩ := x
  cases step with
  | ingest a d =>
    refine ⟨rfl, h, htaken, rfl, ?_, ?_⟩
    · change (n.ingest a d s).2 = (n.ingest a d t).2
      unfold ingest
      cases Datagram.decode d <;> rfl
    · change (n.ingest a d s).1.registry = (n.ingest a d t).1.registry
      unfold ingest
      cases Datagram.decode d with
      | error cause => exact h
      | ok m => exact congrArg (·.receive m a) h
  | dispatch =>
    have hq : s.queue.head? = t.queue.head? := htaken
    refine ⟨rfl, h, htaken, ?_, output_dispatch_congr e h hq, ?_⟩
    · change n.planned s .dispatch = n.planned t .dispatch
      cases hs : s.queue with
      | nil =>
        rw [hs] at hq
        simp only [planned, hs, List.head?_eq_none_iff.mp hq.symm]
      | cons m queue =>
        rw [hs] at hq
        obtain ⟨queue', ht⟩ := List.head?_eq_some_iff.mp hq.symm
        rw [n.planned_dispatch hs, n.planned_dispatch ht, h]
    · change (dispatch e s).1.registry = (dispatch e t).1.registry
      rw [registry_dispatch, registry_dispatch, h]
  | sync side =>
    obtain ⟨houtput, hafter⟩ := n.syncSide_congr e h side
    exact ⟨rfl, h, htaken, congrArg (n.pushPlan side) h, houtput, hafter⟩

section Covert

variable {x : Turn} {e : Surroundings} {a : Address} {d : List UInt8}

theorem isOvert_of_damage {cause : ProtocolError} (hd : Datagram.decode d = .error cause) :
    (n.moment s ⟨e, .ingest a d⟩).isOvert = true := by
  change (!(Datagram.decode d).toOption.any Message.isWhisper) = true
  rw [hd]
  rfl

theorem isOvert_of_decode {m : Message} (hd : Datagram.decode d = .ok m) :
    (n.moment s ⟨e, .ingest a d⟩).isOvert = !m.isWhisper := by
  change (!(Datagram.decode d).toOption.any Message.isWhisper) = _
  rw [hd]
  rfl

theorem isOvert_dispatch :
    (n.moment s ⟨e, .dispatch⟩).isOvert = s.queue.head?.any (!·.isWhisper) := by
  change decide ((s.queue.map (·.isWhisper)).head? = some false) = _
  cases s.queue <;> simp

/-- What is not overt changes nothing that a node knows, and no message that waits but whispers. -/
theorem after_of_covert (h : (n.moment s x).isOvert = false) :
    (n.moment s x).after.registry = s.registry ∧
      (n.moment s x).after.queue.filter (!·.isWhisper) = s.queue.filter (!·.isWhisper) := by
  obtain ⟨e, step⟩ := x
  cases step with
  | ingest a d =>
    change (n.ingest a d s).1.registry = _ ∧ (n.ingest a d s).1.queue.filter _ = _
    cases hd : Datagram.decode d with
    | error cause =>
      rw [n.isOvert_of_damage hd] at h
      cases h
    | ok m =>
      have hm : m.isWhisper = true := by
        simpa [n.isOvert_of_decode hd] using h
      rw [n.ingest_of_decode s hd]
      refine ⟨Registry.receive_of_whisper hm a, ?_⟩
      change (if m.kind.isSync then s.queue else s.queue ++ [m]).filter _ = _
      split
      · rfl
      · simp [hm]
  | dispatch =>
    change (dispatch e s).1.registry = _ ∧ (dispatch e s).1.queue.filter _ = _
    rw [registry_dispatch, queue_dispatch]
    refine ⟨rfl, ?_⟩
    cases hq : s.queue with
    | nil => rfl
    | cons m queue =>
      have hm : m.isWhisper = true := by simpa [n.isOvert_dispatch, hq] using h
      simp [hm]
  | sync side => cases h

theorem queue_of_overt {e : Surroundings} (h : (n.moment s ⟨e, .dispatch⟩).isOvert = true) :
    ∃ m queue, s.queue = m :: queue ∧ m.isWhisper = false := by
  cases hq : s.queue with
  | nil => simp [n.isOvert_dispatch, hq] at h
  | cons m queue => exact ⟨m, queue, rfl, by simpa [n.isOvert_dispatch, hq] using h⟩

/-- Of what waits after an overt turn, all but the whispers waits in the other run too. -/
theorem overt_after (h : (n.moment s x).isOvert = true) (hs : s.Overt t) :
    (n.moment s x).after.queue.filter (!·.isWhisper) = (n.moment t x).after.queue := by
  obtain ⟨e, step⟩ := x
  cases step with
  | ingest a d =>
    change (n.ingest a d s).1.queue.filter _ = (n.ingest a d t).1.queue
    cases hd : Datagram.decode d with
    | error cause =>
      rw [n.ingest_of_damage s hd, n.ingest_of_damage t hd]
      exact hs.queue
    | ok m =>
      have hm : m.isWhisper = false := by
        simpa [n.isOvert_of_decode hd] using h
      rw [n.ingest_of_decode s hd, n.ingest_of_decode t hd]
      change (if m.kind.isSync then s.queue else s.queue ++ [m]).filter _ =
        if m.kind.isSync then t.queue else t.queue ++ [m]
      split
      · exact hs.queue
      · simp [hm, hs.queue]
  | dispatch =>
    change (dispatch e s).1.queue.filter _ = (dispatch e t).1.queue
    obtain ⟨m, queue, hq, hm⟩ := n.queue_of_overt h
    rw [queue_dispatch, queue_dispatch, ← hs.queue, hq]
    simp [hm]
  | sync side =>
    change (n.syncSide e side s).1.queue.filter _ = (n.syncSide e side t).1.queue
    rw [(n.syncSide_eq e side s).2.1, (n.syncSide_eq e side t).2.1]
    exact hs.queue

/-- What is overt goes alike whether or not whispers wait. -/
theorem agree_of_overt (h : (n.moment s x).isOvert = true) (hs : s.Overt t) :
    (n.moment s x).Agree n (n.moment t x) ∧ (n.moment s x).after.Overt (n.moment t x).after := by
  have htaken : (n.moment s x).taken? = (n.moment t x).taken? := by
    obtain ⟨e, step⟩ := x
    cases step with
    | ingest a d => rfl
    | dispatch =>
      obtain ⟨m, queue, hq, hm⟩ := n.queue_of_overt h
      change s.queue.head? = t.queue.head?
      rw [← hs.queue, hq]
      simp [hm]
    | sync side => rfl
  have hagree := n.agree_moment hs.registry htaken
  exact ⟨hagree, hagree.after, n.overt_after h hs⟩

end Covert

theorem overtMoments_cons (x : Turn) (turns : List Turn) :
    n.overtMoments s (x :: turns) =
      (if (n.moment s x).isOvert then [n.moment s x] else []) ++
        n.overtMoments (n.moment s x).after turns := by
  unfold overtMoments
  rw [history_cons, List.filter_cons]
  split <;> rfl

theorem waiting_moment (x : Turn) : (n.moment s x).after.waiting = x.next s.waiting := by
  have hqueue := n.queue_moment s x
  obtain ⟨e, step⟩ := x
  cases step with
  | ingest a d =>
    change (n.moment s ⟨e, .ingest a d⟩).after.queue = _ at hqueue
    rw [State.waiting, hqueue, List.map_append]
    rfl
  | dispatch =>
    change ((dispatch e s).1.queue).map _ = (s.queue.map _).tail
    rw [queue_dispatch, List.map_tail]
  | sync side =>
    change (n.moment s ⟨e, .sync side⟩).after.queue = _ at hqueue
    rw [State.waiting, hqueue, List.map_append]
    rfl

theorem overt_cons (x : Turn) (turns : List Turn) :
    Turn.overt s.waiting (x :: turns) =
      (if (n.moment s x).isOvert then [x] else []) ++
        Turn.overt (n.moment s x).after.waiting turns := by
  rw [waiting_moment]
  rfl

/-- A run without its whispers goes, moment by moment, as it does with them. -/
theorem agree_overt (hs : s.Overt t) (turns : List Turn) :
    List.Forall₂ (Moment.Agree n) (n.overtMoments s turns)
        (n.history t (Turn.overt s.waiting turns)) ∧
      (n.play s turns).1.Overt (n.play t (Turn.overt s.waiting turns)).1 := by
  induction turns generalizing s t with
  | nil => exact ⟨.nil, hs⟩
  | cons x turns ih =>
    rw [overtMoments_cons, play_cons, n.overt_cons]
    cases hx : (n.moment s x).isOvert with
    | true =>
      obtain ⟨hagree, hafter⟩ := n.agree_of_overt hx hs
      obtain ⟨hmoments, hplay⟩ := ih hafter
      exact ⟨.cons hagree hmoments, hplay⟩
    | false =>
      obtain ⟨hregistry, hqueue⟩ := n.after_of_covert hx
      exact ih ⟨hregistry.trans hs.registry, hqueue.trans hs.queue⟩

end Node

namespace Node

variable (n : Node)

/-- What is sent to an address in a run is what is sent to it in each moment. -/
theorem sentTo_play (s : State) (turns : List Turn) (a : Address) :
    ((n.play s turns).2.sent.filter (·.1 = a)).map (·.2) =
      (n.history s turns).flatMap (·.sentTo a) := by
  induction turns generalizing s with
  | nil => rfl
  | cons x turns ih =>
    rw [play_cons, history_cons, List.flatMap_cons, ← ih, Output.sent_append, List.filter_append,
      List.map_append]
    rfl

/-- Who is sent no whisper is sent what is overt, and nothing else. -/
theorem sentTo_of_silent {turns : List Turn} {a : Address}
    (h : ∀ x ∈ n.history .initial turns, x.isOvert = false → x.sentTo a = []) :
    n.sentTo turns a = (n.overtMoments .initial turns).flatMap (·.sentTo a) := by
  unfold sentTo overtMoments
  rw [sentTo_play]
  generalize n.history .initial turns = moments at h
  induction moments with
  | nil => rfl
  | cons x moments ih =>
    obtain ⟨hx, hrest⟩ := List.forall_mem_cons.mp h
    rw [List.flatMap_cons, List.filter_cons, ih hrest]
    cases hovert : x.isOvert with
    | true => rfl
    | false => rw [hx hovert]; rfl

theorem isWhisper_of_taken {x : Turn} {m : Message} (h : (n.moment s x).isOvert = false)
    (htaken : (n.moment s x).taken? = some m) : m.isWhisper = true := by
  obtain ⟨e, step⟩ := x
  cases step with
  | ingest a d => cases htaken
  | dispatch =>
    have hq : s.queue.head? = some m := htaken
    simpa [n.isOvert_dispatch, hq] using h
  | sync side => cases htaken

theorem attempts_of_covert {x : Turn} (h : (n.moment s x).isOvert = false)
    (htaken : (n.moment s x).taken? = none) : (n.moment s x).output.attempts = [] := by
  rw [attempts_moment, List.map_eq_nil_iff]
  obtain ⟨e, step⟩ := x
  cases step with
  | ingest a d => rfl
  | dispatch =>
    have hq : s.queue = [] := List.head?_eq_none_iff.mp htaken
    simp only [planned, hq]
  | sync side => cases h

/-- Whispers teach a node nothing. A whisper that is passed on goes where words to its destination
lead. -/
theorem passesOn_of_covert {x : Moment} {turns : List Turn}
    (hx : x ∈ n.history .initial turns) (h : x.isOvert = false) :
    x.after.registry = x.before.registry ∧
      (x.taken? = none → x.output.attempts = [] ∧ x.output.secondary = []) ∧
      ∀ m, x.taken? = some m → m.isWhisper = true ∧ x.PassesOn m ∧
        x.before.registry.LeadsTo m.destination (x.before.registry.plan m).targets := by
  obtain ⟨s, x, rfl⟩ := n.mem_history _ hx
  refine ⟨(n.after_of_covert h).1, fun htaken => ?_, fun m htaken => ?_⟩
  · rw [secondary_moment, htaken]
    exact ⟨n.attempts_of_covert h htaken, rfl⟩
  · have hm := n.isWhisper_of_taken h htaken
    exact ⟨hm, n.passesOn_of_taken htaken,
      Registry.leadsTo_plan (Message.kind_of_isWhisper hm).2⟩

/-- What a node plans, hands on and sends for a message is up to the message, what the node knows,
and who can be sent to. -/
theorem alike_of_taken (h : s.registry = t.registry) {x y : Turn} {m : Message}
    (hx : (n.moment s x).taken? = some m) (hy : (n.moment t y).taken? = some m) :
    s.registry.plan m = t.registry.plan m ∧
      (n.moment s x).output.secondary = (n.moment t y).output.secondary ∧
      (x.surroundings.send = y.surroundings.send →
        (n.moment s x).output.attempts = (n.moment t y).output.attempts) := by
  have hpasses := n.passesOn_of_taken hx
  have hpasses' := n.passesOn_of_taken hy
  refine ⟨by rw [h], hpasses.secondary.trans hpasses'.secondary.symm, fun hsend => ?_⟩
  cases hd : Datagram.encode m with
  | error cause => rw [hpasses.unsent cause hd, hpasses'.unsent cause hd]
  | ok d =>
    rw [hpasses.attempts d hd, hpasses'.attempts d hd]
    change attemptsTo x.surroundings d (s.registry.plan m).targets =
      attemptsTo y.surroundings d (t.registry.plan m).targets
    unfold attemptsTo
    rw [hsend, h]

/-- Runs that differ in whispers only agree at corresponding points, and end with one registry. -/
theorem agree_runs (n : Node) {turns turns' : List Turn}
    (h : Turn.overt [] turns = Turn.overt [] turns') :
    List.Forall₂ (Moment.Agree n) (n.overtMoments .initial turns)
        (n.overtMoments .initial turns') ∧
      (n.play .initial turns).1.registry = (n.play .initial turns').1.registry := by
  have hempty : State.initial.Overt .initial := ⟨rfl, rfl⟩
  obtain ⟨hmoments, hplay⟩ := n.agree_overt hempty turns
  obtain ⟨hmoments', hplay'⟩ := n.agree_overt hempty turns'
  rw [show Turn.overt State.initial.waiting turns = _ from h] at hmoments hplay
  exact ⟨Moment.Agree.forall₂ hmoments hmoments', hplay.registry.trans hplay'.registry.symm⟩

/-- Two runs that differ in whispers only: in those that come in, in where they stand, and in what
they say. At corresponding points a node knows the same in both, and a message that it takes from
its queue at such points in both, a whisper too, it plans, hands on and sends alike. All that is no
whisper it deals with alike, so that whoever is sent no whisper is sent the same datagrams. A
whisper goes to one address at most, the one that its destination leads to, whatever it says. Runs
differ in whispers only if other words take their place; if there are none in one of them; if one
more comes in, at any turn, and there is a turn to pass it on when it has come to the front; and,
where all that comes in is passed on at once, whichever come in. -/
theorem whispers_unheard (n : Node) :
    (∀ turns turns', Turn.overt [] turns = Turn.overt [] turns' →
      List.Forall₂ (Moment.Agree n) (n.overtMoments .initial turns)
        (n.overtMoments .initial turns') ∧
      (∀ before before', before <+: turns → before' <+: turns' →
        Turn.overt [] before = Turn.overt [] before' →
        (n.play .initial before).1.registry = (n.play .initial before').1.registry) ∧
      (∀ before before' x x' after after' m, turns = before ++ x :: after →
        turns' = before' ++ x' :: after' → Turn.overt [] before = Turn.overt [] before' →
        let y := n.moment (n.play .initial before).1 x
        let y' := n.moment (n.play .initial before').1 x'
        y.taken? = some m → y'.taken? = some m →
          y.before.registry.plan m = y'.before.registry.plan m ∧
          y.output.secondary = y'.output.secondary ∧
          (x.surroundings.send = x'.surroundings.send →
            y.output.attempts = y'.output.attempts)) ∧
      (∀ a, (n.overtMoments .initial turns).flatMap (·.sentTo a) =
        (n.overtMoments .initial turns').flatMap (·.sentTo a)) ∧
      ∀ a, (∀ x ∈ n.history .initial turns ++ n.history .initial turns',
          x.isOvert = false → x.sentTo a = []) →
        n.sentTo turns a = n.sentTo turns' a) ∧
    (∀ turns, (∀ a, n.sentTo turns a = (n.history .initial turns).flatMap (·.sentTo a)) ∧
      ∀ x ∈ n.history .initial turns, x.isOvert = false →
        x.after.registry = x.before.registry ∧
        (x.taken? = none → x.output.attempts = [] ∧ x.output.secondary = []) ∧
        ∀ m, x.taken? = some m → m.isWhisper = true ∧ x.PassesOn m ∧
          x.before.registry.LeadsTo m.destination (x.before.registry.plan m).targets ∧
          (x.before.registry.plan m).targets.length ≤ 1) ∧
    (∀ (r : Registry) (m m' : Message), m.isBroadcast = false → m'.isBroadcast = false →
      m.destination = m'.destination → r.plan m = r.plan m') ∧
    (∀ turns turns', List.Forall₂ Turn.Revises turns turns' →
      Turn.overt [] turns = Turn.overt [] turns') ∧
    (∀ turns, Turn.overt [] (Turn.overt [] turns) = Turn.overt [] turns) ∧
    (∀ before x after, x.isWhisper = true → ∃ mid extra rest, after = mid ++ rest ∧
      (extra = [] ∨ extra = [⟨x.surroundings, .dispatch⟩]) ∧
      Turn.overt [] (before ++ x :: (mid ++ (extra ++ rest))) = Turn.overt [] (before ++ after)) ∧
    ∀ turns turns', turns.filter (!·.isWhisper) = turns'.filter (!·.isWhisper) →
      Turn.overt [] (Turn.promptly turns) = Turn.overt [] (Turn.promptly turns') := by
  refine ⟨fun turns turns' h => ?_, fun turns => ⟨n.sentTo_play _ turns, ?_⟩,
    fun r m m' => Registry.plan_congr, fun turns turns' => Turn.overt_of_revises,
    @Turn.overt_overt [], ?_, ?_⟩
  · have hmoments := (n.agree_runs h).1
    have hsent := Moment.Agree.flatMap_sentTo hmoments
    refine ⟨hmoments, fun before before' _ _ hb => (n.agree_runs hb).2, ?_, hsent, ?_⟩
    · intro before before' x x' after after' m _ _ hb y y' hy hy'
      exact n.alike_of_taken (n.agree_runs hb).2 hy hy'
    · intro a hsilent
      obtain ⟨hleft, hright⟩ := List.forall_mem_append.mp hsilent
      rw [n.sentTo_of_silent hleft, n.sentTo_of_silent hright, hsent]
  · intro x hx hcovert
    obtain ⟨hregistry, hidle, hpass⟩ := n.passesOn_of_covert hx hcovert
    refine ⟨hregistry, hidle, fun m htaken => ?_⟩
    obtain ⟨hm, hpasses, hleads⟩ := hpass m htaken
    exact ⟨hm, hpasses, hleads, hleads.length_le⟩
  · exact fun before x after => Turn.exists_overt_insert before after
  · intro turns turns' h
    rw [Turn.overt_promptly, Turn.overt_promptly, h]

section Secret

def whisperTo (destination text : String) : Message :=
  ⟨.privateMessage, "ann", destination, .text text⟩

def hearsFrom (port : UInt16) (m : Message) : Step :=
  .ingest ⟨.v4 10 0 0 9, port⟩ (Datagram.frame m.json)

/-- Bob and eve come, and some words are said to single clients. -/
def dusk (whispers : List Message) : List Turn :=
  (hearsFrom 1 ⟨.connect, "bob", Message.everyone, .text ""⟩ ::
    hearsFrom 2 ⟨.connect, "eve", Message.everyone, .text ""⟩ ::
    whispers.map (hearsFrom 3)).map (Turn.mk .calm)

/-- Then bob is told good-bye, and something is said to everyone. -/
def evening (whispers : List Message) : List Turn :=
  dusk (whispers ++ [whisperTo "bob" "bye"]) ++
    [⟨.calm, hearsFrom 3 ⟨.chat, "ann", Message.everyone, .text "hi"⟩⟩]

def loud : List Turn := Turn.promptly (evening [whisperTo "bob" "now"])

def quiet : List Turn := Turn.promptly (evening [whisperTo "dan" "who", whisperTo "bob" "later"])

theorem filter_dusk {whispers : List Message}
    (h : whispers.all (fun m => (⟨.calm, hearsFrom 3 m⟩ : Turn).isWhisper) = true) :
    (dusk whispers).filter (!·.isWhisper) = (dusk []).filter (!·.isWhisper) := by
  have hnone : ((whispers.map (hearsFrom 3)).map (Turn.mk .calm)).filter (!·.isWhisper) = [] := by
    rw [List.filter_eq_nil_iff]
    intro x hx
    rw [List.map_map] at hx
    obtain ⟨m, hm, rfl⟩ := List.mem_map.mp hx
    simpa using List.all_eq_true.mp h m hm
  change (dusk [] ++ (whispers.map (hearsFrom 3)).map (Turn.mk .calm)).filter _ = _
  rw [List.filter_append, hnone, List.append_nil]

/-- Eve hears the same on both evenings, and bob does not. What he alone is told goes to him alone,
and the good-bye that he is told on both evenings is sent alike. -/
theorem whispers_unheard_evening :
    Turn.overt [] loud = Turn.overt [] quiet ∧
      standardLeft.sentTo loud ⟨.v4 10 0 0 9, 2⟩ = standardLeft.sentTo quiet ⟨.v4 10 0 0 9, 2⟩ ∧
      (standardLeft.sentTo loud ⟨.v4 10 0 0 9, 2⟩).length = 1 ∧
      standardLeft.sentTo loud ⟨.v4 10 0 0 9, 1⟩ ≠ standardLeft.sentTo quiet ⟨.v4 10 0 0 9, 1⟩ ∧
      (standardLeft.play .initial loud).1.registry =
        (standardLeft.play .initial quiet).1.registry ∧
      (∃ x ∈ standardLeft.history .initial loud, x.taken? = some (whisperTo "bob" "now") ∧
        x.before.registry.LeadsTo "bob" [⟨.v4 10 0 0 9, 1⟩]) ∧
      let x := standardLeft.moment (standardLeft.play .initial (loud.take 7)).1 ⟨.calm, .dispatch⟩
      let y := standardLeft.moment (standardLeft.play .initial (quiet.take 9)).1 ⟨.calm, .dispatch⟩
      x.taken? = some (whisperTo "bob" "bye") ∧ x.output.attempts.length = 1 ∧
        x.output.attempts = y.output.attempts := by
  obtain ⟨hruns, hwhispers, _, _, _, _, hprompt⟩ := whispers_unheard standardLeft
  have hdusk : (dusk [whisperTo "bob" "now"]).filter (!·.isWhisper) =
      (dusk [whisperTo "dan" "who", whisperTo "bob" "later"]).filter (!·.isWhisper) :=
    (filter_dusk (by decide +kernel)).trans (filter_dusk (by decide +kernel)).symm
  have hfilter : (evening [whisperTo "bob" "now"]).filter (!·.isWhisper) =
      (evening [whisperTo "dan" "who", whisperTo "bob" "later"]).filter (!·.isWhisper) := by
    unfold evening
    rw [List.filter_append, List.filter_append]
    exact congrArg (· ++ _)
      ((filter_dusk (by decide +kernel)).trans (filter_dusk (by decide +kernel)).symm)
  have hsame := hprompt _ _ hfilter
  obtain ⟨_, hregistry, hcommon, _, hsent⟩ := hruns loud quiet hsame
  have hsilent : ∀ x ∈ standardLeft.history .initial loud ++ standardLeft.history .initial quiet,
      x.isOvert = false → x.sentTo ⟨.v4 10 0 0 9, 2⟩ = [] := by
    decide +kernel
  have hfind : ((standardLeft.history .initial loud).find?
      (fun x => !x.isOvert && x.taken?.isSome)).map
      (fun x => (x.taken?, (x.before.registry.plan (whisperTo "bob" "now")).targets)) =
      some (some (whisperTo "bob" "now"), [⟨.v4 10 0 0 9, 1⟩]) := by
    decide +kernel
  obtain ⟨x, hx, hfound⟩ := Option.map_eq_some_iff.mp hfind
  obtain ⟨htaken, htargets⟩ := Prod.mk.inj hfound
  have hcovert : x.isOvert = false := by
    have := List.find?_some hx
    simp_all
  obtain ⟨_, _, hpass⟩ := (hwhispers loud).2 x (List.mem_of_find?_eq_some hx) hcovert
  obtain ⟨_, _, hleads, _⟩ := hpass _ htaken
  -- The good-bye has come in, and is about to be passed on.
  have hbye : (⟨.calm, hearsFrom 3 (whisperTo "bob" "bye")⟩ : Turn).isWhisper = true := by
    decide +kernel
  have hpoint : Turn.overt [] (loud.take 7) = Turn.overt [] (quiet.take 9) :=
    (Turn.overt_concat_of_isWhisper (Turn.promptly (dusk [whisperTo "bob" "now"])) hbye).trans
      ((hprompt _ _ hdusk).trans (Turn.overt_concat_of_isWhisper _ hbye).symm)
  obtain ⟨_, _, hattempts⟩ := hcommon (loud.take 7) (quiet.take 9) ⟨.calm, .dispatch⟩
    ⟨.calm, .dispatch⟩ (loud.drop 8) (quiet.drop 10) (whisperTo "bob" "bye") rfl rfl hpoint
    (by decide +kernel) (by decide +kernel)
  exact ⟨hsame, hsent _ hsilent, by decide +kernel, by decide +kernel,
    hregistry _ _ (List.prefix_refl _) (List.prefix_refl _) hsame,
    ⟨x, List.mem_of_find?_eq_some hx, htaken, htargets ▸ hleads⟩,
    by decide +kernel, by decide +kernel, hattempts rfl⟩

end Secret

end Node

end ChatRelay
