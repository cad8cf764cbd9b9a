import ChatRelay.Proofs.Schedule

namespace ChatRelay

def warnings (text : String) (log : List Event) : Nat :=
  log.countP fun x => x.level = .warn ∧ x.message = text

theorem warnings_append (text : String) (log log' : List Event) :
    warnings text (log ++ log') = warnings text log + warnings text log' :=
  List.countP_append

theorem warnings_of_quiet {log : List Event} (h : ∀ x ∈ log, x.level ≠ .warn) (text : String) :
    warnings text log = 0 := by
  unfold warnings
  rw [List.countP_eq_zero]
  intro x hx hw
  exact h x hx (of_decide_eq_true hw).1

def Attempt.succeeded (a : Attempt) : Bool := a.outcome.isOk

/-- What a node tries to send in a moment for the message that it takes from its queue. -/
def Moment.relays (x : Moment) : List Attempt :=
  match x.turn.step with
  | .dispatch => x.output.attempts
  | .ingest .. | .sync _ => []

def Moment.due (x : Moment) : Nat :=
  match x.taken? with
  | none => 0
  | some m =>
    match Datagram.encode m with
    | .error _ => 0
    | .ok _ => (x.before.registry.plan m).targets.length

/-- The roster that a node pushes to a neighbor in a moment, if a datagram can hold it, and what
becomes of it. A node without a name pushes none. -/
def Node.push? (n : Node) (x : Moment) : Option Attempt :=
  match x.turn.step with
  | .ingest .. | .dispatch => none
  | .sync side =>
    match n.topology.neighbor? side n.position, x.before.registry.neighbor side with
    | some _, some c =>
      if n.name = "" then none
      else
        match Datagram.encode (n.rosterMessage side c.id x.before.registry.clientIds) with
        | .ok d => some ⟨c.address, d, x.turn.surroundings.send c.address⟩
        | .error _ => none
    | _, _ => none

/-- The counters and the log agree with what was tried. -/
structure Moment.Booked (n : Node) (x : Moment) : Prop where
  received : x.after.counters.received = x.before.counters.received +
    (x.turn.step.arrival?.toList.length + warnings "dropping datagram" x.output.log)
  malformed : x.after.counters.malformed =
    x.before.counters.malformed + warnings "dropping datagram" x.output.log
  missed : x.after.counters.routingMisses =
    x.before.counters.routingMisses + warnings "message dropped" x.output.log
  sent : x.after.counters.datagramsSent =
    x.before.counters.datagramsSent + x.output.attempts.countP Attempt.succeeded
  failed : x.after.counters.sendFailures =
    x.before.counters.sendFailures + x.output.attempts.countP (!·.succeeded)
  told : x.after.counters.syncsSent =
    x.before.counters.syncsSent + (n.push? x).toList.countP Attempt.succeeded
  attempts : x.output.attempts = x.relays ++ (n.push? x).toList
  due : x.relays.length = x.due
  unsent : warnings "relay send failed" x.output.log = x.relays.countP (!·.succeeded)
  unsynced : warnings "roster sync failed" x.output.log =
    (n.push? x).toList.countP (!·.succeeded)

theorem Moment.due_of_encode {x : Moment} {m : Message} {d : List UInt8} (h : x.taken? = some m)
    (hd : Datagram.encode m = .ok d) : x.due = (x.before.registry.plan m).targets.length := by
  unfold due
  rw [h]
  dsimp only
  rw [hd]

theorem Moment.due_of_error {x : Moment} {m : Message} {cause : ProtocolError}
    (h : x.taken? = some m) (hd : Datagram.encode m = .error cause) : x.due = 0 := by
  unfold due
  rw [h]
  dsimp only
  rw [hd]

namespace Node

variable (n : Node) (e : Surroundings) {s : State}

theorem foldl_countAttempt (attempts : List Attempt) (c : Counters) :
    attempts.foldl countAttempt c =
      { c with
        datagramsSent := c.datagramsSent + attempts.countP Attempt.succeeded
        sendFailures := c.sendFailures + attempts.countP (!·.succeeded) } := by
  induction attempts generalizing c with
  | nil => rfl
  | cons a attempts ih =>
    obtain ⟨target, d, outcome⟩ := a
    rw [List.foldl_cons, ih]
    cases outcome with
    | ok _ =>
      simp [countAttempt, List.countP_cons, Attempt.succeeded, Except.isOk, Except.toBool]
      omega
    | error reason =>
      simp [countAttempt, Attempt.succeeded, Except.isOk, Except.toBool]
      omega

theorem warnings_attemptEvents {text : String} (h : text ≠ "relay send failed")
    (attempts : List Attempt) : warnings text (attempts.flatMap attemptEvents) = 0 := by
  unfold warnings
  rw [List.countP_eq_zero]
  intro x hx hw
  obtain ⟨a, _, hx⟩ := List.mem_flatMap.mp hx
  unfold attemptEvents at hx
  split at hx
  · cases hx
  · cases List.mem_singleton.mp hx
    exact h (of_decide_eq_true hw).2.symm

/-- There is one warning for each datagram that did not get away. -/
theorem unsent_attemptEvents (attempts : List Attempt) :
    warnings "relay send failed" (attempts.flatMap attemptEvents) =
      attempts.countP (!·.succeeded) := by
  induction attempts with
  | nil => rfl
  | cons a attempts ih =>
    obtain ⟨target, d, outcome⟩ := a
    rw [List.flatMap_cons, warnings_append, ih, List.countP_cons, Nat.add_comm]
    cases outcome <;> rfl

/-- An accepted message is no cause for a warning. -/
theorem warnings_acceptEvents (text : String) (m : Message) (a : Address) :
    warnings text (n.acceptEvents m a) = 0 := by
  apply warnings_of_quiet
  intro x hx
  unfold acceptEvents at hx
  simp only [List.mem_append, List.mem_singleton, List.mem_ite_nil_right] at hx
  rcases hx with (rfl | ⟨_, rfl⟩) | ⟨_, rfl⟩ <;> nofun

theorem warnings_deliver {text : String} (h : text ≠ "secondary delivery failed") (m : Message) :
    warnings text (deliver e m).log = 0 := by
  unfold warnings
  rw [List.countP_eq_zero]
  intro x hx hw
  unfold deliver at hx
  dsimp only at hx
  split at hx
  · cases hx
  · cases List.mem_singleton.mp hx
    exact h (of_decide_eq_true hw).2.symm

/-- What relaying a message may write down. -/
structure Accounted (before after : Counters) (o : Output) : Prop where
  received : after.received = before.received
  malformed : after.malformed = before.malformed
  told : after.syncsSent = before.syncsSent
  missed : after.routingMisses = before.routingMisses + warnings "message dropped" o.log
  sent : after.datagramsSent = before.datagramsSent + o.attempts.countP Attempt.succeeded
  failed : after.sendFailures = before.sendFailures + o.attempts.countP (!·.succeeded)
  unsent : warnings "relay send failed" o.log = o.attempts.countP (!·.succeeded)
  dropped : warnings "dropping datagram" o.log = 0
  unsynced : warnings "roster sync failed" o.log = 0

/-- Whether a message is unwritable, missed or sent, what is counted is what is warned of and tried.
-/
theorem accounted_relay (m : Message) (s : State) :
    Accounted s.counters (relay e m s).1.counters (relay e m s).2 := by
  cases hd : Datagram.encode m with
  | error cause =>
    rw [relay_of_error e s hd]
    constructor <;> simp [warnings, Event.level, Event.message]
  | ok d =>
    by_cases hp : s.registry.plan m = .miss
    · rw [relay_of_miss e hd hp]
      constructor <;> simp [warnings, Event.level, Event.message]
    · obtain ⟨log, hquiet, hrelay⟩ := relay_of_plan e hd hp
      have hcounters : (relay e m s).1.counters =
          (attemptsTo e d (s.registry.plan m).targets).foldl countAttempt s.counters := by
        rw [hrelay]
        rfl
      -- The note about a neighbor is no warning, so only the attempts leave any.
      have hlog : ∀ text, warnings text (relay e m s).2.log =
          warnings text ((relay e m s).2.attempts.flatMap attemptEvents) := by
        intro text
        rw [hrelay, Output.log_append, warnings_append, warnings_of_quiet, Nat.zero_add]
        · rfl
        · intro x hx hw
          rw [hquiet x hx] at hw
          cases hw
      rw [← attempts_relay e s hd, foldl_countAttempt] at hcounters
      constructor
      · rw [hcounters]
      · rw [hcounters]
      · rw [hcounters]
      · rw [hcounters, hlog, warnings_attemptEvents (by decide), Nat.add_zero]
      · rw [hcounters]
      · rw [hcounters]
      · rw [hlog, unsent_attemptEvents]
      · rw [hlog, warnings_attemptEvents (by decide)]
      · rw [hlog, warnings_attemptEvents (by decide)]

/-- What relaying writes down, a moment of dispatching writes down. -/
theorem booked_pass {m : Message} {queue : List Message} (hq : s.queue = m :: queue) :
    Moment.Booked n ⟨⟨e, .dispatch⟩, s, (relay e m { s with queue := queue }).1,
      (relay e m { s with queue := queue }).2 ++ deliver e m⟩ := by
  have h := accounted_relay e m { s with queue := queue }
  have hattempts : ((relay e m { s with queue := queue }).2 ++ deliver e m).attempts =
      (relay e m { s with queue := queue }).2.attempts := List.append_nil _
  have hlog : ∀ text, text ≠ "secondary delivery failed" →
      warnings text ((relay e m { s with queue := queue }).2 ++ deliver e m).log =
        warnings text (relay e m { s with queue := queue }).2.log := by
    intro text htext
    rw [Output.log_append, warnings_append, warnings_deliver e htext, Nat.add_zero]
  constructor <;> dsimp only [Moment.relays, push?]
  case received =>
    rw [hlog _ (by decide), h.dropped, h.received]
    rfl
  case malformed => rw [hlog _ (by decide), h.dropped, h.malformed, Nat.add_zero]
  case missed => rw [hlog _ (by decide), h.missed]
  case sent => rw [hattempts, h.sent]
  case failed => rw [hattempts, h.failed]
  case told => exact h.told
  case attempts => exact (List.append_nil _).symm
  case unsent => rw [hlog _ (by decide), hattempts, h.unsent]
  case unsynced => rw [hlog _ (by decide), h.unsynced]; rfl
  case due =>
    have htaken : ∀ after output, Moment.taken? ⟨⟨e, .dispatch⟩, s, after, output⟩ = some m :=
      fun _ _ => congrArg List.head? hq
    rw [hattempts]
    cases hd : Datagram.encode m with
    | error cause => rw [attempts_relay_of_error e _ hd, Moment.due_of_error (htaken _ _) hd]; rfl
    | ok d =>
      rw [attempts_relay e _ hd, Moment.due_of_encode (htaken _ _) hd]
      exact List.length_map _

/-- A moment in which nothing is sent and nothing is counted. -/
theorem booked_idle {x : Moment} (hstep : x.turn.step.arrival? = none)
    (hcounters : x.after.counters = x.before.counters) (hattempts : x.output.attempts = [])
    (hlog : ∀ text ∈ ["dropping datagram", "message dropped", "relay send failed",
      "roster sync failed"], warnings text x.output.log = 0)
    (hpush : n.push? x = none) (hdue : x.due = 0) : x.Booked n := by
  have hrelays : x.relays = [] := by
    unfold Moment.relays
    split
    · exact hattempts
    · rfl
    · rfl
  simp only [List.forall_mem_cons, List.not_mem_nil, false_imp_iff, implies_true, and_true] at hlog
  obtain ⟨hdropped, hmissed, hunsent, hunsynced⟩ := hlog
  constructor
  · rw [hcounters, hstep, hdropped]
    rfl
  · rw [hcounters, hdropped, Nat.add_zero]
  · rw [hcounters, hmissed, Nat.add_zero]
  · rw [hcounters, hattempts]
    rfl
  · rw [hcounters, hattempts]
    rfl
  · rw [hcounters, hpush]
    rfl
  · rw [hattempts, hrelays, hpush]
    rfl
  · rw [hrelays, hdue]
    rfl
  · rw [hunsent, hrelays]
    rfl
  · rw [hunsynced, hpush]
    rfl

theorem push?_sync (side : Side) (after : State) (o : Output) :
    n.push? ⟨⟨e, .sync side⟩, s, after, o⟩ =
      match n.topology.neighbor? side n.position, s.registry.neighbor side with
      | some _, some c =>
        match n.rosterDatagram side c s.registry with
        | .ok d => some ⟨c.address, d, e.send c.address⟩
        | .error _ => none
      | _, _ => none := by
  unfold push?
  dsimp only
  split
  · rename_i c _ hc
    rw [rosterDatagram_eq]
    split
    · rfl
    · rfl
  · rfl

/-- A roster is no message from the queue: its failure has a warning of its own. -/
theorem booked_push {side : Side} {p : Position} {c : Connection}
    (hp : n.topology.neighbor? side n.position = some p)
    (hc : s.registry.neighbor side = some c) :
    Moment.Booked n ⟨⟨e, .sync side⟩, s, (n.pushRoster e side c s).1,
      (n.pushRoster e side c s).2⟩ := by
  have hpush := n.push?_sync e (s := s) side (n.pushRoster e side c s).1
    (n.pushRoster e side c s).2
  rw [hp, hc] at hpush
  dsimp only at hpush
  unfold pushRoster at hpush ⊢
  cases hd : n.rosterDatagram side c s.registry with
  | error cause =>
    rw [hd] at hpush
    refine n.booked_idle rfl rfl rfl ?_ hpush rfl
    simp [warnings, Event.level, Event.message]
  | ok d =>
    rw [hd] at hpush
    dsimp only at hpush ⊢
    cases he : e.send c.address with
    | ok _ =>
      rw [he] at hpush
      constructor <;> dsimp only [Moment.relays]
      case told => rw [hpush]; rfl
      case attempts => rw [hpush]; rfl
      case unsynced => rw [hpush]; rfl
      all_goals rfl
    | error reason =>
      rw [he] at hpush
      constructor <;> dsimp only [Moment.relays]
      case told => rw [hpush]; rfl
      case attempts => rw [hpush]; rfl
      case unsynced => rw [hpush]; rfl
      all_goals rfl

theorem booked_sync (side : Side) :
    Moment.Booked n ⟨⟨e, .sync side⟩, s, (n.syncSide e side s).1, (n.syncSide e side s).2⟩ := by
  cases hp : n.topology.neighbor? side n.position with
  | none =>
    rw [n.syncSide_of_end e s hp]
    refine n.booked_idle rfl rfl rfl ?_ ?_ rfl
    · simp [warnings]
    · rw [push?_sync, hp]
  | some p =>
    cases hc : s.registry.neighbor side with
    | none =>
      rw [n.syncSide_of_unknown e hp hc]
      obtain ⟨registry, log, hfind, hlog⟩ := n.findNeighbor_quiet e side p s
      rw [hfind]
      refine n.booked_idle rfl rfl rfl ?_ ?_ rfl
      · exact fun text _ => warnings_of_quiet hlog text
      · rw [push?_sync, hp, hc]
    | some c =>
      rw [n.syncSide_of_known e hp hc]
      exact n.booked_push e hp hc

/-- In every moment a node writes down what comes of it. -/
theorem booked_moment (x : Turn) : (n.moment s x).Booked n := by
  refine n.moment_cases s x ?_ ?_ ?_ ?_ ?_
  · intro e a d cause hd
    constructor
    case received => rw [Step.arrival?_of_damage hd]; rfl
    all_goals rfl
  · intro e a d m hd
    have hw := fun text => n.warnings_acceptEvents text m a
    constructor
    case received => rw [Step.arrival?_of_decode hd, hw]; rfl
    case sent | failed | told | attempts | due => rfl
    all_goals rw [hw]; rfl
  · intro e hq
    refine n.booked_idle rfl rfl rfl ?_ rfl ?_
    · simp [warnings]
    · unfold Moment.due Moment.taken?
      dsimp only
      rw [hq]
      rfl
  · exact fun e m queue hq => n.booked_pass e hq
  · exact fun e side => n.booked_sync e side

end Node

end ChatRelay
