import ChatRelay.Proofs.Bookkeeping
import ChatRelay.Proofs.Routing
import Mathlib.Algebra.BigOperators.Group.List.Basic
import Mathlib.Logic.ExistsUnique

namespace ChatRelay

/-- A warning that is not about the second way out. -/
def Event.isRelayWarning (x : Event) : Bool :=
  x.level = .warn ∧ x.message ≠ "secondary delivery failed"

/-- What can become of a message that is no broadcast. -/
inductive Fate where
  | sent (target : Address) (datagram : List UInt8)
  | unsent (target : Address) (datagram : List UInt8) (reason : String)
  | missed
  | unwritable (cause : ProtocolError)

namespace Fate

/-- The datagram of a message that gets as far as to be sent. -/
def attempts : Fate → List Attempt
  | sent target d => [⟨target, d, .ok ()⟩]
  | unsent target d reason => [⟨target, d, .error reason⟩]
  | missed | unwritable _ => []

/-- One counter goes up, or none. -/
def counted (c : Counters) : Fate → Counters
  | sent .. => { c with datagramsSent := c.datagramsSent + 1 }
  | unsent .. => { c with sendFailures := c.sendFailures + 1 }
  | missed => { c with routingMisses := c.routingMisses + 1 }
  | unwritable _ => c

/-- Whatever goes wrong is worth one warning. -/
def warnings (m : Message) : Fate → List Event
  | sent .. => []
  | unsent target _ reason => [.unsent target reason]
  | missed => [.missed m.destination m.source]
  | unwritable cause => [.unwritable cause]

/-- This became of the message of a moment. -/
structure Befalls (f : Fate) (m : Message) (x : Moment) : Prop where
  due : x.due = f.attempts.length
  attempts : x.output.attempts = f.attempts
  counters : x.after.counters = f.counted x.before.counters
  warnings : x.output.log.filter Event.isRelayWarning = f.warnings m

theorem Befalls.unique {f f' : Fate} {m : Message} {x : Moment} (h : f.Befalls m x)
    (h' : f'.Befalls m x) : f' = f := by
  have ha := h'.attempts.symm.trans h.attempts
  have hw := h'.warnings.symm.trans h.warnings
  cases f <;> cases f' <;> simp_all [Fate.attempts, Fate.warnings]

end Fate

namespace Node

variable (n : Node) (s : State)

theorem filter_deliver (e : Surroundings) (m : Message) :
    (deliver e m).log.filter Event.isRelayWarning = [] := by
  rw [List.filter_eq_nil_iff]
  intro x hx hw
  unfold deliver at hx
  dsimp only at hx
  split at hx
  · cases hx
  · cases List.mem_singleton.mp hx
    exact (of_decide_eq_true hw).2 rfl

theorem filter_debug {log : List Event} (h : ∀ x ∈ log, x.level = .debug) :
    log.filter Event.isRelayWarning = [] := by
  rw [List.filter_eq_nil_iff]
  intro x hx hw
  have hwarn := (of_decide_eq_true hw).1
  rw [h x hx] at hwarn
  cases hwarn

/-- One of the four fates befalls a message that is relayed to someone. -/
theorem exists_fate_relay (e : Surroundings) {m : Message} {s : State}
    (hb : m.isBroadcast = false) :
    ∃ f : Fate, (relay e m s).2.attempts = f.attempts ∧
      (relay e m s).1.counters = f.counted s.counters ∧
      (relay e m s).2.log.filter Event.isRelayWarning = f.warnings m := by
  cases hd : Datagram.encode m with
  | error cause =>
    rw [relay_of_error e s hd]
    exact ⟨.unwritable cause, rfl, rfl, rfl⟩
  | ok d =>
    rcases Registry.targets_of_unicast (r := s.registry) hb with hp | ⟨a, hp, ha⟩
    · rw [relay_of_miss e hd hp]
      exact ⟨.missed, rfl, rfl, rfl⟩
    · obtain ⟨log, hlog, hrelay⟩ := relay_of_plan e hd hp
      rw [hrelay, ha, Output.attempts_append, Output.log_append, List.filter_append,
        filter_debug hlog]
      cases he : e.send a with
      | ok _ =>
        refine ⟨.sent a d, ?_⟩
        simp only [sendAll, List.map_cons, List.map_nil, he]
        exact ⟨rfl, rfl, rfl⟩
      | error reason =>
        refine ⟨.unsent a d reason, ?_⟩
        simp only [sendAll, List.map_cons, List.map_nil, he]
        exact ⟨rfl, rfl, rfl⟩

/-- No message meets two fates, and none meets no fate. -/
theorem fate_moment (x : Turn) {m : Message} (h : (n.moment s x).taken? = some m)
    (hb : m.isBroadcast = false) : ∃! f : Fate, f.Befalls m (n.moment s x) := by
  revert h
  refine n.moment_cases s x ?_ ?_ ?_ ?_ ?_
  · exact fun e a d cause hd h => nomatch h
  · exact fun e a d m hd h => nomatch h
  · intro e hq h
    change s.queue.head? = some m at h
    rw [hq] at h
    cases h
  · intro e m' queue hq h
    change s.queue.head? = some m at h
    rw [hq] at h
    cases h
    obtain ⟨f, ha, hc, hw⟩ := exists_fate_relay e (s := { s with queue := queue }) hb
    have hattempts : ((relay e m { s with queue := queue }).2 ++ deliver e m).attempts =
        f.attempts := (List.append_nil _).trans ha
    have hf : f.Befalls m ⟨⟨e, .dispatch⟩, s, (relay e m { s with queue := queue }).1,
        (relay e m { s with queue := queue }).2 ++ deliver e m⟩ := by
      refine ⟨?_, hattempts, hc, ?_⟩
      · rw [← (n.booked_pass e hq).due]
        exact congrArg List.length hattempts
      · rw [Output.log_append, List.filter_append, filter_deliver, List.append_nil, hw]
    exact ⟨f, hf, fun f' h' => hf.unique h'⟩
  · exact fun e side h => nomatch h

/-- The roster pushes of some turns that a datagram could hold. -/
def pushes (turns : List Turn) : List Attempt :=
  (n.history s turns).flatMap fun x => (n.push? x).toList

theorem warnings_play (text : String) (turns : List Turn) :
    warnings text (n.play s turns).2.log =
      ((n.history s turns).map fun x => warnings text x.output.log).sum := by
  rw [log_play]
  exact List.countP_flatMap

theorem malformed_play (turns : List Turn) :
    (n.play s turns).1.counters.malformed =
      s.counters.malformed + warnings "dropping datagram" (n.play s turns).2.log := by
  rw [warnings_play]
  exact n.sum_history (f := (·.counters.malformed)) s turns
    fun s x => (n.booked_moment (s := s) x).malformed

theorem missed_play (turns : List Turn) :
    (n.play s turns).1.counters.routingMisses =
      s.counters.routingMisses + warnings "message dropped" (n.play s turns).2.log := by
  rw [warnings_play]
  exact n.sum_history (f := (·.counters.routingMisses)) s turns
    fun s x => (n.booked_moment (s := s) x).missed

theorem length_arrivals (turns : List Turn) :
    (Turn.arrivals turns).length =
      ((n.history s turns).map fun x => x.turn.step.arrival?.toList.length).sum := by
  induction turns generalizing s with
  | nil => rfl
  | cons x turns ih =>
    rw [Turn.arrivals_cons, history_cons, List.length_append, List.map_cons, List.sum_cons,
      ih (n.moment s x).after]
    rfl

/-- Every datagram that comes in holds a message or is dropped with a warning. -/
theorem received_play (turns : List Turn) :
    (n.play s turns).1.counters.received = s.counters.received +
      ((Turn.arrivals turns).length + warnings "dropping datagram" (n.play s turns).2.log) := by
  rw [warnings_play, n.length_arrivals s, ← List.sum_map_add]
  exact n.sum_history (f := (·.counters.received)) s turns
    fun s x => (n.booked_moment (s := s) x).received

/-- Every roster that got away is counted once. -/
theorem told_play (turns : List Turn) :
    (n.play s turns).1.counters.syncsSent =
      s.counters.syncsSent + (n.pushes s turns).countP Attempt.succeeded := by
  unfold pushes
  rw [List.countP_flatMap]
  exact n.sum_history (f := (·.counters.syncsSent)) s turns
    fun s x => (n.booked_moment (s := s) x).told

/-- What is tried in a moment counts as sent or as failed. -/
theorem tried_moment (x : Turn) :
    (n.moment s x).after.counters.datagramsSent + (n.moment s x).after.counters.sendFailures =
      s.counters.datagramsSent + s.counters.sendFailures +
        ((n.moment s x).due + (n.push? (n.moment s x)).toList.length) := by
  have h := n.booked_moment (s := s) x
  have hlength := congrArg List.length h.attempts
  rw [List.length_append, h.due, List.length_eq_countP_add_countP Attempt.succeeded] at hlength
  have hnot : (n.moment s x).output.attempts.countP (fun a => decide ¬a.succeeded = true) =
      (n.moment s x).output.attempts.countP (!·.succeeded) :=
    List.countP_congr fun a _ => by simp
  have hsent : (n.moment s x).after.counters.datagramsSent = s.counters.datagramsSent + _ :=
    h.sent
  have hfailed : (n.moment s x).after.counters.sendFailures = s.counters.sendFailures + _ :=
    h.failed
  omega

/-- What was sent or failed adds up to what the messages asked for and the rosters pushed. -/
theorem tried_play (turns : List Turn) :
    (n.play s turns).1.counters.datagramsSent + (n.play s turns).1.counters.sendFailures =
      s.counters.datagramsSent + s.counters.sendFailures +
        (((n.history s turns).map Moment.due).sum + (n.pushes s turns).length) := by
  unfold pushes
  rw [List.length_flatMap, ← List.sum_map_add]
  exact n.sum_history (f := fun s => s.counters.datagramsSent + s.counters.sendFailures) s turns
    n.tried_moment

theorem unsent_play (turns : List Turn) :
    warnings "relay send failed" (n.play s turns).2.log =
      ((n.history s turns).flatMap Moment.relays).countP (!·.succeeded) := by
  rw [warnings_play, List.countP_flatMap]
  congr 1
  apply List.map_congr_left
  intro x hx
  obtain ⟨s', t, rfl⟩ := n.mem_history s hx
  exact (n.booked_moment t).unsent

theorem unsynced_play (turns : List Turn) :
    warnings "roster sync failed" (n.play s turns).2.log =
      (n.pushes s turns).countP (!·.succeeded) := by
  unfold pushes
  rw [warnings_play, List.countP_flatMap]
  congr 1
  apply List.map_congr_left
  intro x hx
  obtain ⟨s', t, rfl⟩ := n.mem_history s hx
  exact (n.booked_moment t).unsynced

/-- Each datagram that did not get away held a message or a roster. -/
theorem failed_play (turns : List Turn) :
    (n.play s turns).1.counters.sendFailures = s.counters.sendFailures +
      (((n.history s turns).flatMap Moment.relays).countP (!·.succeeded) +
        (n.pushes s turns).countP (!·.succeeded)) := by
  unfold pushes
  rw [List.countP_flatMap, List.countP_flatMap, ← List.sum_map_add]
  refine n.sum_history (f := (·.counters.sendFailures)) s turns fun s x => ?_
  have h := n.booked_moment (s := s) x
  have hattempts := h.attempts ▸ h.failed
  rw [List.countP_append] at hattempts
  exact hattempts

/-- Each message that comes in is a sync or has to be passed on. -/
theorem length_arrivals_eq (ms : List (Address × Message)) :
    ms.length = ms.countP (·.2.kind.isSync) + (relayed ms).length := by
  induction ms with
  | nil => rfl
  | cons x ms ih =>
    obtain ⟨a, m⟩ := x
    change ms.length + 1 = _ + (relayed ([(a, m)] ++ ms)).length
    rw [relayed_append, List.length_append, List.countP_cons]
    cases hm : m.kind.isSync with
    | true =>
      rw [relayed_of_sync hm, ih]
      simp
      omega
    | false =>
      rw [relayed_of_not_sync hm, ih]
      simp
      omega

/-- A broadcast asks for one datagram for each session but those of its sender. -/
theorem due_of_broadcast {x : Moment} {m : Message} {d : List UInt8} (h : x.taken? = some m)
    (hb : m.isBroadcast = true) (hd : Datagram.encode m = .ok d) :
    x.due = (x.before.registry.clients.filter (·.id ≠ m.source)).length := by
  rw [Moment.due_of_encode h hd, Registry.plan_broadcast hb]
  exact List.length_map _

theorem push?_of_taken {x : Turn} {m : Message} (h : (n.moment s x).taken? = some m) :
    n.push? (n.moment s x) = none := by
  obtain ⟨e, step⟩ := x
  cases step with
  | ingest a d => rfl
  | dispatch => rfl
  | sync side => cases h

/-- What has come in was dropped, told of a neighbor's clients, was handed on, or still waits. -/
theorem received_balance (n : Node) (turns : List Turn) :
    (n.play .initial turns).1.counters.received =
      (n.play .initial turns).1.counters.malformed +
        (Turn.arrivals turns).countP (·.2.kind.isSync) +
        (n.play .initial turns).2.secondary.length +
        (n.play .initial turns).1.queue.length := by
  have hin := (n.received_play .initial turns).trans (Nat.zero_add _)
  have hmalformed := (n.malformed_play .initial turns).trans (Nat.zero_add _)
  -- Whatever came in and is no sync has been taken or still waits.
  have hqueue := congrArg List.length (n.taken_append_queue .initial turns)
  have hkinds := length_arrivals_eq (Turn.arrivals turns)
  rw [← n.secondary_play, List.length_append] at hqueue
  change _ + _ = (relayed (Turn.arrivals turns)).length at hqueue
  omega

/-- After any run of a node from its start: each datagram that came in was dropped, told of a
neighbor's clients, or was handed to the second way out, unless it still waits; each message to
someone met one of four fates, and each broadcast that a datagram can hold was tried with every
session but the sender's; what was sent or failed is what these asked for and the rosters pushed,
and each thing that went wrong has left one warning. -/
theorem ledger_balances (n : Node) (turns : List Turn) :
    let past := n.history .initial turns
    let s := (n.play .initial turns).1
    let o := (n.play .initial turns).2
    let syncs := (Turn.arrivals turns).countP (·.2.kind.isSync)
    s.counters.received =
      s.counters.malformed + syncs + o.secondary.length + s.queue.length ∧
    (s.queue = [] → s.counters.received = s.counters.malformed + syncs + o.secondary.length) ∧
    past.filterMap Moment.taken? ++ s.queue = relayed (Turn.arrivals turns) ∧
    (∀ x ∈ past, ∀ m, x.taken? = some m →
      (m.isBroadcast = false → ∃! f : Fate, f.Befalls m x) ∧
      (m.isBroadcast = true → ∀ d, Datagram.encode m = .ok d →
        x.due = (x.before.registry.clients.filter (·.id ≠ m.source)).length ∧
        x.after.counters.datagramsSent + x.after.counters.sendFailures =
          x.before.counters.datagramsSent + x.before.counters.sendFailures + x.due)) ∧
    s.counters.datagramsSent + s.counters.sendFailures =
      (past.map Moment.due).sum + (n.pushes .initial turns).length ∧
    s.counters.syncsSent = (n.pushes .initial turns).countP Attempt.succeeded ∧
    warnings "dropping datagram" o.log = s.counters.malformed ∧
    warnings "message dropped" o.log = s.counters.routingMisses ∧
    warnings "relay send failed" o.log =
      (past.flatMap Moment.relays).countP (!·.succeeded) ∧
    warnings "roster sync failed" o.log =
      (n.pushes .initial turns).countP (!·.succeeded) ∧
    s.counters.sendFailures =
      warnings "relay send failed" o.log + warnings "roster sync failed" o.log := by
  have hmalformed := (n.malformed_play .initial turns).trans (Nat.zero_add _)
  have hmissed := (n.missed_play .initial turns).trans (Nat.zero_add _)
  have htold := (n.told_play .initial turns).trans (Nat.zero_add _)
  have htried := (n.tried_play .initial turns).trans (Nat.zero_add _)
  have hfailed := (n.failed_play .initial turns).trans (Nat.zero_add _)
  refine ⟨n.received_balance turns, ?_, n.taken_append_queue .initial turns, ?_, htried, htold,
    hmalformed.symm, hmissed.symm, n.unsent_play _ turns, n.unsynced_play _ turns, ?_⟩
  · intro hq
    rw [n.received_balance turns, hq]
    rfl
  · intro x hx m hm
    obtain ⟨s', t, rfl⟩ := n.mem_history _ hx
    refine ⟨n.fate_moment s' t hm, fun hb d hd => ⟨due_of_broadcast hm hb hd, ?_⟩⟩
    have hcount := n.tried_moment s' t
    rw [n.push?_of_taken s' hm] at hcount
    exact hcount
  · rw [hfailed, n.unsent_play, n.unsynced_play]

section Errands

def brings (a : Address) (m : Message) : Turn :=
  ⟨.calm, .ingest a (Datagram.frame m.json)⟩

def bobsAddress : Address := ⟨.v4 10 0 0 9, 9⟩

def annsAddress : Address := ⟨.v4 10 0 0 7, 7⟩

def gale : Surroundings := { Surroundings.calm with send := fun _ => .error "down" }

def annComes : Message := ⟨.connect, "ann", Message.everyone, .text ""⟩

def letterTo (destination : String) : Message := ⟨.privateMessage, "ann", destination, .text "hi"⟩

/-- The neighbor on the right is found, bob comes, and then ann, of whom bob is told. Two rosters go
to the neighbor, of which one is lost, and two letters to bob, of which one is lost. A third letter
is for someone who is not there. The neighbor tells of nobody, and the last datagram is empty. -/
def errands : List Turn :=
  [⟨.calm, .sync .right⟩,
    brings bobsAddress ⟨.connect, "bob", Message.everyone, .text ""⟩, ⟨.calm, .dispatch⟩,
    brings annsAddress annComes, ⟨.calm, .dispatch⟩,
    ⟨.calm, .sync .right⟩, ⟨gale, .sync .right⟩,
    brings annsAddress (letterTo "bob"), ⟨.calm, .dispatch⟩,
    brings annsAddress (letterTo "bob"), ⟨gale, .dispatch⟩,
    brings annsAddress (letterTo "eve"), ⟨.calm, .dispatch⟩,
    brings ⟨.v4 127 0 0 1, 8081⟩ ⟨.syncLeft, "middle", "left", .roster []⟩,
    ⟨.calm, .ingest annsAddress []⟩]

/-- Of seven datagrams one is malformed, one tells of clients and five are handed on. Bob is told of
ann and gets one letter, and the neighbor gets one roster; one letter and one roster are lost, and
one letter is missed. -/
theorem ledger_balances_errands :
    let n : Node := ⟨"left", ⟨0⟩, .standard⟩
    let past := n.history .initial errands
    let s := (n.play .initial errands).1
    let o := (n.play .initial errands).2
    s.queue = [] ∧ s.counters = ⟨7, 1, 3, 2, 1, 1⟩ ∧
      (Turn.arrivals errands).countP (·.2.kind.isSync) = 1 ∧ o.secondary.length = 5 ∧
      warnings "dropping datagram" o.log = 1 ∧ warnings "message dropped" o.log = 1 ∧
      warnings "relay send failed" o.log = 1 ∧ warnings "roster sync failed" o.log = 1 ∧
      (past.map Moment.due).sum = 3 ∧ (n.pushes .initial errands).length = 2 ∧
      (∃ x ∈ past, x.taken? = some annComes ∧ x.due = 1) ∧
      ∃ x ∈ past, x.taken? = some (letterTo "eve") ∧ ∃! f : Fate, f.Befalls (letterTo "eve") x := by
  intro n past s o
  have hqueue : s.queue = [] := by decide +kernel
  have hcounters : s.counters = ⟨7, 1, 3, 2, 1, 1⟩ := by decide +kernel
  have hsyncs : (Turn.arrivals errands).countP (·.2.kind.isSync) = 1 := by decide +kernel
  have hpushes : (n.pushes .initial errands).map Attempt.succeeded = [true, false] := by
    decide +kernel
  obtain ⟨_, hreceived, hwaiting, hfate, hsent, _, hdropped, hmissed, _, hunsynced, hfailed⟩ :=
    ledger_balances n errands
  have hin : s.counters.received = s.counters.malformed +
      (Turn.arrivals errands).countP (·.2.kind.isSync) + o.secondary.length := hreceived hqueue
  have hsent : s.counters.datagramsSent + s.counters.sendFailures =
      (past.map Moment.due).sum + (n.pushes .initial errands).length := hsent
  have hfailed : s.counters.sendFailures =
      warnings "relay send failed" o.log + warnings "roster sync failed" o.log := hfailed
  have hrosters : (n.pushes .initial errands).length = 2 := by
    rw [← List.length_map (f := Attempt.succeeded), hpushes]
    rfl
  have hlost : warnings "roster sync failed" o.log = 1 := by
    rw [hunsynced]
    decide +kernel
  simp only [hcounters, hsyncs, hrosters, hlost] at hin hsent hfailed
  -- Whatever came in and does not wait has been taken in some moment.
  have hmoment : ∀ m ∈ relayed (Turn.arrivals errands), ∃ x ∈ past, x.taken? = some m := by
    rw [← hwaiting, hqueue, List.append_nil]
    exact fun m hm => List.mem_filterMap.mp hm
  obtain ⟨x, hx, harrival⟩ := hmoment annComes (by decide +kernel)
  obtain ⟨y, hy, hletter⟩ := hmoment (letterTo "eve") (by decide +kernel)
  have hbob : ∀ x ∈ past, x.taken? = some annComes →
      (x.before.registry.clients.filter (·.id ≠ annComes.source)).length = 1 := by
    decide +kernel
  have hdue := ((hfate x hx annComes harrival).2 rfl _
    (Datagram.encode_eq_ok.mpr ⟨by decide, rfl⟩)).1
  exact ⟨hqueue, hcounters, hsyncs, by omega,
    hdropped.trans (congrArg _ hcounters),
    hmissed.trans (congrArg _ hcounters), by omega, hlost, by omega, hrosters,
    ⟨x, hx, harrival, hdue.trans (hbob x hx harrival)⟩,
    y, hy, hletter, (hfate y hy _ hletter).1 rfl⟩

end Errands

end Node

end ChatRelay
