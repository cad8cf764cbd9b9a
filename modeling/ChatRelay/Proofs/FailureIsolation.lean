import ChatRelay.Proofs.Bookkeeping
import ChatRelay.Proofs.NeighborSlots
import Mathlib.Data.List.Forall2

namespace ChatRelay

def Surroundings.reaches (e : Surroundings) (a : Address) : Bool := (e.send a).isOk

def Surroundings.attempt (e : Surroundings) (x : Address × List UInt8) : Attempt :=
  ⟨x.1, x.2, e.send x.1⟩

theorem Output.sent_of_plan {o : Output} {e : Surroundings} {plan : List (Address × List UInt8)}
    (h : o.attempts = plan.map e.attempt) : o.sent = plan.filter (e.reaches ·.1) := by
  unfold sent
  rw [h, List.filterMap_map, ← List.filterMap_eq_filter]
  congr 1
  funext x
  unfold Surroundings.reaches Option.guard
  dsimp only [Function.comp, Surroundings.attempt]
  split
  · rename_i hsend
    exact (if_pos (congrArg Except.isOk hsend)).symm
  · rename_i hsend
    exact (if_neg (Bool.eq_false_iff.mp (congrArg Except.isOk hsend))).symm

theorem Output.sent_append (o p : Output) : (o ++ p).sent = o.sent ++ p.sent :=
  List.filterMap_append

/-- Turns of the same step under surroundings in which the same names lead to the same hosts. Which
addresses can be sent to and what the second way out says may differ. -/
structure Turn.SameButSends (x y : Turn) : Prop where
  step : x.step = y.step
  lookup : x.surroundings.lookup = y.surroundings.lookup

def Counters.tried (c : Counters) : Nat := c.datagramsSent + c.sendFailures

/-- What the counters write down when `k` datagrams are tried, leaving aside what becomes of them.
-/
structure Counters.Tries (k : Nat) (c c' : Counters) : Prop where
  received : c'.received = c.received
  malformed : c'.malformed = c.malformed
  missed : c'.routingMisses = c.routingMisses
  tried : c'.tried = c.tried + k

namespace Counters.Tries

theorem countAttempt (c : Counters) (a : Attempt) : Tries 1 c (Node.countAttempt c a) := by
  unfold Node.countAttempt
  split
  · exact ⟨rfl, rfl, rfl, Nat.add_right_comm _ 1 _⟩
  · exact ⟨rfl, rfl, rfl, rfl⟩

theorem foldl (attempts : List Attempt) (c : Counters) :
    Tries attempts.length c (attempts.foldl Node.countAttempt c) := by
  induction attempts generalizing c with
  | nil => exact ⟨rfl, rfl, rfl, rfl⟩
  | cons a attempts ih =>
    have hone := countAttempt c a
    have hrest := ih (Node.countAttempt c a)
    refine ⟨hrest.received.trans hone.received, hrest.malformed.trans hone.malformed,
      hrest.missed.trans hone.missed, ?_⟩
    rw [List.foldl_cons, hrest.tried, hone.tried, List.length_cons]
    omega

end Counters.Tries

/-- The same steps under two surroundings that last. -/
theorem Turn.sameButSends_map {e e' : Surroundings} (h : e.lookup = e'.lookup)
    (steps : List Step) :
    List.Forall₂ Turn.SameButSends (steps.map (Turn.mk e)) (steps.map (Turn.mk e')) := by
  rw [List.forall₂_map_left_iff, List.forall₂_map_right_iff]
  exact List.forall₂_same.mpr fun _ _ => ⟨rfl, h⟩

/-- States that tell apart at most which datagrams got away. -/
structure State.SameButSends (s s' : State) : Prop where
  registry : s.registry = s'.registry
  queue : s.queue = s'.queue
  received : s.counters.received = s'.counters.received
  malformed : s.counters.malformed = s'.counters.malformed
  missed : s.counters.routingMisses = s'.counters.routingMisses
  tried : s.counters.tried = s'.counters.tried

namespace State.SameButSends

variable {s s' : State}

theorem refl (s : State) : s.SameButSends s := ⟨rfl, rfl, rfl, rfl, rfl, rfl⟩

/-- As many datagrams tried on both sides make no difference. -/
theorem tries (h : s.SameButSends s') {k : Nat} {c c' : Counters} (hc : s.counters.Tries k c)
    (hc' : s'.counters.Tries k c') :
    State.SameButSends { s with counters := c } { s' with counters := c' } where
  registry := h.registry
  queue := h.queue
  received := hc.received.trans (h.received.trans hc'.received.symm)
  malformed := hc.malformed.trans (h.malformed.trans hc'.malformed.symm)
  missed := hc.missed.trans (h.missed.trans hc'.missed.symm)
  tried := by
    change c.tried = c'.tried
    rw [hc.tried, hc'.tried, h.tried]

end State.SameButSends

namespace Node

/-- The datagrams that a step asks for, in order, each with its target. What surrounds the node has
no say in it. -/
def planned (n : Node) (s : State) : Step → List (Address × List UInt8)
  | .ingest .. => []
  | .dispatch =>
    match s.queue with
    | [] => []
    | m :: _ =>
      match Datagram.encode m with
      | .error _ => []
      | .ok d => (s.registry.plan m).targets.map fun target => (target, d)
  | .sync side => n.pushPlan side s.registry

variable (n : Node) {s s' : State} {e e' : Surroundings}

theorem planned_dispatch {m : Message} {queue : List Message} (hq : s.queue = m :: queue) :
    n.planned s .dispatch =
      match Datagram.encode m with
      | .error _ => []
      | .ok d => (s.registry.plan m).targets.map fun target => (target, d) := by
  unfold planned
  rw [hq]

theorem planned_congr (h : s.SameButSends s') (x : Step) : n.planned s x = n.planned s' x := by
  cases x with
  | ingest a d => rfl
  | dispatch =>
    unfold planned
    rw [h.queue, h.registry]
  | sync side => exact congrArg (n.pushPlan side) h.registry

/-- A node tries to send what its step asks for, each datagram whatever becomes of the others. -/
theorem attempts_moment (x : Turn) :
    (n.moment s x).output.attempts = (n.planned s x.step).map x.surroundings.attempt := by
  refine n.moment_cases
    (P := fun x => x.output.attempts =
      (n.planned x.before x.turn.step).map x.turn.surroundings.attempt) s x ?_ ?_ ?_ ?_ ?_
  · exact fun e a d cause hd => rfl
  · exact fun e a d m hd => rfl
  · intro e hq
    dsimp only [planned]
    rw [hq]
    rfl
  · intro e m queue hq
    dsimp only
    rw [n.planned_dispatch hq, Output.attempts_append]
    change _ ++ [] = _
    rw [List.append_nil]
    cases hd : Datagram.encode m with
    | error cause =>
      rw [attempts_relay_of_error e _ hd]
      rfl
    | ok d =>
      rw [attempts_relay e _ hd, List.map_map]
      rfl
  · exact fun e side => n.attempts_of_pushPlan e side s

theorem sameButSends_ingest (h : s.SameButSends s') (a : Address) (d : List UInt8) :
    (n.ingest a d s).1.SameButSends (n.ingest a d s').1 := by
  cases hd : Datagram.decode d with
  | error cause =>
    rw [n.ingest_of_damage s hd, n.ingest_of_damage s' hd]
    exact ⟨h.registry, h.queue, congrArg (· + 1) h.received, congrArg (· + 1) h.malformed,
      h.missed, h.tried⟩
  | ok m =>
    rw [n.ingest_of_decode s hd, n.ingest_of_decode s' hd]
    refine ⟨congrArg (·.receive m a) h.registry, ?_, congrArg (· + 1) h.received, h.malformed,
      h.missed, h.tried⟩
    unfold accept
    rw [h.queue]

/-- What could not be sent is counted all the same. -/
theorem sameButSends_sendAll (h : s.SameButSends s') (d : List UInt8) (targets : List Address) :
    (sendAll e d targets s).1.SameButSends (sendAll e' d targets s').1 := by
  have htries (e : Surroundings) (c : Counters) : Counters.Tries targets.length c
      ((attemptsTo e d targets).foldl countAttempt c) := by
    have hfold := Counters.Tries.foldl (attemptsTo e d targets) c
    rw [show (attemptsTo e d targets).length = targets.length from List.length_map _] at hfold
    exact hfold
  exact h.tries (htries e _) (htries e' _)

/-- The plan of a message does not depend on which targets can be sent to. -/
theorem sameButSends_relay (h : s.SameButSends s') (m : Message) :
    (relay e m s).1.SameButSends (relay e' m s').1 := by
  cases hd : Datagram.encode m with
  | error cause =>
    rw [relay_of_error e s hd, relay_of_error e' s' hd]
    exact h
  | ok d =>
    by_cases hp : s.registry.plan m = .miss
    · rw [relay_of_miss e hd hp, relay_of_miss e' hd (h.registry ▸ hp)]
      exact ⟨h.registry, h.queue, h.received, h.malformed, congrArg (· + 1) h.missed, h.tried⟩
    · obtain ⟨_, _, hrelay⟩ := relay_of_plan e hd hp
      obtain ⟨_, _, hrelay'⟩ := relay_of_plan e' (s := s') hd (h.registry ▸ hp)
      rw [hrelay, hrelay', ← h.registry]
      exact sameButSends_sendAll h d _

theorem sameButSends_dispatch (h : s.SameButSends s') :
    (dispatch e s).1.SameButSends (dispatch e' s').1 := by
  cases hq : s.queue with
  | nil =>
    rw [dispatch_nil e hq, dispatch_nil e' (h.queue ▸ hq)]
    exact h
  | cons m queue =>
    rw [dispatch_cons e hq, dispatch_cons e' (h.queue ▸ hq)]
    have hrest : State.SameButSends { s with queue := queue } { s' with queue := queue } :=
      ⟨h.registry, rfl, h.received, h.malformed, h.missed, h.tried⟩
    exact sameButSends_relay hrest m

/-- A roster is one datagram to try, if any can hold it. -/
theorem tries_pushRoster (side : Side) (c : Connection) {s : State} {d : List UInt8}
    (hd : n.rosterDatagram side c s.registry = .ok d) :
    ∃ counters, (n.pushRoster e side c s).1 = { s with counters := counters } ∧
      s.counters.Tries 1 counters := by
  have hone := Counters.Tries.countAttempt s.counters ⟨c.address, d, e.send c.address⟩
  unfold pushRoster
  rw [hd]
  dsimp only
  split
  · exact ⟨_, rfl, hone.received, hone.malformed, hone.missed, hone.tried⟩
  · exact ⟨_, rfl, hone⟩

theorem sameButSends_pushRoster (h : s.SameButSends s') (side : Side) (c : Connection) :
    (n.pushRoster e side c s).1.SameButSends (n.pushRoster e' side c s').1 := by
  cases hd : n.rosterDatagram side c s.registry with
  | error cause =>
    have hd' := h.registry ▸ hd
    unfold pushRoster
    rw [hd, hd']
    exact h
  | ok d =>
    obtain ⟨_, hpush, htries⟩ := n.tries_pushRoster (e := e) side c hd
    obtain ⟨_, hpush', htries'⟩ := n.tries_pushRoster (e := e') (s := s') side c (h.registry ▸ hd)
    rw [hpush, hpush']
    exact h.tries htries htries'

/-- A search depends on the names only. -/
theorem sameButSends_syncSide (h : s.SameButSends s') (hlookup : e.lookup = e'.lookup)
    (side : Side) : (n.syncSide e side s).1.SameButSends (n.syncSide e' side s').1 := by
  rw [syncSide_row, syncSide_row, ← h.registry, ← hlookup]
  cases n.row? side with
  | none => exact h
  | some row =>
    cases s.registry.neighbor side with
    | some c => exact n.sameButSends_pushRoster h side c
    | none =>
      dsimp only
      cases row.find e.lookup with
      | ok c => exact ⟨rfl, h.queue, h.received, h.malformed, h.missed, h.tried⟩
      | error cause => exact ⟨rfl, h.queue, h.received, h.malformed, h.missed, h.tried⟩

theorem sameButSends_after {x y : Turn} (h : x.SameButSends y) (hs : s.SameButSends s') :
    (n.moment s x).after.SameButSends (n.moment s' y).after := by
  obtain ⟨e, step⟩ := x
  obtain ⟨e', step'⟩ := y
  have hstep : step = step' := h.step
  subst hstep
  cases step with
  | ingest a d => exact n.sameButSends_ingest hs a d
  | dispatch => exact sameButSends_dispatch hs
  | sync side => exact n.sameButSends_syncSide hs h.lookup side

end Node

namespace Moment

def reached (n : Node) (x : Moment) : List (Address × List UInt8) :=
  (n.planned x.before x.turn.step).filter (x.turn.surroundings.reaches ·.1)

def unreached (n : Node) (x : Moment) : List (Address × List UInt8) :=
  (n.planned x.before x.turn.step).filter (!x.turn.surroundings.reaches ·.1)

/-- Moments that tell apart at most which datagrams got away. -/
structure SameButSends (n : Node) (x y : Moment) : Prop where
  turn : x.turn.SameButSends y.turn
  before : x.before.SameButSends y.before
  after : x.after.SameButSends y.after
  planned : n.planned x.before x.turn.step = n.planned y.before y.turn.step
  taken : x.taken? = y.taken?
  secondary : x.output.secondary = y.output.secondary

/-- Of what a moment asks for, all that can be sent gets away in order, and all the rest is counted
as failed. The second way out gets the message of the moment whatever becomes of its datagrams. -/
structure SentAsPlanned (n : Node) (x : Moment) : Prop where
  attempts : x.output.attempts = (n.planned x.before x.turn.step).map x.turn.surroundings.attempt
  sent : x.output.sent = x.reached n
  delivered : x.after.counters.datagramsSent =
    x.before.counters.datagramsSent + (x.reached n).length
  failed : x.after.counters.sendFailures =
    x.before.counters.sendFailures + (x.unreached n).length
  secondary : x.output.secondary = x.taken?.toList

end Moment

namespace Node

variable (n : Node) {s s' : State}

theorem sentAsPlanned_moment (s : State) (x : Turn) : (n.moment s x).SentAsPlanned n := by
  have hattempts := n.attempts_moment (s := s) x
  have hsent := Output.sent_of_plan hattempts
  have hbooked := n.booked_moment (s := s) x
  refine ⟨hattempts, hsent, ?_, ?_, n.secondary_moment s x⟩
  · rw [hbooked.sent, hattempts, List.countP_map, List.countP_eq_length_filter]
    rfl
  · rw [hbooked.failed, hattempts, List.countP_map, List.countP_eq_length_filter]
    rfl

theorem sameButSends_moment {x y : Turn} (h : x.SameButSends y) (hs : s.SameButSends s') :
    (n.moment s x).SameButSends n (n.moment s' y) := by
  have htaken : (n.moment s x).taken? = (n.moment s' y).taken? := by
    unfold Moment.taken? moment
    dsimp only
    rw [h.step, hs.queue]
  refine ⟨h, hs, n.sameButSends_after h hs, ?_, htaken, ?_⟩
  · exact (congrArg (n.planned s) h.step).trans (n.planned_congr hs y.step)
  · rw [secondary_moment, secondary_moment, htaken]

/-- Runs of the same steps stay alike, whichever datagrams get away in each of them. -/
theorem sameButSends_history {turns turns' : List Turn}
    (h : List.Forall₂ Turn.SameButSends turns turns') (hs : s.SameButSends s') :
    List.Forall₂ (Moment.SameButSends n) (n.history s turns) (n.history s' turns') := by
  induction h generalizing s s' with
  | nil => exact .nil
  | cons hx _ ih =>
    have hmoment := n.sameButSends_moment hx hs
    exact .cons hmoment (ih hmoment.after)

/-- Runs of the same steps stay alike, but for which datagrams get away. -/
theorem sameButSends_play {turns turns' : List Turn}
    (h : List.Forall₂ Turn.SameButSends turns turns') (hs : s.SameButSends s') :
    (n.play s turns).1.SameButSends (n.play s' turns').1 ∧
      (n.play s turns).2.secondary = (n.play s' turns').2.secondary := by
  induction h generalizing s s' with
  | nil => exact ⟨hs, rfl⟩
  | cons hx _ ih =>
    have hmoment := n.sameButSends_moment hx hs
    obtain ⟨hafter, hsecondary⟩ := ih hmoment.after
    refine ⟨hafter, ?_⟩
    rw [play_cons, play_cons, Output.secondary_append, Output.secondary_append, hsecondary,
      hmoment.secondary]

theorem sent_play (s : State) (turns : List Turn) :
    (n.play s turns).2.sent = (n.history s turns).flatMap (·.reached n) := by
  induction turns generalizing s with
  | nil => rfl
  | cons x turns ih =>
    rw [play_cons, history_cons, List.flatMap_cons, ← ih, Output.sent_append,
      (n.sentAsPlanned_moment s x).sent]

theorem datagramsSent_play (s : State) (turns : List Turn) :
    (n.play s turns).1.counters.datagramsSent =
      s.counters.datagramsSent + (n.play s turns).2.sent.length := by
  rw [sent_play, List.length_flatMap]
  exact n.sum_history (f := (·.counters.datagramsSent)) s turns
    fun s x => (n.sentAsPlanned_moment s x).delivered

theorem sendFailures_play (s : State) (turns : List Turn) :
    (n.play s turns).1.counters.sendFailures =
      s.counters.sendFailures + ((n.history s turns).flatMap (·.unreached n)).length := by
  rw [List.length_flatMap]
  exact n.sum_history (f := (·.counters.sendFailures)) s turns
    fun s x => (n.sentAsPlanned_moment s x).failed

/-- Two runs of the same steps, in which other datagrams get away and the second way out says other
things. In each moment the node knows and counts the same in both, the datagrams sent and failed
taken together; it asks for the same datagrams and hands on the same messages. In any run just what
can be sent gets away, in the order in which it was asked for, and the rest counts as failed. The
message of a moment is handed to the second way out whether its plan leads nowhere, nothing could be
sent or no datagram can hold it. -/
theorem failures_isolated (n : Node) {turns turns' : List Turn}
    (h : List.Forall₂ Turn.SameButSends turns turns') :
    List.Forall₂ (Moment.SameButSends n) (n.history .initial turns)
      (n.history .initial turns') ∧
    (n.play .initial turns).1.SameButSends (n.play .initial turns').1 ∧
    (n.play .initial turns).2.secondary = (n.play .initial turns').2.secondary ∧
    ∀ run : List Turn,
      let past := n.history .initial run
      let s := (n.play .initial run).1
      let o := (n.play .initial run).2
      (∀ x ∈ past, x.SentAsPlanned n) ∧
      o.sent = past.flatMap (·.reached n) ∧
      s.counters.datagramsSent = o.sent.length ∧
      s.counters.sendFailures = (past.flatMap (·.unreached n)).length ∧
      o.secondary ++ s.queue = relayed (Turn.arrivals run) := by
  obtain ⟨hstate, hsecondary⟩ := n.sameButSends_play h (.refl .initial)
  refine ⟨n.sameButSends_history h (.refl .initial), hstate, hsecondary, ?_⟩
  intro run past s o
  refine ⟨?_, n.sent_play _ run, ?_, ?_, ?_⟩
  · intro x hx
    obtain ⟨s', t, rfl⟩ := n.mem_history _ hx
    exact n.sentAsPlanned_moment s' t
  · exact (n.datagramsSent_play .initial run).trans (Nat.zero_add _)
  · exact (n.sendFailures_play .initial run).trans (Nat.zero_add _)
  · change (n.play .initial run).2.secondary ++ _ = _
    rw [secondary_play]
    exact n.taken_append_queue .initial run

section Storm

/-- Nothing gets through to the first client, and the second way out is closed. -/
def storm : Surroundings :=
  ⟨fun a => if a.port = 1 then .error "unreachable" else .ok (), Surroundings.calm.lookup,
    ⟨"bluetooth", fun _ => .error (.io "closed")⟩⟩

def posted (port : UInt16) (m : Message) : List Step :=
  [.ingest ⟨.v4 10 0 0 9, port⟩ (Datagram.frame m.json), .dispatch]

/-- Two clients come, and a third one writes to all of them and to someone who is not there. -/
def gathering : List Step :=
  posted 1 ⟨.connect, "bob", Message.everyone, .text ""⟩ ++
    posted 2 ⟨.connect, "ann", Message.everyone, .text ""⟩ ++
    posted 3 ⟨.chat, "eve", Message.everyone, .text "hi"⟩ ++
    posted 3 ⟨.privateMessage, "eve", "dan", .text "hi"⟩

/-- In the storm the second client hears of the message to all as ever, and all four messages are
handed to the second way out. -/
theorem failures_isolated_storm :
    let n : Node := ⟨"left", ⟨0⟩, .standard⟩
    let calm := gathering.map (Turn.mk .calm)
    let rough := gathering.map (Turn.mk storm)
    (n.play .initial calm).1.counters = ⟨4, 0, 3, 0, 1, 0⟩ ∧
      (n.play .initial rough).1.counters = ⟨4, 0, 1, 2, 1, 0⟩ ∧
      (n.play .initial calm).1.SameButSends (n.play .initial rough).1 ∧
      (n.play .initial rough).2.sent.map (·.1) = [⟨.v4 10 0 0 9, 2⟩] ∧
      (n.play .initial rough).2.secondary = relayed (Turn.arrivals rough) ∧
      (n.play .initial rough).2.secondary.length = 4 := by
  intro n calm rough
  have hcalm : (n.play .initial calm).1.counters = ⟨4, 0, 3, 0, 1, 0⟩ := by decide +kernel
  have hrough : (n.play .initial rough).1.counters = ⟨4, 0, 1, 2, 1, 0⟩ := by decide +kernel
  have hqueue : (n.play .initial rough).1.queue = [] := by decide +kernel
  have hlookup : Surroundings.calm.lookup = storm.lookup := rfl
  obtain ⟨_, hstate, _, hrun⟩ := failures_isolated n (Turn.sameButSends_map hlookup gathering)
  obtain ⟨_, _, _, _, hsecondary⟩ := hrun rough
  rw [hqueue, List.append_nil] at hsecondary
  refine ⟨hcalm, hrough, hstate, by decide +kernel, hsecondary, by decide +kernel⟩

end Storm

end Node

end ChatRelay
