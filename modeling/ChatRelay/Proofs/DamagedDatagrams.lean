import ChatRelay.Proofs.Bookkeeping
import ChatRelay.Proofs.ClientCourses
import ChatRelay.Proofs.Interleaving
import Mathlib.Data.List.Forall2

namespace ChatRelay

def Datagram.isDamaged (d : List UInt8) : Bool := !(decode d).isOk

theorem Datagram.isDamaged_iff {d : List UInt8} :
    isDamaged d = true ↔ ∃ cause, decode d = .error cause := by
  unfold isDamaged
  cases decode d <;> simp [Except.isOk, Except.toBool]

/-- The warning of a datagram that holds no message. -/
def Event.isDamage (x : Event) : Bool := x.level = .warn ∧ x.message = "dropping datagram"

namespace Turn

def isDamaged (x : Turn) : Bool :=
  match x.step with
  | .ingest _ d => Datagram.isDamaged d
  | .dispatch | .sync _ => false

/-- The turns without those that bring a damaged datagram. -/
def intact (turns : List Turn) : List Turn := turns.filter (!·.isDamaged)

theorem intact_of_isDamaged {x : Turn} (h : x.isDamaged = true) (turns : List Turn) :
    intact (x :: turns) = intact turns :=
  List.filter_cons_of_neg (by simp [h])

theorem intact_of_not_isDamaged {x : Turn} (h : ¬ x.isDamaged = true) (turns : List Turn) :
    intact (x :: turns) = x :: intact turns :=
  List.filter_cons_of_pos (by simp [h])

end Turn

namespace ChatClient.Act

def isDamaged : Act → Bool
  | push d => Datagram.isDamaged d
  | call _ | poll => false

def intact (acts : List Act) : List Act := acts.filter (!·.isDamaged)

end ChatClient.Act

def Counters.refusing (k : Nat) (c : Counters) : Counters :=
  { c with received := c.received + k, malformed := c.malformed + k }

/-- The same, but for some more datagrams that have been refused. -/
def State.refusing (k : Nat) (s : State) : State := { s with counters := s.counters.refusing k }

def Moment.refusing (k : Nat) (x : Moment) : Moment :=
  { x with before := x.before.refusing k, after := x.after.refusing k }

/-- The same but for the warnings of damaged datagrams, of which the second tells none. -/
structure Output.SameButDamage (o p : Output) : Prop where
  attempts : o.attempts = p.attempts
  secondary : o.secondary = p.secondary
  log : o.log.filter (!·.isDamage) = p.log

section Refusing

variable {k l : Nat}

@[simp] theorem State.registry_refusing (s : State) : (s.refusing k).registry = s.registry := rfl

@[simp] theorem State.queue_refusing (s : State) : (s.refusing k).queue = s.queue := rfl

theorem State.refusing_refusing (s : State) : (s.refusing k).refusing l = s.refusing (k + l) := by
  simp [refusing, Counters.refusing, Nat.add_assoc]

@[simp] theorem Moment.after_refusing (x : Moment) :
    (x.refusing k).after = x.after.refusing k := rfl

@[simp] theorem Moment.output_refusing (x : Moment) : (x.refusing k).output = x.output := rfl

theorem Moment.refusing_refusing (x : Moment) :
    (x.refusing k).refusing l = x.refusing (k + l) := by
  simp [refusing, State.refusing_refusing]

end Refusing

namespace Output.SameButDamage

variable {o o' p p' : Output}

theorem append (h : o.SameButDamage p) (h' : o'.SameButDamage p') :
    (o ++ o').SameButDamage (p ++ p') where
  attempts := by rw [attempts_append, attempts_append, h.attempts, h'.attempts]
  secondary := by rw [secondary_append, secondary_append, h.secondary, h'.secondary]
  log := by rw [log_append, log_append, List.filter_append, h.log, h'.log]

theorem of_forall_mem (h : ∀ x ∈ o.log, x.isDamage = false) : o.SameButDamage o where
  attempts := rfl
  secondary := rfl
  log := List.filter_eq_self.mpr fun x hx => by simp [h x hx]

end Output.SameButDamage

namespace Node

/-- What is done does not depend on how many datagrams have been refused. -/
def Blind (f : State → State × Output) : Prop :=
  ∀ k s, f (s.refusing k) = ((f s).1.refusing k, (f s).2)

section Steps

variable (n : Node) (e : Surroundings)

theorem countAttempt_refusing (k : Nat) (c : Counters) (a : Attempt) :
    countAttempt (c.refusing k) a = (countAttempt c a).refusing k := by
  unfold countAttempt
  split <;> rfl

theorem blind_ingest (a : Address) (d : List UInt8) : Blind (n.ingest a d) := by
  intro k s
  cases hd : Datagram.decode d with
  | error cause =>
    rw [n.ingest_of_damage _ hd, n.ingest_of_damage _ hd]
    simp [refuse, State.refusing, Counters.refusing, Nat.add_right_comm]
  | ok m =>
    rw [n.ingest_of_decode _ hd, n.ingest_of_decode _ hd]
    simp [accept, State.refusing, Counters.refusing, Nat.add_right_comm]

theorem blind_sendAll (d : List UInt8) (targets : List Address) : Blind (sendAll e d targets) := by
  intro k s
  have hcount : ∀ attempts : List Attempt, attempts.foldl countAttempt (s.counters.refusing k) =
      (attempts.foldl countAttempt s.counters).refusing k := fun attempts =>
    List.foldl_hom (Counters.refusing k) fun c a => countAttempt_refusing k c a
  simp [sendAll, State.refusing, hcount]

theorem blind_relay (m : Message) : Blind (relay e m) := by
  intro k s
  unfold relay
  cases Datagram.encode m with
  | error cause => rfl
  | ok d =>
    dsimp only [State.registry_refusing]
    cases s.registry.plan m with
    | miss => rfl
    | neighbor side target => simp only [blind_sendAll e d [target] k s]
    | broadcast targets => exact blind_sendAll e d _ k s
    | here target => exact blind_sendAll e d _ k s

theorem blind_dispatch : Blind (dispatch e) := by
  intro k s
  cases hq : s.queue with
  | nil => rw [dispatch_nil e hq, dispatch_nil e ((s.queue_refusing).trans hq)]
  | cons m queue =>
    rw [dispatch_cons e hq, dispatch_cons e ((s.queue_refusing).trans hq)]
    have h := blind_relay e m k { s with queue := queue }
    change relay e m { s.refusing k with queue := queue } = _ at h
    rw [h]

theorem blind_findNeighbor (side : Side) (p : Position) : Blind (n.findNeighbor e side p) := by
  intro k s
  unfold findNeighbor
  dsimp only
  split <;> rfl

theorem blind_pushRoster (side : Side) (c : Connection) : Blind (n.pushRoster e side c) := by
  intro k s
  unfold pushRoster
  dsimp only [State.registry_refusing]
  cases n.rosterDatagram side c s.registry with
  | error cause => rfl
  | ok d =>
    dsimp only
    cases e.send c.address <;> rfl

theorem blind_syncSide (side : Side) : Blind (n.syncSide e side) := by
  intro k s
  unfold syncSide
  dsimp only [State.registry_refusing]
  cases n.topology.neighbor? side n.position with
  | none => rfl
  | some p =>
    cases s.registry.neighbor side with
    | none => exact n.blind_findNeighbor e side p k s
    | some c => exact n.blind_pushRoster e side c k s

theorem blind_step (x : Step) : Blind fun s => n.step e s x := by
  cases x with
  | ingest a d => exact n.blind_ingest a d
  | dispatch => exact blind_dispatch e
  | sync side => exact n.blind_syncSide e side

end Steps

section Turns

variable (n : Node) (s : State)

theorem moment_refusing (k : Nat) (x : Turn) :
    n.moment (s.refusing k) x = (n.moment s x).refusing k := by
  have h := n.blind_step x.surroundings x.step k s
  dsimp only at h
  simp only [moment, Moment.refusing, h]

theorem history_refusing (k : Nat) (turns : List Turn) :
    n.history (s.refusing k) turns = (n.history s turns).map (Moment.refusing k) := by
  induction turns generalizing s with
  | nil => rfl
  | cons x turns ih =>
    rw [history_cons, history_cons, List.map_cons, moment_refusing, Moment.after_refusing, ih]

theorem play_refusing (k : Nat) (turns : List Turn) :
    n.play (s.refusing k) turns = ((n.play s turns).1.refusing k, (n.play s turns).2) := by
  induction turns generalizing s with
  | nil => rfl
  | cons x turns ih =>
    rw [play_cons, play_cons, moment_refusing, Moment.after_refusing, Moment.output_refusing, ih]

/-- A damaged datagram is counted and warned of, and nothing else comes of it. -/
theorem moment_of_isDamaged {x : Turn} (h : x.isDamaged = true) :
    ∃ e a d cause, Datagram.decode d = .error cause ∧ n.moment s x =
      ⟨⟨e, .ingest a d⟩, s, s.refusing 1, { log := [.damaged a cause] }⟩ := by
  change (n.moment s x).turn.isDamaged = true at h
  revert h
  refine n.moment_cases s x ?_ ?_ ?_ ?_ ?_
  · intro e a d cause hd _
    exact ⟨e, a, d, cause, hd, rfl⟩
  · intro e a d m hd h
    obtain ⟨cause, hcause⟩ := Datagram.isDamaged_iff.mp h
    cases hd.symm.trans hcause
  · intro e _ h
    cases h
  · intro e m queue _ h
    cases h
  · intro e side h
    cases h

/-- Behind a damaged datagram all goes on as if it had not come in. -/
theorem play_of_isDamaged {x : Turn} (h : x.isDamaged = true) (turns : List Turn) :
    ∃ a cause, n.play s (x :: turns) = ((n.play s turns).1.refusing 1,
      { log := [.damaged a cause] } ++ (n.play s turns).2) := by
  obtain ⟨_, a, _, cause, _, hmoment⟩ := n.moment_of_isDamaged s h
  refine ⟨a, cause, ?_⟩
  rw [play_cons, hmoment, play_refusing]

/-- Only of damaged datagrams it is told that they are dropped. -/
theorem not_isDamage_of_mem_log {x : Turn} (h : x.isDamaged = false) :
    ∀ w ∈ (n.moment s x).output.log, w.isDamage = false := by
  change (n.moment s x).turn.isDamaged = false at h
  revert h
  refine n.moment_cases s x ?_ ?_ ?_ ?_ ?_
  · intro e a d cause hd h
    exact absurd (Datagram.isDamaged_iff.mpr ⟨cause, hd⟩) (Bool.eq_false_iff.mp h)
  · intro e a d m _ _ w hw
    apply Bool.eq_false_iff.mpr
    exact List.countP_eq_zero.mp (n.warnings_acceptEvents "dropping datagram" m a) w hw
  · intro e _ _ w hw
    cases hw
  · intro e m queue _ _ w hw
    rcases List.mem_append.mp hw with hw | hw
    · rcases mem_log_relay e hw with ⟨_, rfl, _⟩ | rfl | ⟨_, rfl⟩ | ⟨_, _, rfl⟩ <;> rfl
    · obtain ⟨_, rfl⟩ := mem_log_deliver e hw
      rfl
  · intro e side _ w hw
    rcases n.mem_log_syncSide e hw with ⟨_, rfl⟩ | ⟨_, rfl⟩ | ⟨_, _, rfl⟩ | ⟨_, rfl⟩ <;> rfl

/-- The moments of the turns without damaged datagrams are those in which none comes in. -/
theorem forall₂_history_intact (turns : List Turn) :
    List.Forall₂ (fun x y => ∃ k, x = y.refusing k)
      ((n.history s turns).filter (!·.turn.isDamaged)) (n.history s (Turn.intact turns)) := by
  induction turns generalizing s with
  | nil => exact .nil
  | cons x turns ih =>
    have hturn : (n.moment s x).turn.isDamaged = x.isDamaged := rfl
    by_cases hx : x.isDamaged = true
    · obtain ⟨_, _, _, _, _, hmoment⟩ := n.moment_of_isDamaged s hx
      rw [Turn.intact_of_isDamaged hx, history_cons, List.filter_cons_of_neg (by simp [hturn, hx]),
        hmoment, history_refusing, List.filter_map]
      apply List.forall₂_map_left_iff.mpr
      refine (ih s).imp fun x y hxy => ?_
      obtain ⟨k, rfl⟩ := hxy
      exact ⟨k + 1, y.refusing_refusing⟩
    · rw [Turn.intact_of_not_isDamaged hx, history_cons, history_cons,
        List.filter_cons_of_pos (by simp [hturn, hx])]
      exact .cons ⟨0, rfl⟩ (ih _)

/-- What a node holds after some turns, every damaged datagram being counted. -/
theorem play_intact (turns : List Turn) :
    (n.play s turns).1 =
      (n.play s (Turn.intact turns)).1.refusing (turns.countP Turn.isDamaged) := by
  induction turns generalizing s with
  | nil => rfl
  | cons x turns ih =>
    by_cases hx : x.isDamaged = true
    · obtain ⟨_, _, hplay⟩ := n.play_of_isDamaged s hx turns
      rw [hplay, Turn.intact_of_isDamaged hx, List.countP_cons_of_pos hx, ih,
        State.refusing_refusing]
    · rw [Turn.intact_of_not_isDamaged hx, List.countP_cons_of_neg hx]
      exact ih _

theorem sameButDamage_play_intact (turns : List Turn) :
    (n.play s turns).2.SameButDamage (n.play s (Turn.intact turns)).2 := by
  induction turns generalizing s with
  | nil => exact ⟨rfl, rfl, rfl⟩
  | cons x turns ih =>
    by_cases hx : x.isDamaged = true
    · obtain ⟨a, cause, hplay⟩ := n.play_of_isDamaged s hx turns
      have hwarning : Output.SameButDamage { log := [.damaged a cause] } {} := ⟨rfl, rfl, rfl⟩
      rw [hplay, Turn.intact_of_isDamaged hx]
      exact hwarning.append (ih s)
    · have hquiet := n.not_isDamage_of_mem_log s (Bool.eq_false_iff.mpr hx)
      rw [Turn.intact_of_not_isDamaged hx, play_cons, play_cons]
      exact (Output.SameButDamage.of_forall_mem hquiet).append (ih _)

/-- Every damaged datagram is warned of once. -/
theorem dropped_play (turns : List Turn) :
    warnings "dropping datagram" (n.play s turns).2.log = turns.countP Turn.isDamaged := by
  induction turns generalizing s with
  | nil => rfl
  | cons x turns ih =>
    by_cases hx : x.isDamaged = true
    · obtain ⟨a, cause, hplay⟩ := n.play_of_isDamaged s hx turns
      rw [hplay, Output.log_append, warnings_append, ih, List.countP_cons_of_pos hx, Nat.add_comm]
      rfl
    · have hquiet : warnings "dropping datagram" (n.moment s x).output.log = 0 := by
        apply List.countP_eq_zero.mpr
        intro w hw
        exact Bool.eq_false_iff.mp (n.not_isDamage_of_mem_log s (Bool.eq_false_iff.mpr hx) w hw)
      rw [play_cons, Output.log_append, warnings_append, hquiet, ih, Nat.zero_add,
        List.countP_cons_of_neg hx]

end Turns

end Node

namespace ClientCourse

open ChatClient

theorem act_of_isDamaged (send : Address → Except String Unit) (s : ClientCourse) {a : Act}
    (h : a.isDamaged = true) : s.act send a = s := by
  cases a with
  | call x => cases h
  | poll => cases h
  | push d =>
    obtain ⟨cause, hd⟩ := Datagram.isDamaged_iff.mp h
    simp [act, receive, hd]

/-- Damaged datagrams leave no trace at a client. -/
theorem run_intact (send : Address → Except String Unit) (s : ClientCourse) (acts : List Act) :
    s.run send (Act.intact acts) = s.run send acts := by
  induction acts generalizing s with
  | nil => rfl
  | cons a acts ih =>
    by_cases ha : a.isDamaged = true
    · have hact : s.run send (a :: acts) = s.run send acts :=
        congrArg (run send · acts) (act_of_isDamaged send s ha)
      rw [hact, Act.intact, List.filter_cons_of_neg (by simp [ha])]
      exact ih s
    · rw [Act.intact, List.filter_cons_of_pos (by simp [ha])]
      exact ih _

end ClientCourse

namespace Datagram

variable {d text : List UInt8} {m : Message}

theorem decode_of_flaw (hp : payload d = .ok text) (hm : Message.ofJson text = .ok m)
    {flaw : Message.Flaw} (hf : m.flaw? = some flaw) :
    decode d = .error (.malformed (.flawed flaw)) := by
  simp [decode, read, hp, hm, Message.checked, hf, bind, Except.bind, Except.mapError]

/-- A message without a source, or with a body that does not go with its kind, breaks a rule. -/
theorem exists_flaw (h : m.source = "" ∨ m.roster?.isSome ≠ m.kind.isSync) :
    ∃ flaw, m.flaw? = some flaw := by
  obtain ⟨kind, source, destination, body⟩ := m
  by_cases hs : source = ""
  · exact ⟨.emptySource, if_pos hs⟩
  · cases body <;> cases kind <;>
      simp_all [Message.flaw?, Message.roster?, Message.Kind.carriesRoster, Message.Kind.isSync]

end Datagram

/-- Datagrams that hold no message leave no trace but their count and one warning each. Without them
every other turn finds the node with what it held, leaves it with what it then held, and puts out
what it put out; only the counts of what came in and of what was malformed are lower, by their
number. What a client sends and what it gets is the same with and without them. A datagram whose
text can be read is one of them nevertheless, if its source is empty or its body does not go with
its kind. -/
theorem damage_leaves_no_trace :
    (∀ (n : Node) (s : State) (turns : List Turn),
      List.Forall₂ (fun x y => ∃ k, x = y.refusing k)
        ((n.history s turns).filter (!·.turn.isDamaged)) (n.history s (Turn.intact turns)) ∧
      (n.play s turns).1 =
        (n.play s (Turn.intact turns)).1.refusing (turns.countP Turn.isDamaged) ∧
      (n.play s turns).2.SameButDamage (n.play s (Turn.intact turns)).2 ∧
      warnings "dropping datagram" (n.play s turns).2.log = turns.countP Turn.isDamaged ∧
      ∀ x ∈ n.history s turns, x.turn.isDamaged = true → ∃ a d cause,
        x.turn.step = .ingest a d ∧ Datagram.decode d = .error cause ∧
        x.after = x.before.refusing 1 ∧ x.output = { log := [.damaged a cause] }) ∧
    (∀ (send : Address → Except String Unit) (s : ClientCourse) (acts : List ChatClient.Act),
      s.run send (ChatClient.Act.intact acts) = s.run send acts) ∧
    ∀ d text m, Datagram.payload d = .ok text → Message.ofJson text = .ok m →
      (m.source = "" ∨ m.roster?.isSome ≠ m.kind.isSync) →
      ∃ flaw, m.flaw? = some flaw ∧ Datagram.decode d = .error (.malformed (.flawed flaw)) := by
  refine ⟨fun n s turns => ⟨n.forall₂_history_intact s turns, n.play_intact s turns,
    n.sameButDamage_play_intact s turns, n.dropped_play s turns, ?_⟩,
    ClientCourse.run_intact, ?_⟩
  · intro x hx hdamaged
    obtain ⟨s', y, rfl⟩ := n.mem_history s hx
    have hy : y.isDamaged = true := hdamaged
    obtain ⟨e, a, d, cause, hd, hmoment⟩ := n.moment_of_isDamaged s' hy
    rw [hmoment]
    exact ⟨a, d, cause, rfl, hd, rfl, rfl⟩
  · intro d text m hp hm hbroken
    obtain ⟨flaw, hflaw⟩ := Datagram.exists_flaw hbroken
    exact ⟨flaw, hflaw, Datagram.decode_of_flaw hp hm hflaw⟩

section Noise

open Node Message

def mumbled : Message := ⟨.syncLeft, "middle", "left", .text "bob"⟩

/-- Someone comes and is spoken to between a stray octet, words of nobody and what is no roster. -/
def noise : List Turn :=
  [hears ⟨.connect, "bob", everyone, .text ""⟩, .ingest ⟨.v4 10 0 0 7, 7⟩ [1], .dispatch,
    hears ⟨.chat, "", everyone, .text "hi"⟩, hears ⟨.chat, "ann", everyone, .text "hi"⟩,
    hears mumbled, .sync .right, .dispatch].map (Turn.mk .calm)

/-- All that the noise leaves is three warnings and a count of three. -/
theorem damage_leaves_no_trace_noise :
    (standardLeft.play .initial noise).1 =
        (standardLeft.play .initial (Turn.intact noise)).1.refusing 3 ∧
      (standardLeft.play .initial noise).2.attempts =
        (standardLeft.play .initial (Turn.intact noise)).2.attempts ∧
      warnings "dropping datagram" (standardLeft.play .initial noise).2.log = 3 ∧
      (∃ flaw, Datagram.decode (Datagram.frame mumbled.json) =
        .error (.malformed (.flawed flaw))) ∧
      let s := ClientCourse.start ⟨⟨.v4 10 0 0 9, 9⟩, "bob", 1, []⟩ [1]
      s.run Surroundings.calm.send [.push [1], .push (Datagram.frame mumbled.json), .poll] =
        s.run Surroundings.calm.send [.poll] := by
  obtain ⟨hnode, hclient, hflawed⟩ := damage_leaves_no_trace
  obtain ⟨_, hplay, houtput, hwarnings, _⟩ := hnode standardLeft .initial noise
  have hcount : noise.countP Turn.isDamaged = 3 := by decide +kernel
  rw [hcount] at hplay hwarnings
  have hpayload : Datagram.payload (Datagram.frame mumbled.json) = .ok mumbled.json :=
    Datagram.payload_frame (by decide +kernel)
  obtain ⟨flaw, _, hdecode⟩ := hflawed _ _ _ hpayload (ofJson_json _) (.inr (by decide))
  have hintact : ChatClient.Act.intact
      [.push [1], .push (Datagram.frame mumbled.json), .poll] = [.poll] := by
    decide +kernel
  refine ⟨hplay, houtput.attempts, hwarnings, ⟨flaw, hdecode⟩, ?_⟩
  intro s
  rw [← hclient, hintact]

end Noise

end ChatRelay
