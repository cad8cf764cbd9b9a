import ChatRelay.Proofs.Syncing
import Mathlib.Algebra.GroupWithZero.Nat

namespace ChatRelay

/-- A step of a node and what surrounds the node meanwhile. -/
structure Turn where
  surroundings : Surroundings
  step : Step

/-- A turn that has been made: what the node held before and after it, and what it put out. -/
structure Moment where
  turn : Turn
  before : State
  after : State
  output : Output

def Turn.arrivals (turns : List Turn) : List (Address × Message) :=
  ChatRelay.arrivals (turns.map (·.step))

theorem Turn.arrivals_cons (x : Turn) (turns : List Turn) :
    Turn.arrivals (x :: turns) = x.step.arrival?.toList ++ Turn.arrivals turns := by
  unfold Turn.arrivals ChatRelay.arrivals
  cases hx : x.step.arrival? <;> simp [hx]

def relayed (ms : List (Address × Message)) : List Message :=
  (ms.map (·.2)).filter (!·.kind.isSync)

theorem relayed_append (ms ms' : List (Address × Message)) :
    relayed (ms ++ ms') = relayed ms ++ relayed ms' := by
  unfold relayed
  rw [List.map_append, List.filter_append]

theorem relayed_of_sync {a : Address} {m : Message} (h : m.kind.isSync = true) :
    relayed [(a, m)] = [] := by
  simp [relayed, h]

theorem relayed_of_not_sync {a : Address} {m : Message} (h : m.kind.isSync = false) :
    relayed [(a, m)] = [m] := by
  simp [relayed, h]

def Moment.taken? (x : Moment) : Option Message :=
  match x.turn.step with
  | .dispatch => x.before.queue.head?
  | .ingest .. | .sync _ => none

namespace Node

def moment (n : Node) (s : State) (x : Turn) : Moment :=
  let next := n.step x.surroundings s x.step
  ⟨x, s, next.1, next.2⟩

def history (n : Node) (s : State) : List Turn → List Moment
  | [] => []
  | x :: xs => n.moment s x :: n.history (n.moment s x).after xs

/-- What a node holds after some turns, and all that it has put out. -/
def play (n : Node) (s : State) : List Turn → State × Output
  | [] => (s, {})
  | x :: xs =>
    let (s, o) := n.step x.surroundings s x.step
    let (s, p) := n.play s xs
    (s, o ++ p)

def taken (n : Node) (s : State) (turns : List Turn) : List Message :=
  (n.history s turns).filterMap Moment.taken?

variable (n : Node) (s : State)

theorem play_cons (x : Turn) (turns : List Turn) :
    n.play s (x :: turns) = ((n.play (n.moment s x).after turns).1,
      (n.moment s x).output ++ (n.play (n.moment s x).after turns).2) := rfl

/-- Where the surroundings stay the same, a schedule is a run. -/
theorem play_map_mk (e : Surroundings) (steps : List Step) :
    n.play s (steps.map (Turn.mk e)) = n.run e s steps := by
  induction steps generalizing s with
  | nil => rfl
  | cons x steps ih =>
    rw [List.map_cons, play_cons, ih]
    rfl

theorem history_cons (x : Turn) (turns : List Turn) :
    n.history s (x :: turns) = n.moment s x :: n.history (n.moment s x).after turns := rfl

theorem taken_cons (x : Turn) (turns : List Turn) :
    n.taken s (x :: turns) =
      (n.moment s x).taken?.toList ++ n.taken (n.moment s x).after turns := by
  unfold taken
  rw [history_cons]
  cases hx : (n.moment s x).taken? <;> simp [hx]

theorem mem_history {x : Moment} {turns : List Turn} (h : x ∈ n.history s turns) :
    ∃ s t, x = n.moment s t := by
  induction turns generalizing s with
  | nil => cases h
  | cons t turns ih =>
    rcases List.mem_cons.mp h with rfl | h
    · exact ⟨s, t, rfl⟩
    · exact ih _ h

theorem log_play (turns : List Turn) :
    (n.play s turns).2.log = (n.history s turns).flatMap (·.output.log) := by
  induction turns generalizing s with
  | nil => rfl
  | cons x turns ih =>
    rw [play_cons, history_cons, List.flatMap_cons, ← ih]
    rfl

/-- What changes by some amount in every moment changes by the sum of these amounts. -/
theorem sum_history {f : State → Nat} {g : Moment → Nat} (turns : List Turn)
    (h : ∀ s x, f (n.moment s x).after = f s + g (n.moment s x)) :
    f (n.play s turns).1 = f s + ((n.history s turns).map g).sum := by
  induction turns generalizing s with
  | nil => rfl
  | cons x turns ih =>
    rw [play_cons, history_cons, ih, h, List.map_cons, List.sum_cons, Nat.add_assoc]

/-- Every moment is one of these five. -/
@[elab_as_elim]
theorem moment_cases {P : Moment → Prop} (x : Turn)
    (damage : ∀ e a d cause, Datagram.decode d = .error cause →
      P ⟨⟨e, .ingest a d⟩, s, refuse s, { log := [.damaged a cause] }⟩)
    (accept : ∀ e a d m, Datagram.decode d = .ok m →
      P ⟨⟨e, .ingest a d⟩, s, accept m a s, { log := n.acceptEvents m a }⟩)
    (idle : ∀ e, s.queue = [] → P ⟨⟨e, .dispatch⟩, s, s, {}⟩)
    (pass : ∀ e m queue, s.queue = m :: queue →
      P ⟨⟨e, .dispatch⟩, s, (relay e m { s with queue := queue }).1,
        (relay e m { s with queue := queue }).2 ++ deliver e m⟩)
    (sync : ∀ e side, P ⟨⟨e, .sync side⟩, s, (n.syncSide e side s).1, (n.syncSide e side s).2⟩) :
    P (n.moment s x) := by
  obtain ⟨e, step⟩ := x
  cases step with
  | ingest a d =>
    change P ⟨_, s, (n.ingest a d s).1, (n.ingest a d s).2⟩
    cases hd : Datagram.decode d with
    | error cause =>
      rw [n.ingest_of_damage s hd]
      exact damage e a d cause hd
    | ok m =>
      rw [n.ingest_of_decode s hd]
      exact accept e a d m hd
  | dispatch =>
    change P ⟨_, s, (dispatch e s).1, (dispatch e s).2⟩
    cases hq : s.queue with
    | nil =>
      rw [dispatch_nil e hq]
      exact idle e hq
    | cons m queue =>
      rw [dispatch_cons e hq]
      exact pass e m queue hq
  | sync side => exact sync e side

/-- What leaves the queue stood at its front, and what comes in is put at its end. -/
theorem queue_moment (x : Turn) :
    (n.moment s x).taken?.toList ++ (n.moment s x).after.queue =
      s.queue ++ relayed x.step.arrival?.toList := by
  change _ = _ ++ relayed (n.moment s x).turn.step.arrival?.toList
  refine n.moment_cases s x ?_ ?_ ?_ ?_ ?_
  · intro e a d cause hd
    rw [Step.arrival?_of_damage hd]
    exact (List.append_nil _).symm
  · intro e a d m hd
    rw [Step.arrival?_of_decode hd]
    change (accept m a s).queue = s.queue ++ relayed [(a, m)]
    cases hm : m.kind.isSync with
    | true => rw [queue_accept_of_sync a s hm, relayed_of_sync hm, List.append_nil]
    | false => rw [queue_accept a s hm, relayed_of_not_sync hm]
  · intro e hq
    change s.queue.head?.toList ++ s.queue = s.queue ++ []
    rw [hq]
    rfl
  · intro e m queue hq
    change s.queue.head?.toList ++ (relay e m _).1.queue = s.queue ++ []
    rw [queue_relay, hq]
    exact (List.append_nil _).symm
  · intro e side
    change (n.syncSide e side s).1.queue = s.queue ++ []
    rw [(n.syncSide_eq e side s).2.1, List.append_nil]

/-- What has been taken and what still waits is what waited and what has come in, in this order. -/
theorem taken_append_queue (turns : List Turn) :
    n.taken s turns ++ (n.play s turns).1.queue = s.queue ++ relayed (Turn.arrivals turns) := by
  induction turns generalizing s with
  | nil => exact (List.append_nil _).symm
  | cons x turns ih =>
    rw [taken_cons, play_cons, Turn.arrivals_cons, relayed_append, List.append_assoc, ih,
      ← List.append_assoc, queue_moment, List.append_assoc]

/-- The second way out gets each message when it is taken from the queue, whatever becomes of it. -/
theorem secondary_moment (x : Turn) :
    (n.moment s x).output.secondary = (n.moment s x).taken?.toList := by
  refine n.moment_cases s x ?_ ?_ ?_ ?_ ?_
  · intro e a d cause hd
    rfl
  · intro e a d m hd
    rfl
  · intro e hq
    change [] = s.queue.head?.toList
    rw [hq]
    rfl
  · intro e m queue hq
    change (relay e m _).2.secondary ++ [m] = s.queue.head?.toList
    rw [secondary_relay, hq]
    rfl
  · intro e side
    exact n.secondary_syncSide e side s

/-- The second way out gets what is taken from the queue, each message once. -/
theorem secondary_play (turns : List Turn) :
    (n.play s turns).2.secondary = n.taken s turns := by
  induction turns generalizing s with
  | nil => rfl
  | cons x turns ih =>
    rw [play_cons, taken_cons, Output.secondary_append, ih, secondary_moment]

end Node

end ChatRelay
