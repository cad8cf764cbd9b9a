import ChatRelay.Proofs.Schedule

namespace ChatRelay

def Step.isIngest : Step → Bool
  | .ingest .. => true
  | .dispatch | .sync _ => false

namespace Turn

/-- The turns in which datagrams come in, without all else that the node does. -/
def intake (turns : List Turn) : List Turn :=
  turns.filter (·.step.isIngest)

/-- Leaving all else out changes nothing about which messages come in. -/
theorem arrivals_intake (turns : List Turn) : arrivals (intake turns) = arrivals turns := by
  induction turns with
  | nil => rfl
  | cons x turns ih =>
    obtain ⟨e, step⟩ := x
    cases step with
    | ingest a d =>
      change arrivals (⟨e, .ingest a d⟩ :: intake turns) = _
      rw [arrivals_cons, arrivals_cons, ih]
    | dispatch =>
      change arrivals (intake turns) = _
      rw [arrivals_cons, ih]
      rfl
    | sync side =>
      change arrivals (intake turns) = _
      rw [arrivals_cons, ih]
      rfl

end Turn

namespace Node

def file (m : Message) (a : Address) (s : State) : State :=
  { s with
    registry := s.registry.receive m a
    counters := { s.counters with received := s.counters.received + 1 } }

/-- Deals with a datagram at once: files its message and passes it on. Nothing is queued. -/
def serve (n : Node) (e : Surroundings) (a : Address) (d : List UInt8) (s : State) :
    State × Output :=
  match Datagram.decode d with
  | .error cause => (refuse s, { log := [.damaged a cause] })
  | .ok m =>
    if m.kind.isSync then (file m a s, { log := n.acceptEvents m a })
    else
      let (s, o) := relay e m (file m a s)
      (s, { log := n.acceptEvents m a } ++ (o ++ deliver e m))

/-- A step of a node that deals with each datagram at once. Nothing is left to dispatch. -/
def stepAtOnce (n : Node) (e : Surroundings) (s : State) : Step → State × Output
  | .ingest a d => n.serve e a d s
  | .dispatch => (s, {})
  | .sync side => n.syncSide e side s

def runAtOnce (n : Node) (e : Surroundings) (s : State) : List Step → State × Output
  | [] => (s, {})
  | x :: xs =>
    let (s, o) := n.stepAtOnce e s x
    let (s, p) := n.runAtOnce e s xs
    (s, o ++ p)

/-- Whatever has come in is passed on before the node does anything else. -/
def Prompt (n : Node) (e : Surroundings) (s : State) : List Step → Prop
  | [] => s.queue = []
  | x :: xs => (x ≠ .dispatch → s.queue = []) ∧ n.Prompt e (n.step e s x).1 xs

instance decidablePrompt (n : Node) (e : Surroundings) :
    ∀ s steps, Decidable (n.Prompt e s steps)
  | s, [] => inferInstanceAs (Decidable (s.queue = []))
  | s, x :: xs =>
    have := decidablePrompt n e (n.step e s x).1 xs
    inferInstanceAs (Decidable (_ ∧ _))

variable (n : Node) (e : Surroundings) {s : State}

theorem play_alike (s : State) (turns : List Turn) :
    (n.play s turns).1.registry.Alike (s.registry.receiveAll (Turn.arrivals turns)) := by
  induction turns generalizing s with
  | nil => exact .refl _
  | cons x turns ih =>
    rw [play_cons, Turn.arrivals_cons, Registry.receiveAll_append]
    exact (ih _).trans ((n.step_alike x.surroundings s x.step).receiveAll _)

/-- Sessions and rosters are as if the datagrams had come in one after the other and nothing else
had been done. -/
theorem play_alike_intake (s : State) (turns : List Turn) :
    (n.play s turns).1.registry.Alike (n.play s (Turn.intake turns)).1.registry := by
  have h := n.play_alike s (Turn.intake turns)
  rw [Turn.arrivals_intake] at h
  exact (n.play_alike s turns).trans h.symm

/-- A message that is taken has been taken in some turn, after those that were taken before it. -/
theorem exists_of_taken {turns : List Turn} {k : Nat} {m : Message}
    (h : (n.taken s turns)[k]? = some m) :
    ∃ before e after queue, turns = before ++ ⟨e, .dispatch⟩ :: after ∧
      (n.taken s before).length = k ∧ (n.play s before).1.queue = m :: queue := by
  induction turns generalizing s k with
  | nil => cases h
  | cons x turns ih =>
    rw [taken_cons] at h
    cases hx : (n.moment s x).taken? with
    | none =>
      rw [hx] at h
      obtain ⟨before, e, after, queue, rfl, hk, hq⟩ := ih h
      refine ⟨x :: before, e, after, queue, rfl, ?_, hq⟩
      rw [taken_cons, hx]
      exact hk
    | some m' =>
      rw [hx] at h
      cases k with
      | zero =>
        cases h
        obtain ⟨e, step⟩ := x
        cases step with
        | ingest a d => cases hx
        | sync side => cases hx
        | dispatch =>
          obtain ⟨queue, hq⟩ := List.head?_eq_some_iff.mp hx
          exact ⟨[], e, turns, queue, rfl, rfl, hq⟩
      | succ k =>
        obtain ⟨before, e, after, queue, rfl, hk, hq⟩ := ih h
        refine ⟨x :: before, e, after, queue, rfl, ?_, hq⟩
        rw [taken_cons, hx]
        exact congrArg Nat.succ hk

/-- With nothing waiting, to queue a message and to take it again is to pass it on at once. -/
theorem handle_eq_serve {a : Address} {d : List UInt8} (hq : s.queue = []) :
    n.handle e a d s = n.serve e a d s := by
  unfold serve
  cases hd : Datagram.decode d with
  | error cause => exact n.handle_of_damage e hd hq
  | ok m =>
    dsimp only
    cases hm : m.kind.isSync with
    | true =>
      have hfile : accept m a s = file m a s := congrArg (State.mk _ _) (if_pos hm)
      rw [n.handle_of_sync e hd hm hq, hfile]
      rfl
    | false =>
      have hfile : { accept m a s with queue := [] } = file m a s :=
        congrArg (State.mk _ _) hq.symm
      rw [n.handle_of_decode e hd hm hq, hfile]
      rfl

theorem drain_of_empty (hq : s.queue = []) : n.drain e s = (s, {}) := by
  unfold drain
  rw [hq]
  rfl

theorem drain_of_cons {m : Message} {queue : List Message} (hq : s.queue = m :: queue) :
    n.drain e s = ((n.drain e (dispatch e s).1).1,
      (dispatch e s).2 ++ (n.drain e (dispatch e s).1).2) := by
  unfold drain
  rw [queue_dispatch, hq]
  rfl

theorem run_cons (x : Step) (steps : List Step) :
    n.run e s (x :: steps) = ((n.run e (n.step e s x).1 steps).1,
      (n.step e s x).2 ++ (n.run e (n.step e s x).1 steps).2) := rfl

theorem runAtOnce_cons (x : Step) (steps : List Step) :
    n.runAtOnce e s (x :: steps) = ((n.runAtOnce e (n.stepAtOnce e s x).1 steps).1,
      (n.stepAtOnce e s x).2 ++ (n.runAtOnce e (n.stepAtOnce e s x).1 steps).2) := rfl

/-- Before a prompt node does anything else, it passes on what waits. -/
theorem run_of_prompt {steps : List Step} (h : n.Prompt e s steps) :
    n.run e s steps = ((n.runAtOnce e (n.drain e s).1 steps).1,
      (n.drain e s).2 ++ (n.runAtOnce e (n.drain e s).1 steps).2) := by
  -- The dispatches that are still due stand in front as one drain, else no step alone would agree.
  induction steps generalizing s with
  | nil =>
    rw [n.drain_of_empty e h]
    rfl
  | cons x steps ih =>
    obtain ⟨hx, h⟩ := h
    rw [run_cons, ih h, runAtOnce_cons]
    cases x with
    | ingest a d =>
      have hq := hx nofun
      have hserve : n.stepAtOnce e s (.ingest a d) = n.handle e a d s :=
        (n.handle_eq_serve e hq).symm
      rw [n.drain_of_empty e hq, hserve]
      exact congrArg (Prod.mk _) (Output.append_assoc _ _ _).symm
    | sync side =>
      have hq := hx nofun
      have hnext : (n.step e s (.sync side)).1.queue = [] :=
        (n.syncSide_eq e side s).2.1.trans hq
      rw [n.drain_of_empty e hq, n.drain_of_empty e hnext]
      rfl
    | dispatch =>
      cases hq : s.queue with
      | nil =>
        have hstep : n.step e s .dispatch = (s, {}) := dispatch_nil e hq
        rw [hstep, n.drain_of_empty e hq]
        rfl
      | cons m queue =>
        rw [n.drain_of_cons e hq]
        exact congrArg (Prod.mk _) (Output.append_assoc _ _ _).symm

theorem attempts_moment_of_encode {m : Message} {queue : List Message} {d : List UInt8}
    (hq : s.queue = m :: queue) (hd : Datagram.encode m = .ok d) :
    (n.moment s ⟨e, .dispatch⟩).output.attempts =
      attemptsTo e d (s.registry.plan m).targets := by
  change (dispatch e s).2.attempts = _
  rw [dispatch_cons e hq, Output.attempts_append, attempts_relay e _ hd]
  exact List.append_nil _

theorem attempts_moment_of_error {m : Message} {queue : List Message} {cause : ProtocolError}
    (hq : s.queue = m :: queue) (hd : Datagram.encode m = .error cause) :
    (n.moment s ⟨e, .dispatch⟩).output.attempts = [] := by
  change (dispatch e s).2.attempts = _
  rw [dispatch_cons e hq, Output.attempts_append, attempts_relay_of_error e _ hd]
  rfl

/-- Whatever order the steps of a node come in, the messages that it has taken from its queue and
those that still wait are the messages that came in, in their order, and the second way out gets
each of them once. Sessions and rosters are as if nothing but the datagrams had come in. Each
message is sent along the plan of a node that knows what some of the datagrams told, its own among
them. A node that passes on each message at once does what one without a queue does. -/
theorem play_any_order (n : Node) (turns : List Turn) :
    n.taken .initial turns ++ (n.play .initial turns).1.queue =
      relayed (Turn.arrivals turns) ∧
    (n.play .initial turns).2.secondary = n.taken .initial turns ∧
    ((n.play .initial turns).1.queue = [] →
      (n.play .initial turns).2.secondary = relayed (Turn.arrivals turns)) ∧
    (n.play .initial turns).1.registry.Alike
      (n.play .initial (Turn.intake turns)).1.registry ∧
    (∀ k m, (n.taken .initial turns)[k]? = some m →
      ∃ before e after, turns = before ++ ⟨e, .dispatch⟩ :: after ∧
        (relayed (Turn.arrivals before))[k]? = some m ∧
        let s := (n.play .initial before).1
        let x := n.moment s ⟨e, .dispatch⟩
        x.taken? = some m ∧ (n.taken .initial before).length = k ∧
        s.registry.Alike (n.play .initial (Turn.intake before)).1.registry ∧
        (∀ d, Datagram.encode m = .ok d →
          x.output.attempts = attemptsTo e d (s.registry.plan m).targets) ∧
        ∀ cause, Datagram.encode m = .error cause → x.output.attempts = []) ∧
    ∀ e steps, n.Prompt e .initial steps →
      n.run e .initial steps = n.runAtOnce e .initial steps := by
  have htaken : ∀ turns, n.taken .initial turns ++ (n.play .initial turns).1.queue =
      relayed (Turn.arrivals turns) := n.taken_append_queue .initial
  refine ⟨htaken turns, n.secondary_play _ _, ?_, n.play_alike_intake _ _, ?_, ?_⟩
  · intro hq
    rw [secondary_play, ← htaken turns, hq, List.append_nil]
  · intro k m hm
    obtain ⟨before, e, after, queue, rfl, hk, hq⟩ := n.exists_of_taken hm
    refine ⟨before, e, after, rfl, ?_, ?_, hk, n.play_alike_intake _ _, ?_, ?_⟩
    · rw [← htaken before, hq, ← hk, List.getElem?_append_right (Nat.le_refl _), Nat.sub_self]
      rfl
    · exact congrArg List.head? hq
    · exact fun d hd => n.attempts_moment_of_encode e hq hd
    · exact fun cause hd => n.attempts_moment_of_error e hq hd
  · intro e steps h
    rw [n.run_of_prompt e h, n.drain_of_empty e rfl, Output.empty_append]

section Farewell

def hears (m : Message) : Step :=
  .ingest ⟨.v4 10 0 0 9, 9⟩ (Datagram.frame m.json)

/-- Someone comes, is sent a message, and goes before the message is passed on. -/
def farewell : List Step :=
  [hears ⟨.connect, "bob", Message.everyone, .text ""⟩,
    hears ⟨.privateMessage, "ann", "bob", .text "hi"⟩,
    hears ⟨.disconnect, "bob", Message.everyone, .text ""⟩, .dispatch, .dispatch]

/-- The same, but the message is passed on at once. -/
def visit : List Step :=
  [hears ⟨.connect, "bob", Message.everyone, .text ""⟩, .dispatch, .sync .left,
    hears ⟨.privateMessage, "ann", "bob", .text "hi"⟩, .dispatch,
    hears ⟨.disconnect, "bob", Message.everyone, .text ""⟩, .dispatch]

def standardLeft : Node := ⟨"left", ⟨0⟩, .standard⟩

theorem prompt_visit : standardLeft.Prompt .calm .initial visit := by
  decide +kernel

/-- The second dispatch of the farewell follows the first, when all three datagrams have come in. -/
theorem split_farewell {before after : List Turn} {e : Surroundings}
    (h : farewell.map (Turn.mk .calm) = before ++ ⟨e, .dispatch⟩ :: after)
    (hk : (standardLeft.taken .initial before).length = 1) :
    e = .calm ∧ before = (farewell.take 4).map (Turn.mk .calm) := by
  rcases before with _ | ⟨x, _ | ⟨y, _ | ⟨z, _ | ⟨w, before⟩⟩⟩⟩
  · cases h
  · cases h
  · cases h
  · cases h
    cases hk
  · rcases before with _ | ⟨v, before⟩
    · cases h
      exact ⟨rfl, rfl⟩
    · cases before <;> cases h

/-- A message can be planned when its destination has gone: bob was there when his message came in,
and is not when it is taken, as the second of all. It is missed, and nothing is sent for it. -/
theorem play_any_order_farewell :
    let note : Message := ⟨.privateMessage, "ann", "bob", .text "hi"⟩
    (∃ before e after, farewell.map (Turn.mk .calm) = before ++ ⟨e, .dispatch⟩ :: after ∧
      (standardLeft.taken .initial before).length = 1 ∧
      let s := (standardLeft.play .initial before).1
      let x := standardLeft.moment s ⟨e, .dispatch⟩
      x.taken? = some note ∧
      (standardLeft.play .initial (before.take 2)).1.registry.clientIds = ["bob"] ∧
      s.registry.clientIds = [] ∧ s.registry.plan note = .miss ∧ x.output.attempts = []) ∧
    standardLeft.Prompt .calm .initial visit ∧
    standardLeft.run .calm .initial visit = standardLeft.runAtOnce .calm .initial visit := by
  intro note
  have htaken : (standardLeft.taken .initial (farewell.map (Turn.mk .calm)))[1]? = some note := by
    decide +kernel
  have hnote : Datagram.encode note = .ok (Datagram.frame note.json) :=
    Datagram.encode_eq_ok.mpr ⟨by decide, rfl⟩
  obtain ⟨_, _, _, _, hplan, hrun⟩ := play_any_order standardLeft (farewell.map (Turn.mk .calm))
  obtain ⟨before, e, after, hsplit, _, hx, hk, halike, hsend, _⟩ := hplan 1 note htaken
  refine ⟨⟨before, e, after, hsplit, hk, hx, ?_⟩, prompt_visit, hrun _ _ prompt_visit⟩
  obtain ⟨rfl, rfl⟩ := split_farewell hsplit hk
  -- What the datagrams alone leave of the sessions is what the message is planned with.
  have hgone : (standardLeft.play .initial
      (Turn.intake ((farewell.take 4).map (Turn.mk .calm)))).1.registry.clients = [] := by
    decide +kernel
  have hmiss : (standardLeft.play .initial
      ((farewell.take 4).map (Turn.mk .calm))).1.registry.plan note = .miss := by
    decide +kernel
  refine ⟨by decide +kernel, ?_, hmiss, ?_⟩
  · unfold Registry.clientIds
    rw [halike.clients, hgone]
    rfl
  · rw [hsend _ hnote, hmiss]
    rfl

end Farewell

end Node

end ChatRelay
