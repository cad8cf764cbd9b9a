import ChatRelay.Proofs.Interleaving
import Mathlib.Data.List.Forall2

namespace ChatRelay

def Message.isWhisper (m : Message) : Bool :=
  (m.kind = .chat || m.kind = .privateMessage) && !m.isBroadcast

section Messages

variable {m : Message}

theorem Message.kind_of_isWhisper (h : m.isWhisper = true) :
    (m.kind = .chat ∨ m.kind = .privateMessage) ∧ m.isBroadcast = false := by
  simpa [isWhisper] using h

theorem Message.isWhisper_of_sync (h : m.kind.isSync = true) : m.isWhisper = false := by
  cases hk : m.kind <;> simp_all [isWhisper, Kind.isSync]

end Messages

namespace Turn

def isWhisper (x : Turn) : Bool :=
  match x.step with
  | .ingest _ d => (Datagram.decode d).toOption.any Message.isWhisper
  | .dispatch | .sync _ => false

/-- Whether a turn has to do with anything but whispers: a whisper that comes in or is passed on
does not, nor does a look at a queue in which nothing waits. `waiting` tells which of the messages
that wait are whispers. -/
def isOvert (waiting : List Bool) (x : Turn) : Bool :=
  match x.step with
  | .dispatch => waiting.head? = some false
  | .ingest .. | .sync _ => !x.isWhisper

def next (waiting : List Bool) (x : Turn) : List Bool :=
  match x.step with
  | .dispatch => waiting.tail
  | .ingest .. | .sync _ => waiting ++ (relayed x.step.arrival?.toList).map (·.isWhisper)

/-- A run without its whispers. -/
def overt (waiting : List Bool) : List Turn → List Turn
  | [] => []
  | x :: turns => (if x.isOvert waiting then [x] else []) ++ overt (x.next waiting) turns

/-- The same turn, or whispers that come in at both. -/
def Revises (x y : Turn) : Prop :=
  x = y ∨ x.isWhisper = true ∧ y.isWhisper = true

/-- What comes in at some turns is passed on at once. -/
def promptly (turns : List Turn) : List Turn :=
  turns.flatMap fun x => if x.step.isIngest then [x, ⟨x.surroundings, .dispatch⟩] else [x]

section Whispers

variable {x y : Turn} {waiting : List Bool}

theorem decode_of_isWhisper {e : Surroundings} {a : Address} {d : List UInt8}
    (h : (⟨e, .ingest a d⟩ : Turn).isWhisper = true) :
    ∃ m, Datagram.decode d = .ok m ∧ m.isWhisper = true := by
  change (Datagram.decode d).toOption.any Message.isWhisper = true at h
  cases hd : Datagram.decode d with
  | error cause => simp [hd, Except.toOption] at h
  | ok m => exact ⟨m, rfl, by simpa [hd, Except.toOption] using h⟩

theorem isOvert_of_isWhisper (h : x.isWhisper = true) : x.isOvert waiting = false := by
  obtain ⟨e, step⟩ := x
  cases step with
  | ingest a d => simp [isOvert, h]
  | dispatch => cases h
  | sync side => cases h

/-- A whisper that comes in waits behind all others. -/
theorem next_of_isWhisper (h : x.isWhisper = true) : x.next waiting = waiting ++ [true] := by
  obtain ⟨e, step⟩ := x
  cases step with
  | ingest a d =>
    obtain ⟨m, hd, hm⟩ := decode_of_isWhisper h
    have hsync : m.kind.isSync = false := by
      cases hk : m.kind.isSync with
      | false => rfl
      | true => simp [Message.isWhisper_of_sync hk] at hm
    change waiting ++ (relayed (Step.arrival? (.ingest a d)).toList).map _ = _
    rw [Step.arrival?_of_decode hd]
    simp [relayed_of_not_sync hsync, hm]
  | dispatch => cases h
  | sync side => cases h

/-- What is not a turn to pass a message on is overt whatever waits, and what it brings waits behind
all others. -/
theorem next_of_ne_dispatch (h : x.step ≠ .dispatch) : ∃ b bs,
    (∀ waiting, x.isOvert waiting = b) ∧ ∀ waiting, x.next waiting = waiting ++ bs := by
  obtain ⟨e, step⟩ := x
  cases step with
  | ingest a d => exact ⟨_, _, fun _ => rfl, fun _ => rfl⟩
  | dispatch => exact absurd rfl h
  | sync side => exact ⟨_, _, fun _ => rfl, fun _ => rfl⟩

/-- Without the whispers that wait, what is overt is as overt. -/
theorem next_filter_of_isOvert (h : x.isOvert waiting = true) :
    x.isOvert (waiting.filter (!·)) = true ∧
      x.next (waiting.filter (!·)) = (x.next waiting).filter (!·) := by
  obtain ⟨e, step⟩ := x
  cases step with
  | ingest a d =>
    refine ⟨h, ?_⟩
    change _ ++ (relayed (Step.arrival? (.ingest a d)).toList).map _ =
      (waiting ++ (relayed (Step.arrival? (.ingest a d)).toList).map _).filter _
    rw [List.filter_append]
    cases hd : Datagram.decode d with
    | error cause =>
      rw [Step.arrival?_of_damage hd]
      rfl
    | ok m =>
      have hm : m.isWhisper = false := by simpa [isOvert, isWhisper, hd, Except.toOption] using h
      rw [Step.arrival?_of_decode hd]
      cases hk : m.kind.isSync with
      | true => simp [relayed_of_sync hk]
      | false => simp [relayed_of_not_sync hk, hm]
  | dispatch =>
    have hhead : waiting.head? = some false := of_decide_eq_true h
    obtain ⟨bs, rfl⟩ := List.head?_eq_some_iff.mp hhead
    exact ⟨rfl, rfl⟩
  | sync side =>
    refine ⟨rfl, ?_⟩
    change waiting.filter _ ++ [] = (waiting ++ []).filter _
    rw [List.append_nil, List.append_nil]

/-- What is not overt leaves all that waits but whispers. -/
theorem filter_next_of_not_isOvert (h : x.isOvert waiting = false) :
    (x.next waiting).filter (!·) = waiting.filter (!·) := by
  cases hx : x.isWhisper with
  | true =>
    rw [next_of_isWhisper hx, List.filter_append]
    exact List.append_nil _
  | false =>
    obtain ⟨e, step⟩ := x
    cases step with
    | ingest a d => simp [isOvert, hx] at h
    | dispatch =>
      have hhead : waiting.head? ≠ some false := of_decide_eq_false h
      cases waiting with
      | nil => rfl
      | cons b bs =>
        cases b with
        | true => rfl
        | false => exact absurd rfl hhead
    | sync side => cases h

end Whispers

section Overt

variable {waiting : List Bool}

theorem overt_cons (x : Turn) (turns : List Turn) :
    overt waiting (x :: turns) =
      (if x.isOvert waiting then [x] else []) ++ overt (x.next waiting) turns := rfl

theorem overt_append (before after : List Turn) :
    overt waiting (before ++ after) =
      overt waiting before ++ overt (before.foldl next waiting) after := by
  induction before generalizing waiting with
  | nil => rfl
  | cons x before ih =>
    rw [List.cons_append, overt_cons, overt_cons, ih, List.append_assoc]
    rfl

/-- What a whisper says, who says it and to whom leave what is overt alone. -/
theorem overt_concat_of_isWhisper (before : List Turn) (h : x.isWhisper = true) :
    overt waiting (before ++ [x]) = overt waiting before := by
  rw [overt_append, overt_cons, isOvert_of_isWhisper h]
  exact List.append_nil _

theorem overt_of_revises {turns turns' : List Turn} (h : List.Forall₂ Revises turns turns') :
    overt waiting turns = overt waiting turns' := by
  induction h generalizing waiting with
  | nil => rfl
  | cons hx _ ih =>
    rcases hx with rfl | ⟨hx, hy⟩
    · rw [overt_cons, overt_cons, ih]
    · rw [overt_cons, overt_cons, isOvert_of_isWhisper hx, isOvert_of_isWhisper hy,
        next_of_isWhisper hx, next_of_isWhisper hy, ih]
      rfl

/-- Where a whisper waits that does not wait in the other run, one turn more is due to pass it on,
once it has come to the front. -/
theorem exists_overt_passing (e : Surroundings) (after : List Turn) (front back : List Bool) :
    ∃ mid extra rest, after = mid ++ rest ∧ (extra = [] ∨ extra = [⟨e, .dispatch⟩]) ∧
      overt (front ++ true :: back) (mid ++ (extra ++ rest)) = overt (front ++ back) after := by
  induction after generalizing front back with
  | nil => exact ⟨[], [], [], rfl, .inl rfl, rfl⟩
  | cons y after ih =>
    cases front with
    | nil => exact ⟨[], [⟨e, .dispatch⟩], y :: after, rfl, .inr rfl, rfl⟩
    | cons b front =>
      by_cases hy : y.step = .dispatch
      · obtain ⟨mid, extra, rest, rfl, hextra, hovert⟩ := ih front back
        refine ⟨y :: mid, extra, rest, rfl, hextra, ?_⟩
        obtain ⟨e', step⟩ := y
        cases hy
        exact congrArg _ hovert
      · obtain ⟨shown, bs, hshown, hnext⟩ := next_of_ne_dispatch hy
        obtain ⟨mid, extra, rest, rfl, hextra, hovert⟩ := ih (b :: front) (back ++ bs)
        refine ⟨y :: mid, extra, rest, rfl, hextra, ?_⟩
        simp only [List.cons_append] at hovert
        simp only [List.cons_append, List.append_assoc, overt_cons, hshown, hnext, hovert]

/-- A run without its whispers has no whispers. -/
theorem overt_overt (turns : List Turn) :
    overt (waiting.filter (!·)) (overt waiting turns) = overt waiting turns := by
  induction turns generalizing waiting with
  | nil => rfl
  | cons x turns ih =>
    rw [overt_cons]
    cases hx : x.isOvert waiting with
    | true =>
      obtain ⟨hovert, hnext⟩ := next_filter_of_isOvert hx
      change overt _ (x :: overt (x.next waiting) turns) = x :: overt (x.next waiting) turns
      rw [overt_cons, hovert, hnext, ih]
      rfl
    | false =>
      rw [← filter_next_of_not_isOvert hx]
      exact ih

/-- One more whisper goes unnoticed, given one more turn to pass it on, if it comes to the front. -/
theorem exists_overt_insert {x : Turn} (before after : List Turn) (h : x.isWhisper = true) :
    ∃ mid extra rest, after = mid ++ rest ∧
      (extra = [] ∨ extra = [⟨x.surroundings, .dispatch⟩]) ∧
      overt waiting (before ++ x :: (mid ++ (extra ++ rest))) =
        overt waiting (before ++ after) := by
  obtain ⟨mid, extra, rest, hafter, hextra, hovert⟩ :=
    exists_overt_passing x.surroundings after (before.foldl next waiting) []
  refine ⟨mid, extra, rest, hafter, hextra, ?_⟩
  rw [overt_append, overt_append, overt_cons, isOvert_of_isWhisper h, next_of_isWhisper h, hovert,
    List.append_nil]
  rfl

/-- What comes in at a turn and is passed on at once leaves nothing that waits. -/
theorem next_promptly (x : Turn) : (promptly [x]).foldl next [] = [] := by
  obtain ⟨e, step⟩ := x
  cases step with
  | ingest a d =>
    change ([] ++ (relayed (Step.arrival? (.ingest a d)).toList).map _).tail = []
    cases hd : Datagram.decode d with
    | error cause =>
      rw [Step.arrival?_of_damage hd]
      rfl
    | ok m =>
      rw [Step.arrival?_of_decode hd]
      cases hm : m.kind.isSync with
      | true => simp [relayed_of_sync hm]
      | false => simp [relayed_of_not_sync hm]
  | dispatch => rfl
  | sync side => rfl

theorem overt_promptly_of_isWhisper {x : Turn} (h : x.isWhisper = true) :
    overt [] (promptly [x]) = [] := by
  have hpromptly : promptly [x] = [x, ⟨x.surroundings, .dispatch⟩] := by
    obtain ⟨e, step⟩ := x
    cases step with
    | ingest a d => rfl
    | dispatch => cases h
    | sync side => cases h
  rw [hpromptly, overt_cons, isOvert_of_isWhisper h, next_of_isWhisper h]
  rfl

/-- Where nothing has to wait, a run without its whispers is the run of the rest. -/
theorem overt_promptly (turns : List Turn) :
    overt [] (promptly turns) =
      (turns.filter (!·.isWhisper)).flatMap fun x => overt [] (promptly [x]) := by
  induction turns with
  | nil => rfl
  | cons x turns ih =>
    have hsplit : promptly (x :: turns) = promptly [x] ++ promptly turns := by
      simp [promptly]
    rw [hsplit, overt_append, next_promptly, ih, List.filter_cons]
    cases hx : x.isWhisper with
    | true => rw [overt_promptly_of_isWhisper hx]; rfl
    | false => rfl

end Overt

end Turn

end ChatRelay
