import ChatRelay.Proofs.Arrivals
import Mathlib.Data.List.DropRight
import Mathlib.Logic.Function.Basic

namespace ChatRelay

inductive Change where
  | opens (address : Address)
  | closes
deriving DecidableEq, Repr

def Message.change? (m : Message) (sender : Address) : Option Change :=
  match m.kind with
  | .connect => some (.opens sender)
  | .disconnect => some .closes
  | _ => none

/-- What messages do to the sessions of one client. -/
def changes (x : String) (ms : List (Address × Message)) : List Change :=
  ms.filterMap fun m => if m.2.source = x then m.2.change? m.1 else none

namespace Change

/-- Up with each session that opens, and down with each that closes unless there is none. -/
def after (n : Nat) : Change → Nat
  | opens _ => n + 1
  | closes => n - 1

/-- The number of sessions left over by some changes. -/
def left (cs : List Change) : Nat :=
  cs.foldl after 0

def address? : Change → Option Address
  | opens address => some address
  | closes => none

end Change

def openings (ms : List (Address × Message)) : List Connection :=
  ms.filterMap fun m => if m.2.kind = .connect then some ⟨m.2.source, m.1⟩ else none

/-- Of each client the last `n` sessions. -/
def survivors (n : String → Nat) : List Connection → List Connection
  | [] => []
  | c :: cs =>
    if cs.countP (·.id = c.id) < n c.id then c :: survivors n cs else survivors n cs

theorem survivors_sublist (n : String → Nat) (cs : List Connection) :
    (survivors n cs).Sublist cs := by
  induction cs with
  | nil => exact .slnil
  | cons c cs ih =>
    unfold survivors
    split
    · exact ih.cons_cons c
    · exact ih.cons c

/-- Numbers beyond those of the sessions there are make no difference. -/
theorem survivors_congr {n n' : String → Nat} {cs : List Connection}
    (h : ∀ x, min (n x) (cs.countP (·.id = x)) = min (n' x) (cs.countP (·.id = x))) :
    survivors n cs = survivors n' cs := by
  induction cs with
  | nil => rfl
  | cons c cs ih =>
    have hc : min (n c.id) (cs.countP (·.id = c.id) + 1) =
        min (n' c.id) (cs.countP (·.id = c.id) + 1) := by
      simpa using h c.id
    have ht : survivors n cs = survivors n' cs := by
      apply ih
      intro x
      have hx := h x
      rw [List.countP_cons] at hx
      omega
    unfold survivors
    rw [ht]
    split <;> split <;> first | rfl | omega

/-- A new session survives, and none of the others goes. -/
theorem survivors_concat (n : String → Nat) (cs : List Connection) (c : Connection) :
    survivors (Function.update n c.id (n c.id + 1)) (cs ++ [c]) = survivors n cs ++ [c] := by
  induction cs with
  | nil => simp [survivors]
  | cons d cs ih =>
    rw [List.cons_append]
    unfold survivors
    rw [ih]
    have hcount : (cs ++ [c]).countP (·.id = d.id) < Function.update n c.id (n c.id + 1) d.id ↔
        cs.countP (·.id = d.id) < n d.id := by
      rw [List.countP_append]
      by_cases hd : d.id = c.id
      · simp [hd]
      · simp [Function.update_of_ne hd, Ne.symm hd]
    simp only [hcount]
    split <;> rfl

/-- When a client closes a session, its oldest survivor goes. -/
theorem eraseP_survivors {n : String → Nat} {cs : List Connection} {x : String}
    (h : n x ≤ cs.countP (·.id = x)) :
    (survivors n cs).eraseP (·.id = x) = survivors (Function.update n x (n x - 1)) cs := by
  induction cs with
  | nil => rfl
  | cons c cs ih =>
    by_cases hc : c.id = x
    · subst hc
      simp only [List.countP_cons, decide_true, if_true] at h
      unfold survivors
      by_cases hs : cs.countP (·.id = c.id) < n c.id
      · -- The oldest survivor of its client: all later ones survive with one session less.
        have hn : ¬ cs.countP (·.id = c.id) < Function.update n c.id (n c.id - 1) c.id := by
          rw [Function.update_self]
          omega
        rw [if_pos hs, if_neg hn, List.eraseP_cons_of_pos (by simp)]
        apply survivors_congr
        intro y
        by_cases hy : y = c.id
        · subst hy
          rw [Function.update_self]
          omega
        · rw [Function.update_of_ne hy]
      · have hn : ¬ cs.countP (·.id = c.id) < Function.update n c.id (n c.id - 1) c.id := by
          rw [Function.update_self]
          omega
        rw [if_neg hs, if_neg hn]
        exact ih (by omega)
    · have ht := ih (by simpa [List.countP_cons, hc] using h)
      unfold survivors
      rw [Function.update_of_ne hc]
      split
      · rw [List.eraseP_cons_of_neg (by simpa using hc), ht]
      · exact ht

/-- The survivors of one client are its last sessions. -/
theorem filter_survivors (n : String → Nat) (cs : List Connection) (x : String) :
    (survivors n cs).filter (·.id = x) = (cs.filter (·.id = x)).rtake (n x) := by
  induction cs with
  | nil => simp [survivors]
  | cons c cs ih =>
    unfold survivors
    by_cases hc : c.id = x
    · subst hc
      rw [List.countP_eq_length_filter, List.filter_cons_of_pos (by simp)]
      unfold List.rtake at ih ⊢
      split
      · rename_i hs
        rw [List.filter_cons_of_pos (by simp), ih]
        have h0 : (cs.filter (·.id = c.id)).length - n c.id = 0 := by omega
        rw [h0, List.length_cons, show (cs.filter (·.id = c.id)).length + 1 - n c.id = 0 by omega]
        rfl
      · rename_i hs
        rw [ih, List.length_cons, Nat.succ_sub (by omega)]
        rfl
    · rw [List.filter_cons_of_neg (by simpa using hc), ← ih]
      split
      · rw [List.filter_cons_of_neg (by simpa using hc)]
      · rfl

/-- The sessions of one client open as its own messages tell. -/
theorem filter_openings (x : String) (ms : List (Address × Message)) :
    (openings ms).filter (·.id = x) =
      ((changes x ms).filterMap Change.address?).map fun address => ⟨x, address⟩ := by
  induction ms with
  | nil => rfl
  | cons m ms ih =>
    unfold openings changes at ih ⊢
    rw [List.filterMap_cons, List.filterMap_cons]
    by_cases hx : m.2.source = x
    · subst hx
      rw [if_pos rfl]
      cases hk : m.2.kind <;>
        simp [Message.change?, hk, ih, Change.address?, List.filterMap_cons]
    · rw [if_neg hx]
      by_cases hk : m.2.kind = .connect <;> simp [hx, hk, ih]

def remaining (ms : List (Address × Message)) (x : String) : Nat :=
  Change.left (changes x ms)

/-- A message changes the number of sessions of its source alone. -/
theorem remaining_concat (ms : List (Address × Message)) (m : Address × Message) :
    remaining (ms ++ [m]) =
      match m.2.change? m.1 with
      | some c => Function.update (remaining ms) m.2.source (c.after (remaining ms m.2.source))
      | none => remaining ms := by
  funext x
  unfold remaining changes Change.left
  rw [List.filterMap_append, List.foldl_append]
  by_cases hx : m.2.source = x
  · subst hx
    cases hc : m.2.change? m.1 <;> simp [hc]
  · cases hc : m.2.change? m.1 <;> simp [hx, Function.update_of_ne (Ne.symm hx)]

theorem openings_concat (ms : List (Address × Message)) (m : Address × Message) :
    openings (ms ++ [m]) =
      openings ms ++ (if m.2.kind = .connect then [⟨m.2.source, m.1⟩] else []) := by
  unfold openings
  rw [List.filterMap_append]
  split <;> simp [*]

/-- No client has more sessions left than were opened. -/
theorem remaining_le_countP (x : String) (ms : List (Address × Message)) :
    remaining ms x ≤ (openings ms).countP (·.id = x) := by
  induction ms using List.reverseRecOn with
  | nil => exact Nat.zero_le _
  | append_singleton ms m ih =>
    rw [remaining_concat, openings_concat, List.countP_append]
    unfold Message.change?
    by_cases hx : x = m.2.source
    · subst hx
      cases hk : m.2.kind <;> simp [Change.after] <;> omega
    · cases hk : m.2.kind <;> simp [Function.update_of_ne hx] <;> omega

/-- The sessions of a node are the survivors of those that were opened. -/
theorem clients_receiveAll (ms : List (Address × Message)) :
    (Registry.empty.receiveAll ms).clients = survivors (remaining ms) (openings ms) := by
  induction ms using List.reverseRecOn with
  | nil => rfl
  | append_singleton ms m ih =>
    rw [Registry.receiveAll_append]
    change ((Registry.empty.receiveAll ms).receive m.2 m.1).clients = _
    rw [Registry.clients_receive, ih, openings_concat, remaining_concat]
    unfold Message.change?
    cases m.2.kind with
    | connect => exact (survivors_concat (remaining ms) (openings ms) ⟨m.2.source, m.1⟩).symm
    | disconnect =>
      simp only [reduceCtorEq, if_false, List.append_nil]
      exact eraseP_survivors (remaining_le_countP m.2.source ms)
    | _ => simp

end ChatRelay
