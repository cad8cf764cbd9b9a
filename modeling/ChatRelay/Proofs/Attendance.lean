import ChatRelay.Proofs.Site
import Mathlib.Data.List.TakeWhile

namespace ChatRelay

def afterJoin (x : String) (ms : List Message) : List Message :=
  (ms.dropWhile fun m => !m.joins x).drop 1

/-- Whether a client has come and not gone again. -/
def present (x : String) (ms : List Message) : Bool :=
  ms.any (·.joins x) && (afterJoin x ms).all fun m => !m.leaves x

theorem afterJoin_concat (x : String) (ms : List Message) (m : Message) :
    afterJoin x (ms ++ [m]) =
      if ms.any (·.joins x) then afterJoin x ms ++ [m] else [] := by
  induction ms with
  | nil =>
    unfold afterJoin
    cases h : m.joins x <;> simp [h]
  | cons y ms ih =>
    unfold afterJoin at ih ⊢
    cases h : y.joins x
    · simpa [h] using ih
    · simp [h]

theorem takeWhile_concat {α : Type} (p : α → Bool) (l : List α) (a : α) :
    (l ++ [a]).takeWhile p = l.takeWhile p ++ if l.all p && p a then [a] else [] := by
  induction l with
  | nil => cases h : p a <;> simp [h]
  | cons b l ih => cases h : p b <;> simp [h, ih]

theorem afterJoin_of_not_any {x : String} {ms : List Message} (h : ms.any (·.joins x) = false) :
    afterJoin x ms = [] := by
  unfold afterJoin
  rw [List.dropWhile_eq_nil_iff.mpr]
  · rfl
  · intro m hm
    simpa using List.any_eq_false.mp h m hm

theorem attended_of_not_any {x : String} {ms : List Message} (h : ms.any (·.joins x) = false) :
    attended x ms = [] := by
  change (afterJoin x ms).takeWhile _ = []
  rw [afterJoin_of_not_any h]
  rfl

/-- Presence starts with a connect and ends with the next goodbye, after which no connect counts. -/
theorem present_concat (x : String) (ms : List Message) (m : Message) :
    present x (ms ++ [m]) =
      if ms.any (·.joins x) then present x ms && !m.leaves x else m.joins x := by
  unfold present
  rw [afterJoin_concat]
  cases h : ms.any (·.joins x)
  · simp [h]
  · simp [h]

/-- A message is attended by those that are present when it is posted. -/
theorem attended_concat (x : String) (ms : List Message) (m : Message) :
    attended x (ms ++ [m]) =
      attended x ms ++ if present x ms && !m.leaves x then [m] else [] := by
  change (afterJoin x (ms ++ [m])).takeWhile _ = (afterJoin x ms).takeWhile _ ++ _
  rw [afterJoin_concat]
  unfold present
  cases h : ms.any (·.joins x)
  · simp [afterJoin_of_not_any h]
  · simp [takeWhile_concat]

/-- A client is meant to get a new message if it is present then. Its own connect is not meant for
it. -/
theorem filter_attended_concat {x : String} {ms : List Message} {m : Message}
    (h : m.joins x → m.isFor x = false) :
    (attended x (ms ++ [m])).filter (·.isFor x) =
      (attended x ms).filter (·.isFor x) ++
        if present x (ms ++ [m]) && m.isFor x then [m] else [] := by
  rw [attended_concat, present_concat, List.filter_append]
  congr 1
  cases hj : ms.any (·.joins x)
  · have hp : present x ms = false := by
      unfold present
      rw [hj]
      rfl
    cases hm : m.joins x
    · simp [hp]
    · simp [hp, h hm]
  · simp only [if_true]
    cases present x ms && !m.leaves x
    · rfl
    · cases hf : m.isFor x <;> simp [hf]

end ChatRelay
