import ChatRelay.Proofs.WrittenString
import ChatRelay.Json.Record

namespace ChatRelay.Json

/-- A text that is over, or goes on with what ends a value inside a list or an object. -/
def Ends (r : List UInt8) : Prop :=
  ∀ b ∈ r.head?, b = comma ∨ b = closeList ∨ b = closeObject

/-- The reader takes exactly `w` off the front of a text, for the value `a`. -/
def Reader.Reads {α : Type} (p : Reader α) (w : List UInt8) (a : α) : Prop :=
  ∀ r, Ends r → p.run (w ++ r) = .ok (a, r)

/-- Neither a blank nor the end of a list stands in front. -/
def Opens (w : List UInt8) : Prop :=
  ∃ b t, w = b :: t ∧ isBlank b = false ∧ b ≠ closeList

theorem Reader.Reads.map {α β : Type} {p : Reader α} {w : List UInt8} {a : α}
    (h : p.Reads w a) (f : α → β) : (p.map f).Reads w (f a) := by
  intro r hr
  change (p.run (w ++ r) >>= _) = _
  rw [h r hr]
  rfl

theorem Reader.Reads.whole {α : Type} {p : Reader α} {w : List UInt8} {a : α}
    (h : p.Reads w a) : p.whole w = .ok a := by
  have hw := h [] (by intro b hb; cases hb)
  rw [List.append_nil] at hw
  unfold Reader.whole
  rw [hw]
  rfl

theorem skipBlank_cons {b : UInt8} (h : isBlank b = false) (r : List UInt8) :
    skipBlank (b :: r) = b :: r := by
  simp [skipBlank, h]

theorem readString_writeString (s : String) (r : List UInt8) :
    readString (writeString s ++ r) = .ok (s, r) := by
  unfold readString writeString
  rw [List.append_assoc, List.cons_append, skipBlank_cons (by decide)]
  simp only [if_true, List.singleton_append]
  exact readBody_writeString s r

theorem string_reads (s : String) : string.Reads (writeString s) s :=
  fun r _ => readString_writeString s r

theorem opens_writeString (s : String) : Opens (writeString s) :=
  ⟨quoteMark, _, rfl, by decide, by decide⟩

/-- Between two parts there is a comma, so a comma stands before each part but the first. -/
theorem separated_cons (x : List UInt8) (xs : List (List UInt8)) :
    separated (x :: xs) = x ++ xs.flatMap (comma :: ·) := by
  induction xs generalizing x with
  | nil => simp [separated]
  | cons y ys ih => simp [separated, ih]

theorem nextItem_closeList (first : Bool) (r : List UInt8) :
    nextItem first (closeList :: r) = .ok (.done r) := by
  unfold nextItem
  rw [skipBlank_cons (by decide)]
  rfl

theorem nextItem_first {w : List UInt8} (h : Opens w) (r : List UInt8) :
    nextItem true (w ++ r) = .ok (.more (w ++ r)) := by
  obtain ⟨b, t, rfl, hb, hc⟩ := h
  unfold nextItem
  rw [List.cons_append, skipBlank_cons hb]
  simp only [hc, if_false, if_true]

theorem nextItem_comma {w : List UInt8} (h : Opens w) (r : List UInt8) :
    nextItem false (comma :: (w ++ r)) = .ok (.more (w ++ r)) := by
  obtain ⟨b, t, rfl, hb, hc⟩ := h
  unfold nextItem
  rw [skipBlank_cons (by decide), List.cons_append]
  simp [skipBlank_cons hb, hc, show comma ≠ closeList by decide]

theorem items_done {α : Type} {item : Reader α} {first : Bool} {read : List α}
    {s r : List UInt8} (hn : nextItem first s = .ok (.done r)) :
    items item first read s = .ok (read.reverse, r) := by
  rw [items]
  split <;> simp_all

theorem items_more {α : Type} {item : Reader α} {first : Bool} {read : List α} {a : α}
    {s t r : List UInt8} (hn : nextItem first s = .ok (.more t)) (hi : item.run t = .ok (a, r)) :
    items item first read s = items item false (a :: read) r := by
  rw [items]
  split <;> simp_all
  split <;> simp_all

/-- Items that have been written with commas between them are read one by one. -/
theorem items_flatMap {α : Type} {item : Reader α} {write : α → List UInt8}
    (hr : ∀ a, item.Reads (write a) a) (ho : ∀ a, Opens (write a)) (xs read : List α)
    (r : List UInt8) :
    items item false read ((xs.map write).flatMap (comma :: ·) ++ closeList :: r) =
      .ok (read.reverse ++ xs, r) := by
  induction xs generalizing read with
  | nil =>
    rw [List.append_nil]
    exact items_done (nextItem_closeList false r)
  | cons x xs ih =>
    have he : Ends ((xs.map write).flatMap (comma :: ·) ++ closeList :: r) := by
      cases xs <;> simp [Ends]
    rw [List.map_cons, List.flatMap_cons, List.append_assoc, List.cons_append,
      items_more (nextItem_comma (ho x) _) (hr x _ he), ih]
    simp

/-- A list is read back if its items are. -/
theorem list_reads {α : Type} {item : Reader α} {write : α → List UInt8}
    (hr : ∀ a, item.Reads (write a) a) (ho : ∀ a, Opens (write a)) (xs : List α) :
    (list item).Reads (writeList (xs.map write)) xs := by
  intro r _
  rw [show (list item).run = readList item from rfl]
  unfold readList writeList
  rw [List.append_assoc, List.cons_append, skipBlank_cons (by decide)]
  simp only [if_true, List.singleton_append]
  cases xs with
  | nil => exact items_done (nextItem_closeList true r)
  | cons x xs =>
    have he : Ends ((xs.map write).flatMap (comma :: ·) ++ closeList :: r) := by
      cases xs <;> simp [Ends]
    rw [List.map_cons, separated_cons, List.append_assoc,
      items_more (nextItem_first (ho x) _) (hr x _ he), items_flatMap hr ho]
    rfl

theorem afterColon_colonMark (r : List UInt8) : afterColon (colonMark :: r) = .ok r := by
  unfold afterColon
  rw [skipBlank_cons (by decide)]
  rfl

/-- An object with one member is read back as the alternative of its key. -/
theorem choice_reads {α : Type} {choices : List (Alternative α)} {x : Alternative α}
    {w : List UInt8} {a : α} {name : String} (hp : pick choices name = .ok x)
    (hx : x.content.Reads w a) : (choice choices).Reads (writeObject [writeMember name w]) a := by
  intro r _
  have hk (t : List UInt8) : onlyKey (writeString name ++ t) = .ok (name, t) := by
    unfold onlyKey writeString
    rw [List.append_assoc, List.cons_append, skipBlank_cons (by decide)]
    exact readBody_writeString name t
  have he : endChoice (closeObject :: r) = .ok r := by
    unfold endChoice
    rw [skipBlank_cons (by decide)]
    rfl
  rw [show (choice choices).run = readChoice choices from rfl]
  unfold readChoice writeObject writeMember separated
  simp only [List.append_assoc, List.cons_append]
  rw [skipBlank_cons (by decide)]
  simp only [show openObject ≠ quoteMark by decide, if_false, if_true]
  have hw : x.content.run (w ++ closeObject :: r) = .ok (a, closeObject :: r) :=
    hx _ (by simp [Ends])
  simp only [hk, hp, afterColon_colonMark, bind, Except.bind, List.nil_append, hw, he]
  rfl

theorem choice_reads_bare {α : Type} {choices : List (Alternative α)} {x : Alternative α}
    {a : α} {name : String} (hp : pick choices name = .ok x) (hx : x.bare = .ok a) :
    (choice choices).Reads (writeString name) a := by
  intro r _
  rw [show (choice choices).run = readChoice choices from rfl]
  unfold readChoice writeString
  rw [List.append_assoc, List.cons_append, skipBlank_cons (by decide)]
  simp only [if_true, List.singleton_append]
  rw [readBody_writeString]
  change (pick choices name >>= _) = _
  rw [hp]
  change (x.bare >>= _) = _
  rw [hx]
  rfl

namespace Record

variable {σ α : Type} {x : Record σ α} {draft : σ}

theorem members_done {first : Bool} {s r : List UInt8} (hn : nextKey first s = .ok (.done r)) :
    x.members first draft s = .ok (draft, r) := by
  rw [members]
  split <;> simp_all

theorem members_more {first : Bool} {s t u r : List UInt8} {key : String} {next : σ}
    (hn : nextKey first s = .ok (.more t)) (hk : readBody t = .ok (key, u))
    (hm : x.member draft key u = .ok (next, r)) :
    x.members first draft s = x.members false next r := by
  rw [members]
  split <;> simp_all
  split <;> simp_all
  split <;> simp_all

/-- A member sets its field, whatever stood before its key. -/
theorem members_member {first : Bool} {key : String} {s w r : List UInt8} {set : σ → σ}
    (hn : nextKey first s = .ok (.more
      ((Text.octets key).flatMap escaped ++ quoteMark :: colonMark :: (w ++ r))))
    (new : x.repeats draft key = false) (value : (x.valueOf key).Reads w set) (he : Ends r) :
    x.members first draft s = x.members false (set draft) r := by
  have hm : x.member draft key (colonMark :: (w ++ r)) = .ok (set draft, r) := by
    unfold member
    rw [new, afterColon_colonMark]
    change ((x.valueOf key).run (w ++ r) >>= _) = _
    rw [value r he]
    rfl
  exact members_more hn (readBody_writeString key _) hm

/-- From one draft of a record to another by members that each set a field for the first time. -/
inductive Fills (x : Record σ α) : σ → List (List UInt8) → σ → Prop where
  | nil (d : σ) : Fills x d [] d
  | cons {d e : σ} {key : String} {w : List UInt8} {set : σ → σ} {ws : List (List UInt8)}
      (new : x.repeats d key = false) (value : (x.valueOf key).Reads w set)
      (rest : Fills x (set d) ws e) : Fills x d (writeMember key w :: ws) e

theorem nextKey_closeObject (first : Bool) (r : List UInt8) :
    nextKey first (closeObject :: r) = .ok (.done r) := by
  unfold nextKey
  rw [skipBlank_cons (by decide)]
  rfl

theorem nextKey_first (r : List UInt8) : nextKey true (quoteMark :: r) = .ok (.more r) := by
  unfold nextKey
  rw [skipBlank_cons (by decide)]
  rfl

theorem nextKey_comma (r : List UInt8) :
    nextKey false (comma :: quoteMark :: r) = .ok (.more r) := by
  unfold nextKey
  rw [skipBlank_cons (by decide)]
  simp only [skipBlank_cons (show isBlank quoteMark = false by decide)]
  rfl

theorem ends_members (ws : List (List UInt8)) (r : List UInt8) :
    Ends (ws.flatMap (comma :: ·) ++ closeObject :: r) := by
  cases ws <;> simp [Ends]

theorem members_flatMap {out : σ} {ws : List (List UInt8)} (h : x.Fills draft ws out)
    (r : List UInt8) :
    x.members false draft (ws.flatMap (comma :: ·) ++ closeObject :: r) = .ok (out, r) := by
  induction h with
  | nil d => exact members_done (nextKey_closeObject false r)
  | @cons d e key w set ws new value rest ih =>
    simp only [List.flatMap_cons, writeMember, writeString, List.cons_append, List.append_assoc,
      List.nil_append]
    rw [members_member (nextKey_comma _) new value (ends_members ws r), ih]

/-- An object whose members fill a record is read back as that record. -/
theorem reads_writeObject {a : α} {out : σ} {ws : List (List UInt8)}
    (h : x.Fills x.blank ws out) (hf : x.finish out = .ok a) :
    x.reader.Reads (writeObject ws) a := by
  have hall (r : List UInt8) :
      x.members true x.blank (separated ws ++ closeObject :: r) = .ok (out, r) := by
    cases h with
    | nil d => exact members_done (nextKey_closeObject true r)
    | @cons d e key w set ws new value rest =>
      simp only [separated_cons, writeMember, writeString, List.cons_append, List.append_assoc,
        List.nil_append]
      rw [members_member (nextKey_first _) new value (ends_members ws r), members_flatMap rest]
  intro r _
  rw [show x.reader.run = x.read from rfl]
  unfold read writeObject
  rw [List.append_assoc, List.cons_append, skipBlank_cons (by decide)]
  simp only [show openObject ≠ openList by decide, if_false, if_true, List.singleton_append,
    hall, bind, Except.bind, hf]
  rfl

end Record

end ChatRelay.Json
