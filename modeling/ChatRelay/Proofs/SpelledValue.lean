import ChatRelay.Proofs.AnyValue

namespace ChatRelay.Json

theorem Reader.Takes.map {α β : Type} {p : Reader α} {w : List UInt8} {a : α}
    (h : p.Takes w a) (f : α → β) : (p.map f).Takes w (f a) := by
  intro u r hu hr
  change (p.run (u ++ (w ++ r)) >>= _) = _
  rw [h u r hu hr]
  rfl

/-- What comes of a whole text is what comes of its value, if only blanks follow it. -/
theorem Reader.whole_of_run {α : Type} {p : Reader α} {x : Except Fault α} {s b : List UInt8}
    (h : p.run s = x.map (·, b)) (hb : Blank b) : p.whole s = x := by
  unfold Reader.whole
  rw [h]
  cases x with
  | error e => rfl
  | ok a =>
    have hend : (skipBlank b).isEmpty := by
      rw [← List.append_nil b, hb.skip]
      rfl
    exact if_pos hend

theorem string_takes {s : String} {w : List UInt8} (h : SpellsString s w) : string.Takes w s := by
  obtain ⟨h⟩ := h
  intro u r hu _
  change readString _ = _
  unfold readString
  rw [List.cons_append, List.cons_append, hu.skip_cons (by decide), List.append_assoc]
  dsimp only
  rw [if_pos rfl]
  exact readBody_of_spellsChars h r

theorem null_takes : null.Takes (letters "null") () := by
  intro u r hu _
  change readNull (u ++ 0x6E :: (letters "ull" ++ r)) = _
  unfold readNull
  rw [hu.skip_cons (by decide)]
  dsimp only
  rw [if_pos rfl, word_append]
  rfl

theorem opens_of_spellsString {s : String} {w : List UInt8} (h : SpellsString s w) : Opens w := by
  obtain ⟨_⟩ := h
  exact ⟨quoteMark, _, rfl, by decide, by decide⟩

section Forms

variable {α β : Type} {P : α → List UInt8 → Prop} {Q : β → List UInt8 → Prop} {g : α → β}
  {xs : List α} {w : List UInt8}

theorem Padded.imp {P Q : List UInt8 → Prop} (h : Padded P w) (hpq : ∀ w, P w → Q w) :
    Padded Q w := by
  obtain ⟨ha, h, hb⟩ := h
  exact .mk ha (hpq _ h) hb

theorem Listed.map (h : Listed P xs w) (hpq : ∀ x w, P x w → Q (g x) w) :
    Listed Q (xs.map g) w := by
  induction h with
  | last h => exact .last (h.imp (hpq _))
  | more h _ ih => exact .more (h.imp (hpq _)) ih

theorem Enclosed.map {f : Frame} (h : Enclosed f P xs w) (hpq : ∀ x w, P x w → Q (g x) w) :
    Enclosed f Q (xs.map g) w := by
  cases h with
  | empty ha => exact .empty ha
  | filled h => exact .filled (h.map hpq)

theorem Padded.of {P : List UInt8 → Prop} (h : P w) : Padded P w := by
  have hpadded := Padded.mk blank_nil h blank_nil
  rwa [List.append_nil, List.nil_append] at hpadded

theorem Keyed.of {K V : List UInt8 → Prop} {k v : List UInt8} (hk : K k) (hv : V v) :
    Keyed K V (k ++ colonMark :: v) :=
  .mk hk blank_nil blank_nil hv

theorem listed_separated {write : α → List UInt8} {x : α} {xs : List α}
    (h : ∀ y ∈ x :: xs, P y (write y)) : Listed P (x :: xs) (separated ((x :: xs).map write)) := by
  induction xs generalizing x with
  | nil => exact .last (.of (h x List.mem_cons_self))
  | cons y ys ih =>
    obtain ⟨hx, hys⟩ := List.forall_mem_cons.mp h
    exact .more (.of hx) (ih hys)

/-- The compact form of a list or an object is one of its forms. -/
theorem enclosed_separated_of_mem {write : α → List UInt8} (f : Frame) {xs : List α}
    (h : ∀ x ∈ xs, P x (write x)) :
    Enclosed f P xs (f.opening :: (separated (xs.map write) ++ [f.closing])) := by
  cases xs with
  | nil => exact .empty blank_nil
  | cons x xs => exact .filled (listed_separated h)

theorem enclosed_separated {write : α → List UInt8} (f : Frame) (h : ∀ x, P x (write x))
    (xs : List α) : Enclosed f P xs (f.opening :: (separated (xs.map write) ++ [f.closing])) :=
  enclosed_separated_of_mem f fun x _ => h x

end Forms

inductive Lone (K V : List UInt8 → Prop) : List UInt8 → Prop where
  | mk {w : List UInt8} (h : Padded (Keyed K V) w) : Lone K V (openObject :: (w ++ [closeObject]))

section Choice

variable {α : Type} {choices : List (Alternative α)} {x : Alternative α} {a : α} {name : String}
  {w : List UInt8}

theorem choice_takes_bare (hp : pick choices name = .ok x) (hx : x.bare = .ok a)
    (h : SpellsString name w) : (choice choices).Takes w a := by
  obtain ⟨h⟩ := h
  intro u r hu _
  change readChoice choices _ = _
  unfold readChoice
  rw [List.cons_append, List.cons_append, hu.skip_cons (by decide), List.append_assoc]
  dsimp only
  rw [if_pos rfl, List.singleton_append, readBody_of_spellsChars h]
  change (pick choices name >>= _) = _
  rw [hp]
  change (x.bare >>= _) = _
  rw [hx]
  rfl

/-- An object of one member is taken for the alternative of its key. -/
theorem choice_takes {V : List UInt8 → Prop} (hp : pick choices name = .ok x)
    (hx : ∀ v, V v → x.content.Takes v a) (h : Lone (SpellsString name) V w) :
    (choice choices).Takes w a := by
  obtain @⟨_, ⟨hbefore, @⟨_, _, b, v, ⟨hkey⟩, hcolon, hb, hv⟩, hafter⟩⟩ := h
  intro u r hu _
  have hfirst := fun t => hbefore.skip_cons (b := quoteMark) (by decide) t
  have hlast := hafter.skip_cons (b := closeObject) (by decide) r
  have hend : Apart (closeObject :: r) := apart_closing .object r
  have hcontent := hx v hv b _ hb (hafter.apart hend)
  change readChoice choices _ = _
  unfold readChoice
  simp only [List.cons_append, List.append_assoc, List.nil_append]
  rw [hu.skip_cons (by decide)]
  dsimp only
  rw [if_neg (by decide), if_pos rfl]
  unfold onlyKey
  rw [hfirst]
  dsimp only
  rw [if_pos rfl, readBody_of_spellsChars hkey]
  change (pick choices name >>= _) = _
  rw [hp]
  change (afterColon _ >>= _) = _
  rw [afterColon_blank hcolon]
  change (x.content.run _ >>= _) = _
  rw [hcontent]
  change (endChoice _ >>= _) = _
  unfold endChoice
  rw [hlast]
  rfl

end Choice

/-- A comma between two parts leads to the second as the opening of the list would. -/
theorem nextItem_after {a s t : List UInt8} {c : UInt8} (ha : Blank a)
    (hs : skipBlank s = c :: t) (hc : c ≠ closeList) :
    nextItem false (a ++ comma :: s) = nextItem true s := by
  unfold nextItem
  rw [ha.skip_cons (by decide), hs]
  simp [hc, hs, show comma ≠ closeList by decide]

theorem nextItem_opens {a v : List UInt8} (ha : Blank a) (hv : Opens v) (r : List UInt8) :
    nextItem true (a ++ (v ++ r)) = .ok (.more (v ++ r)) := by
  obtain ⟨b, t, rfl, hb, hc⟩ := hv
  unfold nextItem
  rw [List.cons_append, ha.skip_cons hb]
  simp [hc]

theorem nextItem_end {a : List UInt8} (ha : Blank a) (first : Bool) (r : List UInt8) :
    nextItem first (a ++ closeList :: r) = .ok (.done r) := by
  unfold nextItem
  rw [ha.skip_cons (by decide)]
  rfl

section List

variable {α : Type} {item : Reader α} {P : α → List UInt8 → Prop} {xs read : List α}
  {s w : List UInt8} {first : Bool}

/-- All items of a list are read, wherever something leads to the first of them. -/
theorem items_listed (h : Listed P xs w) (hp : ∀ x ∈ xs, ∀ v, P x v → item.Takes v x ∧ Opens v)
    (r : List UInt8) (hn : nextItem first s = nextItem true (w ++ closeList :: r)) :
    items item first read s = .ok (read.reverse ++ xs, r) := by
  induction h generalizing first read s with
  | last h =>
    obtain ⟨ha, hv, hb⟩ := h
    obtain ⟨htakes, hopens⟩ := hp _ List.mem_cons_self _ hv
    rw [List.append_assoc, List.append_assoc, nextItem_opens ha hopens] at hn
    rw [items_more hn (htakes [] _ blank_nil (hb.apart (apart_closing .list r))),
      items_done (nextItem_end hb false r), List.reverse_cons]
  | @more x xs v w h hs ih =>
    obtain ⟨ha, hv, hb⟩ := h
    obtain ⟨htakes, hopens⟩ := hp _ List.mem_cons_self _ hv
    have hrest := fun y hy => hp y (List.mem_cons_of_mem _ hy)
    obtain ⟨c, t, hc, hne⟩ := head_of_listed hs (fun y hy v hv => (hrest y hy v hv).2)
      (closeList :: r)
    simp only [List.append_assoc, List.cons_append] at hn
    rw [nextItem_opens ha hopens] at hn
    rw [items_more hn (htakes [] _ blank_nil (hb.apart (apart_comma (w ++ closeList :: r)))),
      ih hrest (nextItem_after hb hc hne), List.reverse_cons, List.append_assoc,
      List.singleton_append]

/-- A list takes its items in any spelling, with blanks around each. -/
theorem list_takes (h : Enclosed .list P xs w)
    (hp : ∀ x ∈ xs, ∀ v, P x v → item.Takes v x ∧ Opens v) : (list item).Takes w xs := by
  intro u r hu _
  change readList item _ = _
  unfold readList
  cases h with
  | empty ha =>
    simp only [List.cons_append, List.append_assoc, List.nil_append]
    rw [hu.skip_cons (Frame.isBlank_opening .list)]
    exact items_done (nextItem_end ha true r)
  | filled h =>
    simp only [List.cons_append, List.append_assoc, List.nil_append]
    rw [hu.skip_cons (Frame.isBlank_opening .list)]
    exact items_listed h hp r rfl

end List

theorem nextKey_after {a s t : List UInt8} (ha : Blank a) (hs : skipBlank s = quoteMark :: t) :
    nextKey false (a ++ comma :: s) = nextKey true s := by
  unfold nextKey
  rw [ha.skip_cons (by decide), hs]
  simp [hs, show comma ≠ closeObject by decide, show quoteMark ≠ closeObject by decide]

theorem nextKey_opens {a : List UInt8} (ha : Blank a) (r : List UInt8) :
    nextKey true (a ++ quoteMark :: r) = .ok (.more r) := by
  unfold nextKey
  rw [ha.skip_cons (by decide)]
  rfl

theorem nextKey_end {a : List UInt8} (ha : Blank a) (first : Bool) (r : List UInt8) :
    nextKey first (a ++ closeObject :: r) = .ok (.done r) := by
  unfold nextKey
  rw [ha.skip_cons (by decide)]
  rfl

namespace Record

variable {σ α : Type} {x : Record σ α} {draft : σ}

/-- Sets what the keys stand for, one after the other, up to a field that is set already. -/
def fill (x : Record σ α) (draft : σ) : List (String × (σ → σ)) → Except Fault σ
  | [] => .ok draft
  | (key, set) :: members =>
    if x.repeats draft key then .error (.duplicateField key) else x.fill (set draft) members

theorem fill_cons (m : String × (σ → σ)) (ms : List (String × (σ → σ))) :
    x.fill draft (m :: ms) =
      if x.repeats draft m.1 then .error (.duplicateField m.1) else x.fill (m.2 draft) ms := rfl

def SpellsMember (x : Record σ α) (m : String × (σ → σ)) : List UInt8 → Prop :=
  Keyed (SpellsString m.1) fun v => (x.valueOf m.1).Takes v m.2

theorem members_repeats {first : Bool} {s t u : List UInt8} {key : String}
    (hn : nextKey first s = .ok (.more t)) (hk : readBody t = .ok (key, u))
    (hm : x.repeats draft key = true) :
    x.members first draft s = .error (.duplicateField key) := by
  have hm : x.member draft key u = .error (.duplicateField key) := if_pos hm
  rw [members]
  split <;> simp_all
  split <;> simp_all
  split <;> simp_all

/-- One member is read, and what follows it decides about the rest. -/
theorem members_spelled {m : String × (σ → σ)} {a w s r : List UInt8} {first : Bool}
    (ha : Blank a) (h : x.SpellsMember m w) (hr : Apart r)
    (hn : nextKey first s = nextKey true (a ++ (w ++ r))) :
    x.members first draft s =
      if x.repeats draft m.1 then .error (.duplicateField m.1)
      else x.members false (m.2 draft) r := by
  obtain @⟨_, b, c, v, ⟨hkey⟩, hb, hc, hv⟩ := h
  simp only [List.cons_append, List.append_assoc, List.nil_append] at hn
  rw [nextKey_opens ha] at hn
  have hk := readBody_of_spellsChars hkey (b ++ colonMark :: (c ++ (v ++ r)))
  split
  · exact members_repeats hn hk ‹_›
  · have hm : x.member draft m.1 (b ++ colonMark :: (c ++ (v ++ r))) = .ok (m.2 draft, r) := by
      unfold member
      rw [if_neg ‹_›, afterColon_blank hb]
      change ((x.valueOf m.1).run (c ++ (v ++ r)) >>= _) = _
      rw [hv c r hc hr]
      rfl
    exact members_more hn hk hm

/-- The members of an object fill the record one by one, up to the first that repeats a field. What
follows them decides about the rest. -/
theorem members_listed {ms : List (String × (σ → σ))} {first : Bool} {s w r : List UInt8}
    (h : Listed x.SpellsMember ms w) (hr : Apart r)
    (hn : nextKey first s = nextKey true (w ++ r)) :
    ∃ b, Blank b ∧
      x.members first draft s = (x.fill draft ms >>= fun d => x.members false d (b ++ r)) := by
  induction h generalizing first draft s with
  | @last m _ h =>
    obtain @⟨_, _, b, ha, hv, hb⟩ := h
    rw [List.append_assoc, List.append_assoc] at hn
    refine ⟨b, hb, ?_⟩
    rw [members_spelled ha hv (hb.apart hr) hn, fill_cons]
    split <;> rfl
  | @more m ms v w h hs ih =>
    obtain ⟨ha, hv, hb⟩ := h
    obtain ⟨_, t, hc, rfl⟩ := head_of_listed (Q := (· = quoteMark)) hs
      (by rintro _ _ _ ⟨⟨_⟩, _, _, _⟩; exact ⟨_, _, rfl, by decide, rfl⟩) r
    simp only [List.append_assoc, List.cons_append] at hn
    obtain ⟨b, hblank, hrest⟩ := ih (nextKey_after hb hc)
    refine ⟨b, hblank, ?_⟩
    rw [members_spelled ha hv (hb.apart (apart_comma (w ++ r))) hn, hrest, fill_cons]
    split <;> rfl

/-- Blanks and the mark that opens an object lead to its members. -/
theorem run_openObject {u : List UInt8} (hu : Blank u) (s : List UInt8) :
    x.reader.run (u ++ openObject :: s) = (do
      let (d, r) ← x.members true x.blank s
      return (← x.finish d, r)) := by
  change x.read _ = _
  unfold read
  rw [hu.skip_cons (by decide)]
  dsimp only
  rw [if_neg (by decide), if_pos rfl]

/-- What comes of an object whose members have values that the record takes. -/
theorem run_object {ms : List (String × (σ → σ))} {u w : List UInt8}
    (h : Enclosed .object x.SpellsMember ms w) (hu : Blank u) (r : List UInt8) :
    x.reader.run (u ++ (w ++ r)) =
      (x.fill x.blank ms >>= x.finish).map (·, r) := by
  have hmembers : ∃ t, w ++ r = openObject :: t ∧
      x.members true x.blank t = (x.fill x.blank ms).map (·, r) := by
    cases h with
    | @empty a ha =>
      refine ⟨a ++ closeObject :: r, ?_, members_done (nextKey_end ha true r)⟩
      simp [Frame.opening, Frame.closing]
    | @filled _ w h =>
      refine ⟨w ++ closeObject :: r, by simp [Frame.opening, Frame.closing], ?_⟩
      obtain ⟨b, hb, hdone⟩ : ∃ b, Blank b ∧ x.members true x.blank (w ++ closeObject :: r) =
          (x.fill x.blank ms >>= fun d => x.members false d (b ++ closeObject :: r)) :=
        members_listed h (apart_closing .object r) rfl
      rw [hdone]
      cases x.fill x.blank ms with
      | error e => rfl
      | ok d => exact members_done (nextKey_end hb false r)
  obtain ⟨t, ht, hdone⟩ := hmembers
  rw [ht, run_openObject hu, hdone]
  cases hfill : x.fill x.blank ms with
  | error e => rfl
  | ok d =>
    change (x.finish d >>= _) = (x.finish d).map _
    cases x.finish d <;> rfl

/-- The key of a field that is set already ends the reading, whatever follows it. -/
theorem run_repeats {ms : List (String × (σ → σ))} {u w a k : List UInt8} {d : σ} {key : String}
    (hu : Blank u) (h : Listed x.SpellsMember ms w) (hd : x.fill x.blank ms = .ok d)
    (ha : Blank a) (hk : SpellsString key k) (hm : x.repeats d key = true) (r : List UInt8) :
    x.reader.run (u ++ openObject :: (w ++ comma :: (a ++ (k ++ r)))) =
      .error (.duplicateField key) := by
  obtain @⟨k, hkey⟩ := hk
  have hread := readBody_of_spellsChars hkey r
  rw [show quoteMark :: k ++ [quoteMark] ++ r = quoteMark :: (k ++ quoteMark :: r) by simp]
  obtain ⟨b, hb, hdone⟩ : ∃ b, Blank b ∧
      x.members true x.blank (w ++ comma :: (a ++ quoteMark :: (k ++ quoteMark :: r))) =
        (x.fill x.blank ms >>= fun d =>
          x.members false d (b ++ comma :: (a ++ quoteMark :: (k ++ quoteMark :: r)))) :=
    members_listed h (apart_comma _) rfl
  have hnext := nextKey_after hb (ha.skip_cons (by decide) (k ++ quoteMark :: r))
  rw [nextKey_opens ha] at hnext
  rw [run_openObject hu, hdone, hd]
  change (x.members false d _ >>= _) = _
  rw [members_repeats hnext hread hm]
  rfl

/-- A field, and an item of a list that it takes for a change to the record. -/
def SpellsItem (m : Field σ × (σ → σ)) (w : List UInt8) : Prop :=
  m.1.value.Takes w m.2 ∧ Opens w

theorem elements_more {i : Nat} {f : Field σ} {fields : List (Field σ)} {set : σ → σ}
    {s t r : List UInt8} (hn : nextItem (i = 0) s = .ok (.more t))
    (hi : f.value.run t = .ok (set, r)) :
    x.elements i draft (f :: fields) s = x.elements (i + 1) (set draft) fields r := by
  rw [elements]
  split <;> simp_all

/-- The items of a list fill the fields in order, up to the end of the list. -/
theorem elements_listed {ms : List (Field σ × (σ → σ))} {i : Nat} {s w : List UInt8}
    (h : Listed SpellsItem ms w) (r : List UInt8)
    (hn : nextItem (i = 0) s = nextItem true (w ++ closeList :: r)) :
    ∃ b, Blank b ∧ x.elements i draft (ms.map (·.1)) s =
      .ok (ms.foldl (fun d m => m.2 d) draft, b ++ closeList :: r) := by
  induction h generalizing i draft s with
  | last h =>
    obtain @⟨_, v, b, ha, ⟨htakes, hopens⟩, hb⟩ := h
    rw [List.append_assoc, List.append_assoc, nextItem_opens ha hopens] at hn
    exact ⟨b, hb, elements_more hn (htakes [] _ blank_nil (hb.apart (apart_closing .list r)))⟩
  | @more m ms v w h hs ih =>
    obtain @⟨_, v, b, ha, ⟨htakes, hopens⟩, hb⟩ := h
    obtain ⟨c, t, hc, hne⟩ := head_of_listed hs (fun _ _ _ hv => hv.2) (closeList :: r)
    simp only [List.append_assoc, List.cons_append] at hn
    rw [nextItem_opens ha hopens] at hn
    obtain ⟨b', hb', hdone⟩ : ∃ b', Blank b' ∧
        x.elements (i + 1) (m.2 draft) (ms.map (·.1)) (b ++ comma :: (w ++ closeList :: r)) =
          .ok (ms.foldl (fun d m => m.2 d) (m.2 draft), b' ++ closeList :: r) :=
      ih (nextItem_after hb hc hne)
    refine ⟨b', hb', ?_⟩
    have hnext := htakes [] _ blank_nil (hb.apart (apart_comma (w ++ closeList :: r)))
    exact (elements_more hn hnext).trans hdone

/-- A list with an item for each field is taken for the record that they make. -/
theorem takes_list {ms : List (Field σ × (σ → σ))} {a : α} {w : List UInt8}
    (h : Enclosed .list SpellsItem ms w) (hfields : ms.map (·.1) = x.fields)
    (hne : ms ≠ []) (hf : x.finish (ms.foldl (fun d m => m.2 d) x.blank) = .ok a) :
    x.reader.Takes w a := by
  intro u r hu _
  cases h with
  | empty _ => exact absurd rfl hne
  | @filled _ w h =>
    obtain ⟨b, hb, hdone⟩ : ∃ b, Blank b ∧
        x.elements 0 x.blank (ms.map (·.1)) (w ++ closeList :: r) =
          .ok (ms.foldl (fun d m => m.2 d) x.blank, b ++ closeList :: r) :=
      elements_listed h r rfl
    rw [hfields] at hdone
    have hend : endItems (b ++ closeList :: r) = .ok r := by
      unfold endItems
      rw [hb.skip_cons (by decide)]
      rfl
    change x.read _ = _
    unfold read
    simp only [List.cons_append, List.append_assoc, List.nil_append]
    rw [hu.skip_cons (Frame.isBlank_opening .list)]
    change (x.elements 0 x.blank x.fields (w ++ closeList :: r) >>= _) = _
    rw [hdone]
    change (x.finish _ >>= _) = _
    rw [hf]
    change (endItems _ >>= _) = _
    rw [hend]
    rfl

end Record

end ChatRelay.Json
