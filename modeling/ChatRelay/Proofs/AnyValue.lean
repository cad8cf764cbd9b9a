import ChatRelay.Proofs.SpelledString
import ChatRelay.Proofs.WrittenValue

namespace ChatRelay.Json

def Blank (w : List UInt8) : Prop := ∀ b ∈ w, isBlank b = true

instance (w : List UInt8) : Decidable (Blank w) :=
  List.decidableBAll (isBlank · = true) w

/-- A text that is over, or goes on with what may follow a value. -/
def Apart (r : List UInt8) : Prop :=
  ∀ b ∈ r.head?, isBlank b = true ∨ b = comma ∨ b = closeList ∨ b = closeObject

namespace Frame

def opening : Frame → UInt8
  | list => openList
  | object => openObject

theorem ofOpening?_opening (f : Frame) : ofOpening? f.opening = some f := by
  cases f <;> rfl

theorem isBlank_opening (f : Frame) : isBlank f.opening = false := by
  cases f <;> decide

theorem isBlank_closing (f : Frame) : isBlank f.closing = false := by
  cases f <;> decide

end Frame

inductive Padded (P : List UInt8 → Prop) : List UInt8 → Prop where
  | mk {a w b : List UInt8} (ha : Blank a) (h : P w) (hb : Blank b) : Padded P (a ++ (w ++ b))

inductive Listed {α : Type} (P : α → List UInt8 → Prop) : List α → List UInt8 → Prop where
  | last {x : α} {w : List UInt8} (h : Padded (P x) w) : Listed P [x] w
  | more {x : α} {xs : List α} {v w : List UInt8} (h : Padded (P x) v) (hs : Listed P xs w) :
      Listed P (x :: xs) (v ++ comma :: w)

/-- What a frame encloses: nothing, or some parts. -/
inductive Enclosed {α : Type} (f : Frame) (P : α → List UInt8 → Prop) :
    List α → List UInt8 → Prop where
  | empty {a : List UInt8} (ha : Blank a) : Enclosed f P [] (f.opening :: (a ++ [f.closing]))
  | filled {xs : List α} {w : List UInt8} (h : Listed P xs w) :
      Enclosed f P xs (f.opening :: (w ++ [f.closing]))

inductive Keyed (K V : List UInt8 → Prop) : List UInt8 → Prop where
  | mk {k a b v : List UInt8} (hk : K k) (ha : Blank a) (hb : Blank b) (hv : V v) :
      Keyed K V (k ++ (a ++ colonMark :: (b ++ v)))

theorem blank_nil : Blank [] := List.forall_mem_nil _

theorem Blank.skip {w : List UInt8} (h : Blank w) (r : List UInt8) :
    skipBlank (w ++ r) = skipBlank r := by
  induction w with
  | nil => rfl
  | cons b w ih =>
    rw [← ih fun b hb => h b (List.mem_cons_of_mem _ hb)]
    exact List.dropWhile_cons_of_pos (h b List.mem_cons_self)

theorem Blank.skip_cons {a : List UInt8} {b : UInt8} (ha : Blank a) (hb : isBlank b = false)
    (r : List UInt8) : skipBlank (a ++ b :: r) = b :: r := by
  rw [ha.skip, skipBlank_cons hb]

theorem Blank.apart {w r : List UInt8} (h : Blank w) (hr : Apart r) : Apart (w ++ r) := by
  cases w with
  | nil => exact hr
  | cons b w =>
    intro c hc
    cases hc
    exact .inl (h b List.mem_cons_self)

theorem apart_comma (r : List UInt8) : Apart (comma :: r) := by
  rintro b ⟨⟩
  exact .inr (.inl rfl)

theorem apart_closing (f : Frame) (r : List UInt8) : Apart (f.closing :: r) := by
  cases f with
  | list =>
    rintro b ⟨⟩
    exact .inr (.inr (.inl rfl))
  | object =>
    rintro b ⟨⟩
    exact .inr (.inr (.inr rfl))

/-- The first of some parts stands in front of all that follows. -/
theorem head_of_listed {α : Type} {P : α → List UInt8 → Prop} {Q : UInt8 → Prop} {xs : List α}
    {w : List UInt8} (h : Listed P xs w)
    (hp : ∀ x ∈ xs, ∀ v, P x v → ∃ c t, v = c :: t ∧ isBlank c = false ∧ Q c) (r : List UInt8) :
    ∃ c t, skipBlank (w ++ r) = c :: t ∧ Q c := by
  have hpadded {x : α} {v : List UInt8} (h : Padded (P x) v) (hx : x ∈ xs) (r : List UInt8) :
      ∃ c t, skipBlank (v ++ r) = c :: t ∧ Q c := by
    obtain @⟨a, v, b, ha, hv, hb⟩ := h
    obtain ⟨c, t, rfl, hblank, hc⟩ := hp x hx _ hv
    refine ⟨c, t ++ (b ++ r), ?_, hc⟩
    rw [List.append_assoc, List.append_assoc, List.cons_append]
    exact ha.skip_cons hblank _
  cases h with
  | last h => exact hpadded h List.mem_cons_self r
  | more h _ =>
    rw [List.append_assoc]
    exact hpadded h List.mem_cons_self _

theorem opens_of_enclosed {α : Type} {f : Frame} {P : α → List UInt8 → Prop} {xs : List α}
    {w : List UInt8} (h : Enclosed f P xs w) : Opens w := by
  have hopen : f.opening ≠ closeList := by cases f <;> decide
  cases h with
  | empty _ => exact ⟨_, _, rfl, f.isBlank_opening, hopen⟩
  | filled _ => exact ⟨_, _, rfl, f.isBlank_opening, hopen⟩

theorem afterColon_blank {a : List UInt8} (ha : Blank a) (r : List UInt8) :
    afterColon (a ++ colonMark :: r) = .ok r := by
  unfold afterColon
  rw [ha.skip_cons (by decide)]
  rfl

/-- No digit of a number goes on here. -/
def Halts (r : List UInt8) : Prop := ∀ b ∈ r.head?, isDigit b = false

theorem Apart.octet {r : List UInt8} {b : UInt8} (h : Apart r) (hb : b ∈ r.head?) :
    isDigit b = false ∧ b ≠ point ∧ b ≠ 0x65 ∧ b ≠ 0x45 := by
  have hblank : isBlank b = true → b = 0x20 ∨ b = 0x09 ∨ b = 0x0A ∨ b = 0x0D := by
    intro hb
    simpa [isBlank, or_assoc] using hb
  rcases h b hb with h | rfl | rfl | rfl
  · rcases hblank h with rfl | rfl | rfl | rfl <;> decide
  · decide
  · decide
  · decide

inductive IsDigits : List UInt8 → Prop where
  | mk {b : UInt8} {w : List UInt8} (hb : isDigit b = true) (hw : ∀ c ∈ w, isDigit c = true) :
      IsDigits (b :: w)

/-- The digits before the point do not start with a zero, unless this is all. -/
inductive IsWhole : List UInt8 → Prop where
  | zero : IsWhole [0x30]
  | positive {b : UInt8} {w : List UInt8} (hb : isDigit b = true) (h0 : b ≠ 0x30)
      (hw : ∀ c ∈ w, isDigit c = true) : IsWhole (b :: w)

inductive IsFraction : List UInt8 → Prop where
  | none : IsFraction []
  | some {w : List UInt8} (h : IsDigits w) : IsFraction (point :: w)

inductive IsExponent : List UInt8 → Prop where
  | none : IsExponent []
  | some {b : UInt8} {s w : List UInt8} (hb : b = 0x65 ∨ b = 0x45)
      (hs : s = [] ∨ s = [0x2B] ∨ s = [minus]) (h : IsDigits w) : IsExponent (b :: (s ++ w))

inductive IsNumber : List UInt8 → Prop where
  | mk {s w f e : List UInt8} (hs : s = [] ∨ s = [minus]) (hw : IsWhole w) (hf : IsFraction f)
      (he : IsExponent e) : IsNumber (s ++ (w ++ (f ++ e)))

inductive SpellsSign : Bool → List UInt8 → Prop where
  | positive : SpellsSign false []
  | negative : SpellsSign true [minus]

inductive SpellsFraction : List UInt8 → List UInt8 → Prop where
  | none : SpellsFraction [] []
  | some {w : List UInt8} (h : IsDigits w) : SpellsFraction w (point :: w)

inductive SpellsExponent : Option Int → List UInt8 → Prop where
  | none : SpellsExponent .none []
  | positive {b : UInt8} {s w : List UInt8} (hb : b = 0x65 ∨ b = 0x45) (hs : s = [] ∨ s = [0x2B])
      (h : IsDigits w) : SpellsExponent (.some (Numeral.decimalValue w)) (b :: (s ++ w))
  | negative {b : UInt8} {w : List UInt8} (hb : b = 0x65 ∨ b = 0x45) (h : IsDigits w) :
      SpellsExponent (.some (-Numeral.decimalValue w)) (b :: minus :: w)

/-- The ways to spell a number, from its sign to its exponent. -/
inductive SpellsNumeral (x : Numeral) : List UInt8 → Prop where
  | mk {s f e : List UInt8} (hs : SpellsSign x.negative s) (hw : IsWhole x.whole)
      (hf : SpellsFraction x.fraction f) (he : SpellsExponent x.exponent e) :
      SpellsNumeral x (s ++ (x.whole ++ (f ++ e)))

/-- What has the form of a number is the spelling of one. -/
theorem isNumber_iff {w : List UInt8} : IsNumber w ↔ ∃ x, SpellsNumeral x w := by
  constructor
  · rintro @⟨s, w, f, e, hs, hw, hf, he⟩
    obtain ⟨negative, hs⟩ : ∃ negative, SpellsSign negative s := by
      rcases hs with rfl | rfl
      · exact ⟨_, .positive⟩
      · exact ⟨_, .negative⟩
    obtain ⟨ds, hf⟩ : ∃ ds, SpellsFraction ds f := by
      cases hf with
      | none => exact ⟨_, .none⟩
      | some h => exact ⟨_, .some h⟩
    obtain ⟨k, he⟩ : ∃ k, SpellsExponent k e := by
      cases he with
      | none => exact ⟨_, .none⟩
      | some hb hs h =>
        rcases hs with hs | hs | rfl
        · exact ⟨_, .positive hb (.inl hs) h⟩
        · exact ⟨_, .positive hb (.inr hs) h⟩
        · exact ⟨_, .negative hb h⟩
    exact ⟨⟨negative, w, ds, k⟩, .mk hs hw hf he⟩
  · rintro ⟨⟨negative, w, ds, k⟩, @⟨s, f, e, hs, hw, hf, he⟩⟩
    have hsign : s = [] ∨ s = [minus] := by
      cases hs with
      | positive => exact .inl rfl
      | negative => exact .inr rfl
    have hfraction : IsFraction f := by
      cases hf with
      | none => exact .none
      | some h => exact .some h
    have hexponent : IsExponent e := by
      cases he with
      | none => exact .none
      | positive hb hplus h => exact .some hb (hplus.imp_right .inl) h
      | negative hb h => exact .some hb (.inr (.inr rfl)) h
    exact .mk hsign hw hfraction hexponent

namespace Numeral

variable {atEnd : Fault}

theorem digits_of_isDigits {w r : List UInt8} (h : IsDigits w) (hr : Halts r) :
    digits atEnd (w ++ r) = .ok (w, r) := by
  obtain ⟨hb, hw⟩ := h
  have hnone : r.takeWhile isDigit = [] ∧ r.dropWhile isDigit = r := by
    cases r with
    | nil => exact ⟨rfl, rfl⟩
    | cons c r =>
      have hc := hr c rfl
      exact ⟨List.takeWhile_cons_of_neg (by simp [hc]), List.dropWhile_cons_of_neg (by simp [hc])⟩
  rw [List.cons_append]
  unfold digits
  dsimp only
  rw [if_pos hb, List.takeWhile_append_of_pos hw, List.dropWhile_append_of_pos hw, hnone.1,
    hnone.2, List.append_nil]

theorem isDigits_of_isWhole {w : List UInt8} (h : IsWhole w) : IsDigits w := by
  cases h with
  | zero => exact .mk (by decide) (List.forall_mem_nil _)
  | positive hb _ hw => exact .mk hb hw

theorem wholePart_of_isWhole {w r : List UInt8} (h : IsWhole w) (hr : Halts r) :
    wholePart atEnd (w ++ r) = .ok (w, r) := by
  unfold wholePart
  rw [digits_of_isDigits (isDigits_of_isWhole h) hr]
  cases h with
  | zero => rfl
  | @positive b w _ h0 _ =>
    split
    · rename_i heq
      cases heq
      exact absurd rfl h0
    · rfl

theorem fractionPart_of_spells {ds f r : List UInt8} (h : SpellsFraction ds f) (hr : Halts r)
    (hpoint : ∀ b ∈ r.head?, b ≠ point) : fractionPart atEnd (f ++ r) = .ok (ds, r) := by
  cases h with
  | none =>
    cases r with
    | nil => rfl
    | cons b r => exact if_neg (hpoint b rfl)
  | some h => exact digits_of_isDigits h hr

/-- No digit is a sign. -/
theorem not_sign_of_isDigit {b : UInt8} (hb : isDigit b = true) : b ≠ 0x2B ∧ b ≠ minus := by
  constructor
  · rintro rfl
    exact absurd hb (by decide)
  · rintro rfl
    exact absurd hb (by decide)

theorem exponentPart_of_spells {k : Option Int} {e r : List UInt8} (h : SpellsExponent k e)
    (hr : Apart r) : exponentPart atEnd (e ++ r) = .ok (k, r) := by
  have hdigits {w : List UInt8} (h : IsDigits w) : digits atEnd (w ++ r) = .ok (w, r) :=
    digits_of_isDigits h fun b hb => (hr.octet hb).1
  cases h with
  | none =>
    cases r with
    | nil => rfl
    | cons b r =>
      obtain ⟨_, _, he, hE⟩ := hr.octet (b := b) rfl
      exact if_neg (by simp [he, hE])
  | @positive b s w hb hs h =>
    have hsign : exponentSign (s ++ (w ++ r)) = (false, w ++ r) := by
      obtain ⟨hc, _⟩ := h
      obtain ⟨hplus, hminus⟩ := not_sign_of_isDigit hc
      rcases hs with rfl | rfl
      · simp [exponentSign, sign, hplus, hminus]
      · rfl
    rw [List.cons_append, List.append_assoc]
    unfold exponentPart
    dsimp only
    rw [if_pos hb, hsign, hdigits h]
    rfl
  | @negative b w hb h =>
    rw [List.cons_append, List.cons_append]
    unfold exponentPart
    dsimp only
    rw [if_pos hb, show exponentSign (minus :: (w ++ r)) = (true, w ++ r) from rfl, hdigits h]
    rfl

theorem sign_of_spells {negative : Bool} {s w : List UInt8} (hs : SpellsSign negative s)
    (h : IsWhole w) (r : List UInt8) : sign (s ++ (w ++ r)) = (negative, w ++ r) := by
  cases hs with
  | positive =>
    obtain ⟨hb, _⟩ := isDigits_of_isWhole h
    simp [sign, (not_sign_of_isDigit hb).2]
  | negative => rfl

/-- A number is read to its end, where something stands that cannot continue it. -/
theorem scan_of_spells {x : Numeral} {w r : List UInt8} (h : SpellsNumeral x w) (hr : Apart r) :
    scan atEnd (w ++ r) = .ok (x, r) := by
  obtain ⟨negative, v, ds, k⟩ := x
  obtain @⟨s, f, e, hs, hw, hf, he⟩ := h
  have hexponent : ∀ b ∈ (e ++ r).head?, isDigit b = false ∧ b ≠ point := by
    have hmark {b : UInt8} {t : List UInt8} (hb : b = 0x65 ∨ b = 0x45) :
        ∀ c ∈ (b :: t).head?, isDigit c = false ∧ c ≠ point := by
      rintro c ⟨⟩
      rcases hb with rfl | rfl <;> decide
    cases he with
    | none => exact fun b hb => ⟨(hr.octet hb).1, (hr.octet hb).2.1⟩
    | positive hb => exact hmark hb
    | negative hb => exact hmark hb
  have hfraction : Halts (f ++ (e ++ r)) := by
    cases hf with
    | none => exact fun b hb => (hexponent b hb).1
    | some _ =>
      rintro b ⟨⟩
      decide
  unfold scan
  simp only [List.append_assoc]
  rw [sign_of_spells hs hw, wholePart_of_isWhole hw hfraction]
  change (fractionPart atEnd (f ++ (e ++ r)) >>= _) = _
  rw [fractionPart_of_spells hf (fun b hb => (hexponent b hb).1) fun b hb => (hexponent b hb).2]
  change (exponentPart atEnd (e ++ r) >>= _) = _
  rw [exponentPart_of_spells he hr]
  rfl

end Numeral

/-- What may stand between the quotes of a string, unpaired surrogates among it. -/
inductive IsStringBody : List UInt8 → Prop where
  | nil : IsStringBody []
  | plain {b : UInt8} {w : List UInt8} (hb : IsPlain b) (h : IsStringBody w) :
      IsStringBody (b :: w)
  | letter {c : Char} {b : UInt8} {w : List UInt8} (hb : (c, b) ∈ letterEscapes)
      (h : IsStringBody w) : IsStringBody (backslash :: b :: w)
  | number {n : Nat} {v w : List UInt8} (hv : IsFourHex n v) (h : IsStringBody w) :
      IsStringBody (numbered v ++ w)

/-- A string is passed over to its closing quote, also where it spells no text. -/
theorem skipString_of_isStringBody {w : List UInt8} (h : IsStringBody w) (r : List UInt8) :
    skipString (w ++ quoteMark :: r) = .ok r := by
  induction h with
  | nil =>
    rw [List.nil_append, skipString.eq_def]
    rfl
  | plain hb _ ih =>
    obtain ⟨hc, hq, hb⟩ := hb
    rw [List.cons_append, skipString.eq_def]
    simp only [hq, hb, hc, if_false]
    exact ih
  | letter hb _ ih =>
    obtain ⟨x, hx, _⟩ := Option.map_eq_some_iff.mp (letterEscape?_of_mem hb)
    rw [List.cons_append, List.cons_append, skipString.eq_def]
    simp only [show backslash ≠ quoteMark by decide, if_false, if_true, hx, Option.isSome_some]
    exact ih
  | @number n v w hv _ ih =>
    have hl : (letterEscape? 0x75).isSome = false := by decide
    have hf := fourHex_of_isFourHex hv (w ++ quoteMark :: r)
    rw [numbered, List.append_assoc, List.cons_append, List.cons_append, skipString.eq_def]
    simp only [show backslash ≠ quoteMark by decide, if_false, if_true, hl, Bool.false_eq_true]
    split
    · rename_i heq
      rw [hf] at heq
      cases heq
    · rename_i heq
      rw [hf] at heq
      cases heq
      exact ih

inductive IsString : List UInt8 → Prop where
  | mk {w : List UInt8} (h : IsStringBody w) : IsString (quoteMark :: (w ++ [quoteMark]))

section Strings

variable {v w : List UInt8}

theorem IsStringBody.append (hv : IsStringBody v) (hw : IsStringBody w) :
    IsStringBody (v ++ w) := by
  induction hv with
  | nil => exact hw
  | plain hb _ ih => exact .plain hb ih
  | letter hb _ ih => exact .letter hb ih
  | number hn _ ih =>
    rw [List.append_assoc]
    exact .number hn ih

theorem isStringBody_of_isPlain (h : ∀ b ∈ w, IsPlain b) : IsStringBody w := by
  induction w with
  | nil => exact .nil
  | cons b w ih =>
    obtain ⟨hb, hw⟩ := List.forall_mem_cons.mp h
    exact .plain hb (ih hw)

theorem isStringBody_of_spellsChar {c : Char} (h : SpellsChar c w) : IsStringBody w := by
  cases h with
  | raw hc hq hb => exact isStringBody_of_isPlain (isPlain_of_mem hc hq hb)
  | letter h => exact .letter h .nil
  | @number v hv =>
    have hbody := IsStringBody.number hv .nil
    rwa [List.append_nil] at hbody
  | @pair _ _ u v hu hv =>
    have hbody := IsStringBody.number hu (.number hv .nil)
    rwa [List.append_nil] at hbody

/-- Whatever spells some string is a string. -/
theorem isString_of_spellsString {s : String} (h : SpellsString s w) : IsString w := by
  obtain ⟨h⟩ := h
  apply IsString.mk
  generalize s.toList = cs at h
  induction h with
  | nil => exact .nil
  | cons h _ ih => exact (isStringBody_of_spellsChar h).append ih

end Strings

/-- The values of JSON. The members of an object are keys with values. -/
inductive IsValue : List UInt8 → Prop where
  | word {w : String} (h : w = "null" ∨ w = "true" ∨ w = "false") : IsValue (letters w)
  | number {w : List UInt8} (h : IsNumber w) : IsValue w
  | string {w : List UInt8} (h : IsString w) : IsValue w
  | list {vs : List (List UInt8)} {w : List UInt8} (hs : ∀ v ∈ vs, IsValue v)
      (h : Enclosed .list Eq vs w) : IsValue w
  | object {vs : List (List UInt8)} {w : List UInt8} (hs : ∀ v ∈ vs, IsValue v)
      (h : Enclosed .object (fun v => Keyed IsString (Eq v)) vs w) : IsValue w

theorem word_append (w r : List UInt8) : word w (w ++ r) = .ok r := by
  induction w with
  | nil => rfl
  | cons b w ih =>
    rw [List.cons_append]
    unfold word
    rw [if_pos rfl, ih]

/-- What a value that holds no others starts with. -/
structure Outset (b : UInt8) : Prop where
  unblank : isBlank b = false
  unopened : Frame.ofOpening? b = none
  unclosed : b ≠ closeList

theorem outset_of_startsNumber {b : UInt8} (h : startsNumber b = true) :
    Outset b ∧ b ≠ 0x6E ∧ b ≠ 0x74 ∧ b ≠ 0x66 := by
  have hne : ∀ c, startsNumber c = false → b ≠ c := by
    rintro c hc rfl
    rw [h] at hc
    cases hc
  refine ⟨⟨?_, ?_, hne _ (by decide)⟩, hne _ (by decide), hne _ (by decide), hne _ (by decide)⟩
  · simp [isBlank, hne 0x20 (by decide), hne 0x09 (by decide), hne 0x0A (by decide),
      hne 0x0D (by decide)]
  · simp [Frame.ofOpening?, hne openList (by decide), hne openObject (by decide)]

theorem startsNumber_of_isNumber {w : List UInt8} (h : IsNumber w) :
    ∃ b t, w = b :: t ∧ startsNumber b = true := by
  obtain ⟨hs, hw, hf, he⟩ := h
  rcases hs with rfl | rfl
  · obtain ⟨hb, _⟩ := Numeral.isDigits_of_isWhole hw
    exact ⟨_, _, rfl, by simp [startsNumber, hb]⟩
  · exact ⟨_, _, rfl, by decide⟩

/-- A word, a number or a string is passed over as a whole. -/
theorem skipScalar_word {w : String} (h : w = "null" ∨ w = "true" ∨ w = "false")
    (r : List UInt8) :
    ∃ b t, letters w = b :: t ∧ Outset b ∧ skipScalar (b :: (t ++ r)) = .ok r := by
  rcases h with rfl | rfl | rfl
  · exact ⟨0x6E, letters "ull", rfl, ⟨rfl, rfl, by decide⟩, word_append _ r⟩
  · exact ⟨0x74, letters "rue", rfl, ⟨rfl, rfl, by decide⟩, word_append _ r⟩
  · exact ⟨0x66, letters "alse", rfl, ⟨rfl, rfl, by decide⟩, word_append _ r⟩

theorem skipScalar_number {w r : List UInt8} (h : IsNumber w) (hr : Apart r) :
    ∃ b t, w = b :: t ∧ Outset b ∧ skipScalar (b :: (t ++ r)) = .ok r := by
  obtain ⟨b, t, rfl, hb⟩ := startsNumber_of_isNumber h
  obtain ⟨x, hx⟩ := isNumber_iff.mp h
  have hx : Numeral.scan .invalidNumber (b :: t ++ r) = .ok (x, r) :=
    Numeral.scan_of_spells hx hr
  obtain ⟨ho, hn, ht, hf⟩ := outset_of_startsNumber hb
  refine ⟨b, t, rfl, ho, ?_⟩
  rw [List.cons_append] at hx
  unfold skipScalar
  dsimp only
  rw [if_neg hn, if_neg ht, if_neg hf, if_pos hb, hx]
  rfl

theorem skipScalar_string {w : List UInt8} (h : IsStringBody w) (r : List UInt8) :
    skipScalar (quoteMark :: (w ++ quoteMark :: r)) = .ok r :=
  skipString_of_isStringBody h r

section Machine

variable {frames : List Frame} {f : Frame} {a b s t u r : List UInt8} {c : UInt8}

theorem passOver_scalar (hs : skipBlank s = c :: t) (ho : Frame.ofOpening? c = none)
    (hu : skipScalar (c :: t) = .ok u) : passOver true frames s = passOver false frames u := by
  rw [passOver.eq_def]
  split <;> simp_all
  split <;> simp_all
  split <;> simp_all

theorem passOver_empty (hs : skipBlank s = f.opening :: t) (ht : skipBlank t = f.closing :: r) :
    passOver true frames s = passOver false frames r := by
  have hf := f.ofOpening?_opening
  rw [passOver.eq_def]
  split <;> simp_all
  split <;> simp_all
  split <;> simp_all

theorem passOver_open (hs : skipBlank s = f.opening :: t) (ht : skipBlank t = c :: r)
    (hc : c ≠ f.closing) (he : f.enter t = .ok u) :
    passOver true frames s = passOver true (f :: frames) u := by
  have hf := f.ofOpening?_opening
  rw [passOver.eq_def]
  split <;> simp_all
  split <;> simp_all
  split <;> simp_all
  split <;> simp_all

theorem passOver_comma (hs : skipBlank s = comma :: t) (he : f.enter t = .ok u) :
    passOver false (f :: frames) s = passOver true (f :: frames) u := by
  rw [passOver.eq_def]
  split <;> simp_all
  split <;> simp_all
  split <;> simp_all

theorem passOver_close (hs : skipBlank s = f.closing :: r) :
    passOver false (f :: frames) s = passOver false frames r := by
  have hc : f.closing ≠ comma := by cases f <;> decide
  rw [passOver.eq_def]
  split <;> simp_all
  split <;> simp_all

end Machine

/-- A value is passed over whatever frames are open around it, with the blanks before it. -/
def Passed (w : List UInt8) : Prop :=
  Opens w ∧ ∀ frames a r, Blank a → Apart r →
    passOver true frames (a ++ (w ++ r)) = passOver false frames r

/-- A part of a frame does not look like the end of the frame, and is passed over. -/
def Frame.Passed (f : Frame) (w : List UInt8) : Prop :=
  (∃ b t, w = b :: t ∧ isBlank b = false ∧ b ≠ f.closing) ∧
    ∀ frames a r, Blank a → Apart r → ∃ u, f.enter (a ++ (w ++ r)) = .ok u ∧
      passOver true (f :: frames) u = passOver false (f :: frames) r

theorem passed_scalar {w : List UInt8}
    (h : ∀ r, Apart r → ∃ b t, w = b :: t ∧ Outset b ∧ skipScalar (b :: (t ++ r)) = .ok r) :
    Passed w := by
  constructor
  · obtain ⟨b, t, rfl, hb, _⟩ := h [] (by rintro b ⟨⟩)
    exact ⟨b, t, rfl, hb.unblank, hb.unclosed⟩
  · intro frames a r ha hr
    obtain ⟨b, t, rfl, hb, hskip⟩ := h r hr
    exact passOver_scalar (ha.skip_cons hb.unblank _) hb.unopened hskip

theorem Passed.item {w : List UInt8} (h : Passed w) : Frame.Passed .list w :=
  ⟨h.1, fun _ a r ha hr => ⟨a ++ (w ++ r), rfl, h.2 _ a r ha hr⟩⟩

theorem Passed.member {v w : List UInt8} (h : Passed v) (hw : Keyed IsString (Eq v) w) :
    Frame.Passed .object w := by
  obtain ⟨⟨hk⟩, ha, hb, rfl⟩ := hw
  refine ⟨⟨_, _, rfl, by decide, by decide⟩, ?_⟩
  intro frames c r hc hr
  refine ⟨_, ?_, h.2 _ _ r hb hr⟩
  simp only [List.append_assoc, List.cons_append, List.nil_append]
  unfold Frame.enter
  dsimp only
  rw [hc.skip_cons (by decide)]
  dsimp only
  rw [if_pos rfl, skipString_of_isStringBody hk]
  exact afterColon_blank ha _

/-- All parts of a frame are passed over, up to its end. -/
theorem passOver_listed {α : Type} {f : Frame} {P : α → List UInt8 → Prop} {xs : List α}
    {w : List UInt8} (h : Listed P xs w) (hp : ∀ x ∈ xs, ∀ v, P x v → f.Passed v)
    (frames : List Frame) (r : List UInt8) :
    ∃ u, f.enter (w ++ f.closing :: r) = .ok u ∧
      passOver true (f :: frames) u = passOver false frames r := by
  induction h with
  | last h =>
    obtain ⟨ha, hv, hb⟩ := h
    obtain ⟨u, hu, hnext⟩ := (hp _ List.mem_cons_self _ hv).2 frames _ _ ha
      (hb.apart (apart_closing f r))
    refine ⟨u, ?_, hnext.trans (passOver_close (hb.skip_cons f.isBlank_closing r))⟩
    rw [← hu]
    simp only [List.append_assoc]
  | @more x xs v w h _ ih =>
    obtain ⟨u, hu, hdone⟩ := ih fun y hy => hp y (List.mem_cons_of_mem _ hy)
    obtain ⟨ha, hv, hb⟩ := h
    obtain ⟨u', hu', hnext⟩ := (hp x List.mem_cons_self _ hv).2 frames _ _ ha
      (hb.apart (apart_comma (w ++ f.closing :: r)))
    refine ⟨u', ?_, ?_⟩
    · rw [← hu']
      simp only [List.append_assoc, List.cons_append]
    · rw [hnext, passOver_comma (hb.skip_cons (by decide) _) hu, hdone]

/-- A list or an object is passed over with all of its parts. -/
theorem passed_enclosed {α : Type} {f : Frame} {P : α → List UInt8 → Prop} {xs : List α}
    {w : List UInt8} (h : Enclosed f P xs w) (hp : ∀ x ∈ xs, ∀ v, P x v → f.Passed v) :
    Passed w := by
  refine ⟨opens_of_enclosed h, ?_⟩
  intro frames a r ha _
  cases h with
  | empty hb =>
    rw [List.cons_append, List.append_assoc]
    exact passOver_empty (ha.skip_cons f.isBlank_opening _) (hb.skip_cons f.isBlank_closing r)
  | filled h =>
    obtain ⟨c, t, ht, hc⟩ := head_of_listed h (fun x hx v hv => (hp x hx v hv).1) (f.closing :: r)
    obtain ⟨u, hu, hdone⟩ := passOver_listed h hp frames r
    rw [List.cons_append, List.append_assoc]
    exact (passOver_open (ha.skip_cons f.isBlank_opening _) ht hc hu).trans hdone

/-- Every value is passed over: by induction on its form. -/
theorem passed_of_isValue {w : List UInt8} (h : IsValue w) : Passed w := by
  induction h with
  | word h => exact passed_scalar fun r _ => skipScalar_word h r
  | number h => exact passed_scalar fun r hr => skipScalar_number h hr
  | string h =>
    obtain ⟨h⟩ := h
    refine passed_scalar fun r _ => ⟨quoteMark, _, rfl, ⟨rfl, rfl, by decide⟩, ?_⟩
    rw [List.append_assoc]
    exact skipScalar_string h r
  | list _ h ih =>
    refine passed_enclosed h ?_
    rintro v hv _ rfl
    exact (ih v hv).item
  | object _ h ih => exact passed_enclosed h fun v hv _ hw => (ih v hv).member hw

/-- However it is followed, the reader takes exactly `w` off the front of a text for `a`, and the
blanks before it. -/
def Reader.Takes {α : Type} (p : Reader α) (w : List UInt8) (a : α) : Prop :=
  ∀ u r, Blank u → Apart r → p.run (u ++ (w ++ r)) = .ok (a, r)

/-- A value of any form is passed over, and nothing else is. -/
theorem skipped_takes {w : List UInt8} (h : IsValue w) : skipped.Takes w () := by
  intro u r hu hr
  have hdone : passOver false [] r = .ok r := by
    rw [passOver.eq_def]
  change (passOver true [] (u ++ (w ++ r)) >>= _) = _
  rw [(passed_of_isValue h).2 [] u r hu hr, hdone]
  rfl

end ChatRelay.Json
