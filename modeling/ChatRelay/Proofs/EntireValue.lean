import ChatRelay.Proofs.SpelledValue
import Mathlib.Data.List.Forall2

namespace ChatRelay.Json

/-- The reader takes a value to its end or not at all. -/
structure Reader.Entire {α : Type} (p : Reader α) : Prop where
  rest : ∀ {v u r s : List UInt8} {a : α}, IsValue v → Blank u → Apart r →
    p.run (u ++ (v ++ r)) = .ok (a, s) → s = r

def Reader.Accepts {α : Type} (p : Reader α) (v : List UInt8) : Prop :=
  ∃ u r a s, Blank u ∧ Apart r ∧ p.run (u ++ (v ++ r)) = .ok (a, s)

structure IsMember (m : List UInt8 × List UInt8) (w : List UInt8) : Prop where
  key : IsString m.1
  value : IsValue m.2
  keyed : Keyed (Eq m.1) (Eq m.2) w

/-- What the first octet tells of a value. -/
structure Shape (b : UInt8) (v : List UInt8) : Prop where
  unblank : isBlank b = false
  number : startsNumber b = true → IsNumber v
  string : b = quoteMark → IsString v
  list : b = openList → ∃ vs, (∀ v ∈ vs, IsValue v) ∧ Enclosed .list Eq vs v
  object : b = openObject → ∃ ms, Enclosed .object IsMember ms v

section Shapes

variable {v w : List UInt8}

/-- The members of an object, each with its key. -/
theorem exists_members {vs : List (List UInt8)}
    (h : Listed (fun v => Keyed IsString (Eq v)) vs w) (hv : ∀ v ∈ vs, IsValue v) :
    ∃ ms, Listed IsMember ms w := by
  have hmember {v w : List UInt8} (hv : IsValue v) (h : Padded (Keyed IsString (Eq v)) w) :
      ∃ m, Padded (IsMember m) w := by
    obtain ⟨ha, @⟨k, _, _, _, hk, hb, hc, rfl⟩, hd⟩ := h
    exact ⟨(k, v), .mk ha ⟨hk, hv, .mk rfl hb hc rfl⟩ hd⟩
  induction h with
  | last h =>
    obtain ⟨m, hm⟩ := hmember (List.forall_mem_singleton.mp hv) h
    exact ⟨[m], .last hm⟩
  | more h _ ih =>
    obtain ⟨hhead, htail⟩ := List.forall_mem_cons.mp hv
    obtain ⟨m, hm⟩ := hmember hhead h
    obtain ⟨ms, hms⟩ := ih htail
    exact ⟨m :: ms, .more hm hms⟩

/-- The first octet of a value tells which of the forms it has. -/
theorem shape_of_isValue (h : IsValue v) : ∃ b t, v = b :: t ∧ Shape b v := by
  have hno {P : Prop} {b c : UInt8} (hne : b ≠ c) : b = c → P := fun h => absurd h hne
  cases h with
  | word h =>
    rcases h with rfl | rfl | rfl
    · exact ⟨0x6E, letters "ull", rfl, by decide, fun h => absurd h (by decide),
        hno (by decide), hno (by decide), hno (by decide)⟩
    · exact ⟨0x74, letters "rue", rfl, by decide, fun h => absurd h (by decide),
        hno (by decide), hno (by decide), hno (by decide)⟩
    · exact ⟨0x66, letters "alse", rfl, by decide, fun h => absurd h (by decide),
        hno (by decide), hno (by decide), hno (by decide)⟩
  | number h =>
    obtain ⟨b, t, rfl, hb⟩ := startsNumber_of_isNumber h
    have hne : ∀ c, startsNumber c = false → b ≠ c := by
      rintro c hc rfl
      rw [hb] at hc
      cases hc
    exact ⟨b, t, rfl, (outset_of_startsNumber hb).1.unblank, fun _ => h,
      hno (hne _ (by decide)), hno (hne _ (by decide)), hno (hne _ (by decide))⟩
  | string h =>
    obtain ⟨hw⟩ := h
    exact ⟨_, _, rfl, by decide, fun h => absurd h (by decide), fun _ => .mk hw,
      hno (by decide), hno (by decide)⟩
  | @list vs _ hs h =>
    have hshape : ∃ t, v = openList :: t := by
      cases h with
      | empty _ => exact ⟨_, rfl⟩
      | filled _ => exact ⟨_, rfl⟩
    obtain ⟨t, rfl⟩ := hshape
    exact ⟨_, t, rfl, by decide, fun h => absurd h (by decide), hno (by decide),
      fun _ => ⟨vs, hs, h⟩, hno (by decide)⟩
  | @object vs _ hs h =>
    have hmembers : ∃ t ms, v = openObject :: t ∧ Enclosed .object IsMember ms v := by
      cases h with
      | empty ha => exact ⟨_, [], rfl, .empty ha⟩
      | filled h =>
        obtain ⟨ms, hms⟩ := exists_members h hs
        exact ⟨_, ms, rfl, .filled hms⟩
    obtain ⟨t, ms, rfl, hall⟩ := hmembers
    exact ⟨_, t, rfl, by decide, fun h => absurd h (by decide), hno (by decide),
      hno (by decide), fun _ => ⟨ms, hall⟩⟩

end Shapes

section Strings

variable {s r t out : List UInt8}

theorem skipString_number {n : Nat} (h : fourHex s = .ok (n, r)) :
    skipString (backslash :: 0x75 :: s) = skipString r := by
  have hl : (letterEscape? 0x75).isSome = false := by decide
  rw [skipString.eq_def]
  simp only [show backslash ≠ quoteMark by decide, if_false, if_true, hl, Bool.false_eq_true]
  split <;> simp_all

theorem skipString_of_lowSurrogate {n : Nat} (h : lowSurrogate s = .ok (n, r)) :
    skipString s = skipString r := by
  unfold lowSurrogate at h
  split at h
  · cases h
  · split at h
    · cases h
    · rename_i hb
      cases Decidable.not_not.mp hb
      split at h
      · cases h
      · split at h
        · cases h
        · rename_i hc
          cases Decidable.not_not.mp hc
          obtain ⟨⟨m, u⟩, hm, h⟩ := bind_eq_ok.mp h
          dsimp only at h
          split at h
          · cases h
            exact skipString_number hm
          · cases h

theorem skipString_of_codePoint {n : Nat} (h : codePoint s = .ok (n, r)) :
    skipString (backslash :: 0x75 :: s) = skipString r := by
  obtain ⟨⟨high, t⟩, hhigh, h⟩ := bind_eq_ok.mp h
  rw [skipString_number hhigh]
  dsimp only at h
  split at h
  · cases h
  · split at h
    · obtain ⟨⟨low, u⟩, hlow, h⟩ := bind_eq_ok.mp h
      cases h
      exact skipString_of_lowSurrogate hlow
    · cases h
      rfl

/-- An escape that denotes a character is passed over, in two steps if it takes two numbers. -/
theorem skipString_of_escape (h : escape s = .ok (out, r)) :
    skipString (backslash :: s) = skipString r := by
  cases s with
  | nil => cases h
  | cons b s =>
    unfold escape at h
    dsimp only at h
    cases hl : letterEscape? b with
    | some c =>
      rw [hl] at h
      cases h
      rw [skipString.eq_def]
      simp [show backslash ≠ quoteMark by decide, hl]
    | none =>
      rw [hl] at h
      dsimp only at h
      split at h
      · rename_i hb
        subst hb
        obtain ⟨⟨n, t⟩, hn, h⟩ := bind_eq_ok.mp h
        cases h
        exact skipString_of_codePoint hn
      · cases h

/-- Whoever reads a string passes over it. -/
theorem skipString_of_characters {read : List UInt8} (h : characters read s = .ok (out, r)) :
    skipString s = .ok r := by
  fun_induction characters read s with
  | case1 => cases h
  | case2 read t =>
    cases h
    rw [skipString.eq_def]
    rfl
  | case3 => cases h
  | case4 read t u v he _ ih => exact (skipString_of_escape he).trans (ih h)
  | case5 => cases h
  | case6 read b t hq hb hc ih =>
    rw [skipString.eq_def]
    simp only [hq, hb, hc, if_false]
    exact ih h

theorem rest_of_readBody {w : List UInt8} {text : String} (hw : IsStringBody w)
    (h : readBody (w ++ quoteMark :: r) = .ok (text, t)) : t = r := by
  obtain ⟨⟨out, u⟩, hout, h⟩ := bind_eq_ok.mp h
  have hpassed := skipString_of_characters hout
  rw [skipString_of_isStringBody hw] at hpassed
  cases hpassed
  dsimp only at h
  split at h
  · cases h
    rfl
  · cases h

theorem readBody_of_spellsString {key : String} {w : List UInt8}
    (h : SpellsString key (quoteMark :: (w ++ [quoteMark]))) :
    readBody (w ++ quoteMark :: r) = .ok (key, r) := by
  generalize hw : quoteMark :: (w ++ [quoteMark]) = v at h
  obtain ⟨h⟩ := h
  rw [List.cons_append, List.cons.injEq] at hw
  cases List.append_cancel_right hw.2
  exact readBody_of_spellsChars h r

theorem rest_of_readNumber {w : List UInt8} {n : Number} (hw : IsNumber w) (hr : Apart r)
    (h : readNumber (w ++ r) = .ok (n, t)) : t = r := by
  obtain ⟨⟨x, u⟩, hx, h⟩ := bind_eq_ok.mp h
  obtain ⟨m, _, h⟩ := bind_eq_ok.mp h
  obtain ⟨y, hy⟩ := isNumber_iff.mp hw
  rw [Numeral.scan_of_spells hy hr] at hx
  cases hx
  cases h
  rfl

end Strings

section Readers

variable {α β : Type}

theorem Reader.Entire.map {p : Reader α} (h : p.Entire) (f : α → β) : (p.map f).Entire := by
  constructor
  intro v u r s b hv hu hr hrun
  obtain ⟨⟨a, t⟩, ha, hb⟩ := bind_eq_ok.mp hrun
  cases hb
  exact h.rest hv hu hr ha

theorem Reader.Accepts.of_map {p : Reader α} {f : α → β} {v : List UInt8}
    (h : (p.map f).Accepts v) : p.Accepts v := by
  obtain ⟨u, r, b, s, hu, hr, hrun⟩ := h
  obtain ⟨⟨a, t⟩, ha, _⟩ := bind_eq_ok.mp hrun
  exact ⟨u, r, a, t, hu, hr, ha⟩

theorem skipped_entire : skipped.Entire := by
  constructor
  intro v u r s a hv hu hr hrun
  rw [skipped_takes hv u r hu hr] at hrun
  cases hrun
  rfl

theorem string_entire : string.Entire := by
  constructor
  intro v u r s a hv hu _ hrun
  obtain ⟨b, t, rfl, hshape⟩ := shape_of_isValue hv
  change readString _ = _ at hrun
  unfold readString at hrun
  rw [List.cons_append, hu.skip_cons hshape.unblank] at hrun
  dsimp only at hrun
  split at hrun
  · rename_i hb
    obtain ⟨hw⟩ := hshape.string hb
    rw [List.append_assoc] at hrun
    exact rest_of_readBody hw hrun
  · cases hrun

theorem natural_entire (limit : Nat) (expected : String) : (natural limit expected).Entire := by
  constructor
  intro v u r s a hv hu hr hrun
  obtain ⟨b, t, rfl, hshape⟩ := shape_of_isValue hv
  change readNatural _ _ _ = _ at hrun
  unfold readNatural at hrun
  rw [List.cons_append, hu.skip_cons hshape.unblank] at hrun
  dsimp only at hrun
  split at hrun
  · rename_i hb
    have hnumber := hshape.number hb
    split at hrun
    · cases hrun
    · rename_i hread
      split at hrun
      · cases hrun
        exact rest_of_readNumber hnumber hr hread
      · cases hrun
    · cases hrun
  · cases hrun

/-- An item that is due is read, and then the others. -/
theorem run_of_items {item : Reader α} {first : Bool} {read out : List α} {s t r : List UInt8}
    (hn : nextItem first s = .ok (.more t)) (h : items item first read s = .ok (out, r)) :
    ∃ a u, item.run t = .ok (a, u) ∧ items item false (a :: read) u = .ok (out, r) := by
  cases hi : item.run t with
  | error e =>
    rw [items] at h
    split at h <;> simp_all
    split at h <;> simp_all
  | ok p =>
    obtain ⟨a, u⟩ := p
    rw [items_more hn hi] at h
    exact ⟨a, u, rfl, h⟩

section List

variable {item : Reader α} {first : Bool} {read out : List α} {vs : List (List UInt8)}
  {s t r w : List UInt8}

/-- The items of a list are taken one by one, as the list has them. -/
theorem items_entire (hi : item.Entire) (h : Listed Eq vs w) (hv : ∀ v ∈ vs, IsValue v)
    (hn : nextItem first s = nextItem true (w ++ closeList :: r))
    (hdone : items item first read s = .ok (out, t)) :
    t = r ∧ ∀ v ∈ vs, item.Accepts v := by
  induction h generalizing first read s with
  | @last v _ h =>
    obtain @⟨a, _, b, ha, rfl, hb⟩ := h
    have hvalue := hv v List.mem_cons_self
    rw [List.append_assoc, List.append_assoc, nextItem_opens ha (passed_of_isValue hvalue).1] at hn
    obtain ⟨x, u, hrun, hrest⟩ := run_of_items hn hdone
    have hr : Apart (b ++ closeList :: r) := hb.apart (apart_closing .list r)
    cases hi.rest hvalue blank_nil hr hrun
    rw [items_done (nextItem_end hb false r)] at hrest
    cases hrest
    exact ⟨rfl, List.forall_mem_singleton.mpr ⟨[], _, x, _, blank_nil, hr, hrun⟩⟩
  | @more v vs _ w h hs ih =>
    obtain ⟨hvalue, hvalues⟩ := List.forall_mem_cons.mp hv
    obtain @⟨a, _, b, ha, rfl, hb⟩ := h
    obtain ⟨c, d, hc, hne⟩ := head_of_listed (Q := (· ≠ closeList)) hs
      (by rintro v hv _ rfl; exact (passed_of_isValue (hvalues v hv)).1) (closeList :: r)
    simp only [List.append_assoc, List.cons_append] at hn
    rw [nextItem_opens ha (passed_of_isValue hvalue).1] at hn
    obtain ⟨x, u, hrun, hrest⟩ := run_of_items hn hdone
    have hr := hb.apart (apart_comma (w ++ closeList :: r))
    cases hi.rest hvalue blank_nil hr hrun
    obtain ⟨ht, hall⟩ := ih hvalues (nextItem_after hb hc hne) hrest
    exact ⟨ht, List.forall_mem_cons.mpr ⟨⟨[], _, x, _, blank_nil, hr, hrun⟩, hall⟩⟩

/-- The items of a list are taken one by one. -/
theorem list_aligned (hi : item.Entire) (h : Enclosed .list Eq vs w) (hv : ∀ v ∈ vs, IsValue v)
    {u : List UInt8} (hu : Blank u) (hrun : (list item).run (u ++ (w ++ r)) = .ok (out, t)) :
    t = r ∧ ∀ v ∈ vs, item.Accepts v := by
  change readList item _ = _ at hrun
  unfold readList at hrun
  cases h with
  | empty ha =>
    simp only [List.cons_append, List.append_assoc, List.nil_append] at hrun
    rw [hu.skip_cons (Frame.isBlank_opening .list)] at hrun
    change items item true [] _ = _ at hrun
    rw [show Frame.closing .list = closeList from rfl, items_done (nextItem_end ha true r)] at hrun
    cases hrun
    exact ⟨rfl, List.forall_mem_nil _⟩
  | filled h =>
    simp only [List.cons_append, List.append_assoc, List.nil_append] at hrun
    rw [hu.skip_cons (Frame.isBlank_opening .list)] at hrun
    exact items_entire hi h hv rfl hrun

theorem list_entire (hi : item.Entire) : (list item).Entire := by
  constructor
  intro v u r s a hv hu hr hrun
  obtain ⟨b, t, rfl, hshape⟩ := shape_of_isValue hv
  have hb : b = openList := by
    change readList item _ = _ at hrun
    unfold readList at hrun
    rw [List.cons_append, hu.skip_cons hshape.unblank] at hrun
    dsimp only at hrun
    split at hrun
    · assumption
    · cases hrun
  obtain ⟨vs, hvs, hall⟩ := hshape.list hb
  exact (list_aligned hi hall hvs hu hrun).1

end List

end Readers

namespace Record

variable {σ α : Type} {x : Record σ α} {draft out : σ} {s t r w : List UInt8}

theorem valueOf_entire (hx : ∀ f ∈ x.fields, f.value.Entire) (key : String) :
    (x.valueOf key).Entire := by
  unfold valueOf
  cases hf : x.fields.find? (·.name = key) with
  | some f => exact hx f (List.mem_of_find?_eq_some hf)
  | none => exact skipped_entire.map _

/-- A member that is due is read, and then the others. -/
theorem run_of_members {first : Bool} (hn : nextKey first s = .ok (.more t))
    (h : x.members first draft s = .ok (out, r)) :
    ∃ key u v set w, readBody t = .ok (key, u) ∧ afterColon u = .ok v ∧
      (x.valueOf key).run v = .ok (set, w) ∧ x.members false (set draft) w = .ok (out, r) := by
  cases hk : readBody t with
  | error e =>
    rw [members] at h
    split at h <;> simp_all
    split at h <;> simp_all
  | ok p =>
    obtain ⟨key, u⟩ := p
    cases hm : x.member draft key u with
    | error e =>
      rw [members] at h
      split at h <;> simp_all
      split at h <;> simp_all
      split at h <;> simp_all
    | ok p =>
      obtain ⟨next, w⟩ := p
      rw [members_more hn hk hm] at h
      unfold member at hm
      split at hm
      · cases hm
      · obtain ⟨v, hv, hm⟩ := bind_eq_ok.mp hm
        obtain ⟨⟨set, w⟩, hw, hm⟩ := bind_eq_ok.mp hm
        cases hm
        exact ⟨key, u, v, set, w, rfl, hv, hw, h⟩

/-- One member is taken, its key and its value, and what follows it is left to the others. -/
theorem member_entire {first : Bool} {m : List UInt8 × List UInt8} {a : List UInt8}
    (hx : ∀ f ∈ x.fields, f.value.Entire) (h : IsMember m w) (ha : Blank a) (hr : Apart r)
    (hn : nextKey first s = nextKey true (a ++ (w ++ r)))
    (hdone : x.members first draft s = .ok (out, t)) :
    (∀ key, SpellsString key m.1 → (x.valueOf key).Accepts m.2) ∧
      ∃ next, x.members false next r = .ok (out, t) := by
  obtain ⟨k, v⟩ := m
  obtain ⟨@⟨k, hk⟩, hv, @⟨_, b, c, _, rfl, hb, hc, rfl⟩⟩ := h
  simp only [List.append_assoc, List.cons_append, List.nil_append] at hn
  rw [nextKey_opens ha] at hn
  obtain ⟨key, u, v', set, w, hkey, hcolon, hvalue, hrest⟩ := run_of_members hn hdone
  cases rest_of_readBody hk hkey
  rw [afterColon_blank hb] at hcolon
  cases hcolon
  cases (valueOf_entire hx key).rest hv hc hr hvalue
  refine ⟨fun key' hspells => ?_, _, hrest⟩
  rw [readBody_of_spellsString hspells] at hkey
  cases hkey
  exact ⟨c, r, set, _, hc, hr, hvalue⟩

/-- The members of an object are taken one by one. -/
theorem members_entire {ms : List (List UInt8 × List UInt8)} {first : Bool}
    (hx : ∀ f ∈ x.fields, f.value.Entire) (h : Listed IsMember ms w)
    (hn : nextKey first s = nextKey true (w ++ closeObject :: r))
    (hdone : x.members first draft s = .ok (out, t)) :
    t = r ∧ ∀ m ∈ ms, ∀ key, SpellsString key m.1 → (x.valueOf key).Accepts m.2 := by
  induction h generalizing first draft s with
  | @last m _ h =>
    obtain @⟨a, w, b, ha, hw, hb⟩ := h
    have hr : Apart (b ++ closeObject :: r) := hb.apart (apart_closing .object r)
    rw [List.append_assoc, List.append_assoc] at hn
    obtain ⟨haccepts, next, hrest⟩ := member_entire hx hw ha hr hn hdone
    rw [members_done (nextKey_end hb false r)] at hrest
    cases hrest
    exact ⟨rfl, List.forall_mem_singleton.mpr haccepts⟩
  | @more m ms _ w h hs ih =>
    obtain @⟨a, v, b, ha, hv, hb⟩ := h
    have hr := hb.apart (apart_comma (w ++ closeObject :: r))
    obtain ⟨_, c, hc, rfl⟩ := head_of_listed (Q := (· = quoteMark)) hs
      (by
        rintro ⟨k, v⟩ _ _ ⟨⟨_⟩, _, ⟨rfl, _, _, _⟩⟩
        exact ⟨_, _, rfl, by decide, rfl⟩) (closeObject :: r)
    simp only [List.append_assoc, List.cons_append] at hn
    obtain ⟨haccepts, next, hrest⟩ := member_entire hx hv ha hr hn hdone
    obtain ⟨ht, hall⟩ := ih (nextKey_after hb hc) hrest
    exact ⟨ht, List.forall_mem_cons.mpr ⟨haccepts, hall⟩⟩

/-- The members of an object are taken one by one. -/
theorem object_aligned {ms : List (List UInt8 × List UInt8)} {a : α} {u : List UInt8}
    (hx : ∀ f ∈ x.fields, f.value.Entire) (h : Enclosed .object IsMember ms w)
    (hu : Blank u)
    (hrun : x.reader.run (u ++ (w ++ r)) = .ok (a, t)) :
    t = r ∧ ∀ m ∈ ms, ∀ key, SpellsString key m.1 → (x.valueOf key).Accepts m.2 := by
  have hmembers (v : List UInt8) (hw : w ++ r = openObject :: (v ++ closeObject :: r)) :
      ∃ d, x.members true x.blank (v ++ closeObject :: r) = .ok (d, t) := by
    rw [hw, run_openObject hu] at hrun
    obtain ⟨⟨d, t'⟩, hd, hrun⟩ := bind_eq_ok.mp hrun
    obtain ⟨_, _, hrun⟩ := bind_eq_ok.mp hrun
    cases hrun
    exact ⟨d, hd⟩
  cases h with
  | @empty b hb =>
    obtain ⟨d, hd⟩ := hmembers b (by simp [Frame.opening, Frame.closing])
    rw [members_done (nextKey_end hb true r)] at hd
    cases hd
    exact ⟨rfl, List.forall_mem_nil _⟩
  | @filled _ v h =>
    obtain ⟨d, hd⟩ := hmembers v (by simp [Frame.opening, Frame.closing])
    exact members_entire hx h rfl hd

/-- A field that is due is filled from an item, and then the others. -/
theorem elements_of_cons {i : Nat} {f : Field σ} {fields : List (Field σ)}
    (h : x.elements i draft (f :: fields) s = .ok (out, r)) :
    ∃ t set u, nextItem (i = 0) s = .ok (.more t) ∧ f.value.run t = .ok (set, u) ∧
      x.elements (i + 1) (set draft) fields u = .ok (out, r) := by
  rw [elements] at h
  split at h
  · cases h
  · cases h
  · rename_i t hn
    split at h
    · cases h
    · rename_i set u hrun
      exact ⟨t, set, u, hn, hrun, h⟩

/-- There are as many items as fields, and each field takes its own. -/
theorem elements_entire {vs : List (List UInt8)} {fields : List (Field σ)} {i : Nat}
    {u : List UInt8} (hx : ∀ f ∈ fields, f.value.Entire) (h : Listed Eq vs w)
    (hv : ∀ v ∈ vs, IsValue v) (hne : fields ≠ [])
    (hn : nextItem (i = 0) s = nextItem true (w ++ closeList :: r))
    (hdone : x.elements i draft fields s = .ok (out, t)) (hend : endItems t = .ok u) :
    u = r ∧ List.Forall₂ (fun f v => f.value.Accepts v) fields vs := by
  induction h generalizing fields i draft s with
  | @last v _ h =>
    obtain @⟨a, _, b, ha, rfl, hb⟩ := h
    cases fields with
    | nil => exact absurd rfl hne
    | cons f fields =>
      have hvalue := hv v List.mem_cons_self
      have hr : Apart (b ++ closeList :: r) := hb.apart (apart_closing .list r)
      rw [List.append_assoc, List.append_assoc,
        nextItem_opens ha (passed_of_isValue hvalue).1] at hn
      obtain ⟨_, set, _, hnext, hrun, hrest⟩ := elements_of_cons hdone
      cases hn.symm.trans hnext
      cases (hx f List.mem_cons_self).rest hvalue blank_nil hr hrun
      cases fields with
      | nil =>
        cases hrest
        unfold endItems at hend
        rw [hb.skip_cons (by decide)] at hend
        cases hend
        exact ⟨rfl, .cons ⟨[], _, set, _, blank_nil, hr, hrun⟩ .nil⟩
      | cons g fields =>
        obtain ⟨_, _, _, hnext, _⟩ := elements_of_cons hrest
        cases (nextItem_end hb false r).symm.trans hnext
  | @more v vs _ w h hs ih =>
    obtain @⟨a, _, b, ha, rfl, hb⟩ := h
    obtain ⟨hvalue, hvalues⟩ := List.forall_mem_cons.mp hv
    cases fields with
    | nil => exact absurd rfl hne
    | cons f fields =>
      have hr := hb.apart (apart_comma (w ++ closeList :: r))
      obtain ⟨c, d, hc, hcne⟩ := head_of_listed (Q := (· ≠ closeList)) hs
        (by rintro v hv _ rfl; exact (passed_of_isValue (hvalues v hv)).1) (closeList :: r)
      simp only [List.append_assoc, List.cons_append] at hn
      rw [nextItem_opens ha (passed_of_isValue hvalue).1] at hn
      obtain ⟨_, set, _, hnext, hrun, hrest⟩ := elements_of_cons hdone
      cases hn.symm.trans hnext
      cases (hx f List.mem_cons_self).rest hvalue blank_nil hr hrun
      cases fields with
      | nil =>
        cases hrest
        unfold endItems at hend
        rw [hb.skip_cons (by decide)] at hend
        simp only [show comma ≠ closeList by decide, if_false] at hend
        split at hend <;> cases hend
      | cons g fields =>
        have hfields := (List.forall_mem_cons.mp hx).2
        have hagain : nextItem (i + 1 = 0) _ = _ := nextItem_after hb hc hcne
        obtain ⟨hu, hall⟩ := ih hfields hvalues (List.cons_ne_nil _ _) hagain hrest
        exact ⟨hu, .cons ⟨[], _, set, _, blank_nil, hr, hrun⟩ hall⟩

/-- The items of a list are taken one by one, each for the field in its place. -/
theorem list_aligned {vs : List (List UInt8)} {a : α} {u : List UInt8}
    (hx : ∀ f ∈ x.fields, f.value.Entire) (hne : x.fields ≠ []) (h : Enclosed .list Eq vs w)
    (hv : ∀ v ∈ vs, IsValue v) (hu : Blank u)
    (hrun : x.reader.run (u ++ (w ++ r)) = .ok (a, t)) :
    t = r ∧ List.Forall₂ (fun f v => f.value.Accepts v) x.fields vs := by
  have helements (v : List UInt8) (hw : w ++ r = openList :: (v ++ closeList :: r)) :
      ∃ d t', x.elements 0 x.blank x.fields (v ++ closeList :: r) = .ok (d, t') ∧
        endItems t' = .ok t := by
    change x.read _ = _ at hrun
    unfold read at hrun
    rw [hw, hu.skip_cons (by decide)] at hrun
    dsimp only at hrun
    rw [if_pos rfl] at hrun
    obtain ⟨⟨d, t'⟩, hd, hrun⟩ := bind_eq_ok.mp hrun
    obtain ⟨_, _, hrun⟩ := bind_eq_ok.mp hrun
    obtain ⟨_, ht, hrun⟩ := bind_eq_ok.mp hrun
    cases hrun
    exact ⟨d, t', hd, ht⟩
  cases h with
  | @empty b hb =>
    obtain ⟨d, t', hd, _⟩ := helements b (by simp [Frame.opening, Frame.closing])
    obtain ⟨f, fields, hfields⟩ := List.exists_cons_of_ne_nil hne
    rw [hfields] at hd
    obtain ⟨_, _, _, hnext, _⟩ := elements_of_cons hd
    cases (nextItem_end hb true r).symm.trans hnext
  | @filled _ v h =>
    obtain ⟨d, t', hd, ht⟩ := helements v (by simp [Frame.opening, Frame.closing])
    exact elements_entire hx h hv hne rfl hd ht

/-- A record takes a value to its end, whether it comes as an object or as a list. -/
theorem entire (hx : ∀ f ∈ x.fields, f.value.Entire) (hne : x.fields ≠ []) :
    x.reader.Entire := by
  constructor
  intro v u r s a hv hu hr hrun
  obtain ⟨b, t, rfl, hshape⟩ := shape_of_isValue hv
  have hb : b = openList ∨ b = openObject := by
    have hread := hrun
    change x.read _ = _ at hread
    unfold read at hread
    rw [List.cons_append, hu.skip_cons hshape.unblank] at hread
    dsimp only at hread
    split at hread
    · exact .inl ‹_›
    · split at hread
      · exact .inr ‹_›
      · cases hread
  rcases hb with hb | hb
  · obtain ⟨vs, hvs, h⟩ := hshape.list hb
    exact (list_aligned hx hne h hvs hu hrun).1
  · obtain ⟨ms, h⟩ := hshape.object hb
    exact (object_aligned hx h hu hrun).1

end Record

end ChatRelay.Json
