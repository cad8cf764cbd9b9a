import ChatRelay.Text.Quoted
import Mathlib.Data.List.Basic

namespace ChatRelay.Text

section Digits

variable {b m n : Nat} {c : Char}

theorem digitChar_inj (hm : m < 16) (hn : n < 16) (h : m.digitChar = n.digitChar) : m = n := by
  have hinj : ∀ m < 16, ∀ n < 16, m.digitChar = n.digitChar → m = n := by decide
  exact hinj m hm n hn h

/-- No two numbers have the same digits. -/
theorem toDigits_inj (hb : 1 < b) (hb' : b ≤ 16) (h : Nat.toDigits b m = Nat.toDigits b n) :
    m = n := by
  induction m using Nat.strongRecOn generalizing n with
  | ind m ih =>
    have hdigit {k l : Nat} (hk : k < b) (hl : l < b) (h : [k.digitChar] = [l.digitChar]) : k = l :=
      digitChar_inj (by omega) (by omega) (List.singleton_inj.mp h)
    rw [Nat.toDigits_eq_if hb, Nat.toDigits_eq_if (n := n) hb] at h
    by_cases hm : m < b <;> by_cases hn : n < b <;> simp only [hm, hn, if_true, if_false] at h
    · exact hdigit hm hn h
    · simp [List.cons_eq_append_iff, Nat.toDigits_ne_nil] at h
    · simp [List.append_eq_cons_iff, Nat.toDigits_ne_nil] at h
    · obtain ⟨hhead, hlast⟩ := List.append_inj' h rfl
      have hpos : 0 < m := by omega
      have hdiv : m / b = n / b := ih (m / b) (Nat.div_lt_self hpos hb) hhead
      have hmod : m % b = n % b :=
        hdigit (Nat.mod_lt m (by omega)) (Nat.mod_lt n (by omega)) hlast
      rw [← Nat.div_add_mod m b, hdiv, hmod, Nat.div_add_mod]

theorem repr_inj (h : m.repr = n.repr) : m = n := by
  have hlist := congrArg String.toList h
  rw [Nat.toList_repr, Nat.toList_repr] at hlist
  exact toDigits_inj (by decide) (by decide) hlist

theorem exists_digit_of_mem_toDigits (h : c ∈ Nat.toDigits 16 n) : ∃ d < 16, c = d.digitChar := by
  induction n using Nat.strongRecOn with
  | ind n ih =>
    rw [Nat.toDigits_eq_if (by decide)] at h
    by_cases hn : n < 16
    · rw [if_pos hn] at h
      exact ⟨n, hn, List.mem_singleton.mp h⟩
    · rw [if_neg hn] at h
      rcases List.mem_append.mp h with h | h
      · exact ih (n / 16) (by omega) h
      · exact ⟨n % 16, Nat.mod_lt n (by decide), List.mem_singleton.mp h⟩

theorem brace_not_mem_toDigits : '\x7d' ∉ Nat.toDigits 16 n := by
  intro h
  obtain ⟨d, hd, hbrace⟩ := exists_digit_of_mem_toDigits h
  revert d
  decide

/-- What stands before the first brace can be told from what follows it. -/
theorem brace_inj {w w' r r' : List Char} (hw : '\x7d' ∉ w) (hw' : '\x7d' ∉ w')
    (h : w ++ '\x7d' :: r = w' ++ '\x7d' :: r') : w = w' ∧ r = r' := by
  induction w generalizing w' with
  | nil =>
    cases w' with
    | nil => exact ⟨rfl, (List.cons.inj h).2⟩
    | cons c' w' => exact absurd ((List.cons.inj h).1 ▸ List.mem_cons_self) hw'
  | cons c w ih =>
    cases w' with
    | nil => exact absurd ((List.cons.inj h).1 ▸ List.mem_cons_self) hw
    | cons c' w' =>
      obtain ⟨rfl, hrest⟩ := List.cons.inj h
      obtain ⟨rfl, hr⟩ := ih (fun hm => hw (List.mem_cons_of_mem _ hm))
        (fun hm => hw' (List.mem_cons_of_mem _ hm)) hrest
      exact ⟨rfl, hr⟩

end Digits

def letterForms : List (Char × Char) :=
  [('"', '"'), ('\\', '\\'), ('\t', 't'), ('\n', 'n'), ('\r', 'r'), ('\x00', '0')]

/-- The ways in which a character may stand in quotes. -/
inductive StandsAs (c : Char) : List Char → Prop where
  | letter {k : Char} (h : (c, k) ∈ letterForms) : StandsAs c ['\\', k]
  | number : StandsAs c ('\\' :: 'u' :: '\x7b' :: (Nat.toDigits 16 c.toNat ++ ['\x7d']))
  | plain (hslash : c ≠ '\\') (hquote : c ≠ '"') : StandsAs c [c]

section Characters

variable {c c' : Char} {w w' r r' : List Char}

theorem standsAs_quotedChar (c : Char) : StandsAs c (quotedChar c) := by
  unfold quotedChar
  split
  case h_7 hquote hslash _ _ _ _ =>
    split
    · exact .number
    · exact .plain hslash hquote
  all_goals exact .letter (by decide)

/-- A character that stands in quotes can be told from what follows. -/
theorem StandsAs.append_inj (h : StandsAs c w) (h' : StandsAs c' w') (hw : w ++ r = w' ++ r') :
    c = c' ∧ r = r' := by
  cases h with
  | letter hk =>
    cases h' with
    | letter hk' =>
      simp only [List.cons_append, List.nil_append, List.cons.injEq, true_and] at hw
      have hinj : ∀ x ∈ letterForms, ∀ y ∈ letterForms, x.2 = y.2 → x.1 = y.1 := by decide
      exact ⟨hinj _ hk _ hk' hw.1, hw.2⟩
    | number =>
      simp only [List.cons_append, List.nil_append, List.cons.injEq, true_and] at hw
      have hne : ∀ x ∈ letterForms, x.2 ≠ 'u' := by decide
      exact absurd hw.1 (hne _ hk)
    | plain hslash _ => exact absurd (List.cons.inj hw).1.symm hslash
  | number =>
    cases h' with
    | letter hk' =>
      simp only [List.cons_append, List.nil_append, List.cons.injEq, true_and] at hw
      have hne : ∀ x ∈ letterForms, x.2 ≠ 'u' := by decide
      exact absurd hw.1.symm (hne _ hk')
    | number =>
      simp only [List.cons_append, List.append_assoc, List.nil_append, List.cons.injEq,
        true_and] at hw
      obtain ⟨hdigits, hr⟩ := brace_inj brace_not_mem_toDigits brace_not_mem_toDigits hw
      exact ⟨Char.toNat_inj.mp (toDigits_inj (by decide) (by decide) hdigits), hr⟩
    | plain hslash _ => exact absurd (List.cons.inj hw).1.symm hslash
  | plain hslash _ =>
    cases h' with
    | letter _ => exact absurd (List.cons.inj hw).1 hslash
    | number => exact absurd (List.cons.inj hw).1 hslash
    | plain _ _ => exact List.cons.inj hw

/-- No character that stands in quotes looks like the end of the quotes. -/
theorem StandsAs.append_ne_quote (h : StandsAs c w) : w ++ r ≠ '"' :: r' := by
  intro hw
  cases h with
  | letter _ => exact absurd (List.cons.inj hw).1 (by decide)
  | number => exact absurd (List.cons.inj hw).1 (by decide)
  | plain _ hquote => exact hquote (List.cons.inj hw).1

/-- A quoted text ends at its closing quote, so texts that are quoted alike are the same. -/
theorem flatMap_quotedChar_inj {s s' : List Char}
    (h : s.flatMap quotedChar ++ '"' :: r = s'.flatMap quotedChar ++ '"' :: r') :
    s = s' ∧ r = r' := by
  induction s generalizing s' with
  | nil =>
    cases s' with
    | nil => exact ⟨rfl, (List.cons.inj h).2⟩
    | cons c' s' =>
      rw [List.flatMap_cons, List.append_assoc] at h
      exact absurd h.symm (standsAs_quotedChar c').append_ne_quote
  | cons c s ih =>
    rw [List.flatMap_cons, List.append_assoc] at h
    cases s' with
    | nil => exact absurd h (standsAs_quotedChar c).append_ne_quote
    | cons c' s' =>
      rw [List.flatMap_cons, List.append_assoc] at h
      obtain ⟨rfl, hrest⟩ := (standsAs_quotedChar c).append_inj (standsAs_quotedChar c') h
      obtain ⟨rfl, hr⟩ := ih hrest
      exact ⟨rfl, hr⟩

end Characters

/-- A quoted text and what follows it can be told apart. -/
theorem quoted_append_inj {s s' r r' : String} (h : quoted s ++ r = quoted s' ++ r') :
    s = s' ∧ r = r' := by
  have hlist := congrArg String.toList h
  simp only [quoted, String.toList_append, String.toList_ofList, List.cons_append, List.nil_append,
    List.append_assoc, List.cons.injEq, true_and] at hlist
  obtain ⟨hs, hr⟩ := flatMap_quotedChar_inj hlist
  exact ⟨String.toList_inj.mp hs, String.toList_inj.mp hr⟩

theorem quoted_inj {s s' : String} (h : quoted s = quoted s') : s = s' :=
  (quoted_append_inj (congrArg (· ++ "") h)).1

end ChatRelay.Text
