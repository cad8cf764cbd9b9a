import ChatRelay.Proofs.AnyValue
import Mathlib.Algebra.Field.Rat

namespace ChatRelay.Json

/-- The number that digits make behind those of another number. -/
def decimalFrom (n : Nat) (ds : List UInt8) : Nat :=
  ds.foldl (fun n d => 10 * n + digitValue d) n

/-- A number without sign and exponent. -/
theorem spellsNumeral_of_isWhole {w ds f : List UInt8} (hw : IsWhole w) (hf : SpellsFraction ds f) :
    SpellsNumeral ⟨false, w, ds, none⟩ (w ++ f) := by
  have hspells : SpellsNumeral ⟨false, w, ds, none⟩ ([] ++ (w ++ (f ++ []))) :=
    .mk .positive hw hf .none
  rwa [List.append_nil, List.nil_append] at hspells

namespace Numeral

theorem decimalFrom_le (n : Nat) (ds : List UInt8) : n ≤ decimalFrom n ds := by
  induction ds generalizing n with
  | nil => exact Nat.le_refl n
  | cons d ds ih =>
    have hnext := ih (10 * n + digitValue d)
    rw [decimalFrom, List.foldl_cons]
    exact Nat.le_trans (by omega) hnext

/-- Digits that 64 bits hold are all taken in. -/
theorem absorb_of_lt {n : Nat} {ds : List UInt8} (h : decimalFrom n ds < 0x10000000000000000) :
    absorb n ds = (decimalFrom n ds, []) := by
  induction ds generalizing n with
  | nil => rfl
  | cons d ds ih =>
    have hle := decimalFrom_le (10 * n + digitValue d) ds
    rw [absorb, if_pos (Nat.lt_of_le_of_lt hle h)]
    exact ih h

/-- Digits that have all been taken in make their number. -/
theorem decimalFrom_of_absorb {n m : Nat} {ds : List UInt8} (h : absorb n ds = (m, [])) :
    m = decimalFrom n ds := by
  induction ds generalizing n with
  | nil =>
    cases h
    rfl
  | cons d ds ih =>
    rw [absorb] at h
    split at h
    · exact ih h
    · cases h

def rational (x : Numeral) : ℚ :=
  (if x.negative then -1 else 1) * (decimalValue (x.whole ++ x.fraction) : ℚ) *
    10 ^ (x.exponent.getD 0 - x.fraction.length)

/-- Whole numbers that 64 bits hold come to themselves. -/
theorem value_of_lt {w : List UInt8} (h : decimalValue w < 0x10000000000000000) :
    (⟨false, w, [], none⟩ : Numeral).value = .ok (.integer (decimalValue w)) := by
  unfold value
  rw [absorb_of_lt h]
  rfl

/-- What comes to a whole number has just this value. -/
theorem rational_of_value {x : Numeral} {n : Int} (h : x.value = .ok (.integer n)) :
    x.rational = n := by
  obtain ⟨negative, w, ds, k⟩ := x
  unfold value at h
  cases habsorb : absorb 0 w with
  | mk m surplus =>
    rw [habsorb] at h
    dsimp only at h
    split at h
    · rename_i hplain
      obtain ⟨rfl, rfl, rfl, hpositive⟩ := hplain
      cases h
      have hm : m = decimalValue w := decimalFrom_of_absorb habsorb
      simp [rational, hpositive, hm]
    · rename_i hsigned
      split at h
      · rename_i hplain
        obtain ⟨rfl, rfl, rfl, _⟩ := hplain
        cases h
        have hnegative : negative = true := by simpa using hsigned
        have hm : m = decimalValue w := decimalFrom_of_absorb habsorb
        simp [rational, hnegative, hm]
      · split at h <;> cases h

end Numeral

section Natural

variable {limit : Nat} {w : List UInt8}

/-- A number is taken for a whole one if it comes to one in range, and its fault is told else. -/
theorem run_natural {u r : List UInt8} {x : Numeral}
    (expected : String) (hw : SpellsNumeral x w) (hu : Blank u) (hr : Apart r) :
    (natural limit expected).run (u ++ (w ++ r)) =
      match x.value with
      | .error e => .error e
      | .ok (.integer n) =>
        if 0 ≤ n ∧ n ≤ limit then .ok (n.toNat, r) else .error (.wrongValue (.integer n) expected)
      | .ok (.decimal d) => .error (.wrongType (.decimal d) expected) := by
  obtain ⟨b, t, rfl, hb⟩ := startsNumber_of_isNumber (isNumber_iff.mpr ⟨x, hw⟩)
  have hread : readNumber (b :: (t ++ r)) = x.value.map (·, r) := by
    unfold readNumber
    rw [← List.cons_append, Numeral.scan_of_spells hw hr]
    change (x.value >>= fun n => .ok (n, r)) = _
    cases x.value <;> rfl
  change readNatural limit expected _ = _
  unfold readNatural
  rw [List.cons_append, hu.skip_cons (outset_of_startsNumber hb).1.unblank]
  dsimp only
  rw [if_pos hb, hread]
  cases x.value with
  | error e => rfl
  | ok n => cases n <;> rfl

/-- Digits that make a number up to the limit are taken for this number. -/
theorem natural_takes (hw : IsWhole w) (hn : Numeral.decimalValue w ≤ limit)
    (hlimit : limit < 0x10000000000000000) (expected : String) :
    (natural limit expected).Takes w (Numeral.decimalValue w) := by
  intro u r hu hr
  have hspells := spellsNumeral_of_isWhole hw .none
  rw [List.append_nil] at hspells
  rw [run_natural expected hspells hu hr, Numeral.value_of_lt (by omega)]
  dsimp only
  rw [if_pos ⟨Int.natCast_nonneg _, Int.ofNat_le.mpr hn⟩, Int.toNat_natCast]

/-- A number that is taken, however it is spelled, is taken for its value, which is up to the
limit. -/
theorem rational_of_natural {expected : String} {x : Numeral} {u r t : List UInt8} {n : Nat}
    (hw : SpellsNumeral x w) (hu : Blank u) (hr : Apart r)
    (h : (natural limit expected).run (u ++ (w ++ r)) = .ok (n, t)) :
    x.rational = n ∧ n ≤ limit := by
  rw [run_natural expected hw hu hr] at h
  split at h
  · cases h
  · rename_i m hm
    split at h
    · rename_i hrange
      cases h
      obtain ⟨k, rfl⟩ := Int.eq_ofNat_of_zero_le hrange.1
      rw [Numeral.rational_of_value hm, Int.toNat_natCast]
      exact ⟨by simp, by omega⟩
    · cases h
  · cases h

end Natural

end ChatRelay.Json
