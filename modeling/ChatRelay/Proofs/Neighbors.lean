import ChatRelay.Chain.Topology

namespace ChatRelay

namespace Position

variable {p q : Position}

theorem ext_toNat (h : p.index.toNat = q.index.toNat) : p = q := by
  obtain ⟨i⟩ := p
  obtain ⟨j⟩ := q
  exact congrArg mk (UInt8.toNat_inj.mp h)

/-- One place to the left is one number less, and there is none to the left of the first. -/
theorem left?_eq_some : p.left? = some q ↔ q.index.toNat + 1 = p.index.toNat := by
  unfold left?
  rw [Option.ite_none_left_eq_some]
  constructor
  · rintro ⟨hne, h⟩
    cases h
    have hpos : p.index.toNat ≠ 0 := fun h0 => hne (UInt8.toNat_inj.mp h0)
    have hle : (1 : UInt8) ≤ p.index := UInt8.le_iff_toNat_le.mpr (Nat.pos_of_ne_zero hpos)
    rw [UInt8.toNat_sub_of_le _ _ hle]
    exact Nat.sub_add_cancel (Nat.pos_of_ne_zero hpos)
  · intro h
    have hle : (1 : UInt8) ≤ p.index := by
      apply UInt8.le_iff_toNat_le.mpr
      change 1 ≤ _
      omega
    refine ⟨?_, ?_⟩
    · intro h0
      rw [h0] at h
      cases h
    · apply congrArg some
      apply ext_toNat
      rw [UInt8.toNat_sub_of_le _ _ hle]
      change p.index.toNat - 1 = _
      omega

/-- One place to the right is one number more, as far as an octet can tell. -/
theorem right?_eq_some : p.right? = some q ↔ p.index.toNat + 1 = q.index.toNat := by
  have hp := p.index.toNat_lt
  have hq := q.index.toNat_lt
  unfold right?
  rw [Option.ite_none_left_eq_some]
  constructor
  · rintro ⟨hne, h⟩
    cases h
    have hlt : p.index.toNat ≠ 255 := fun h0 => hne (UInt8.toNat_inj.mp h0)
    rw [UInt8.toNat_add]
    change _ = (p.index.toNat + 1) % 256
    omega
  · intro h
    refine ⟨?_, ?_⟩
    · intro h0
      rw [h0] at h
      change 255 + 1 = _ at h
      omega
    · apply congrArg some
      apply ext_toNat
      rw [UInt8.toNat_add]
      change (p.index.toNat + 1) % 256 = _
      omega

end Position

theorem Side.next?_opposite {s : Side} {p q : Position} (h : s.next? p = some q) :
    s.opposite.next? q = some p := by
  cases s with
  | left => exact Position.right?_eq_some.mpr (Position.left?_eq_some.mp h)
  | right => exact Position.left?_eq_some.mpr (Position.right?_eq_some.mp h)

theorem Side.next?_ne_self {s : Side} {p : Position} : s.next? p ≠ some p := by
  intro h
  cases s with
  | left =>
    have := Position.left?_eq_some.mp h
    omega
  | right =>
    have := Position.right?_eq_some.mp h
    omega

namespace Topology

variable {t : Topology} {s : Side} {p q : Position}

theorem isValid_of_neighbor? (h : t.neighbor? s p = some q) : t.isValid q = true :=
  (Option.filter_eq_some_iff.mp h).2

/-- A node is the neighbor of its neighbor, on the other side. -/
theorem neighbor?_opposite (hp : t.isValid p = true) (h : t.neighbor? s p = some q) :
    t.neighbor? s.opposite q = some p :=
  Option.filter_eq_some_iff.mpr ⟨Side.next?_opposite (Option.filter_eq_some_iff.mp h).1, hp⟩

/-- No node is its own neighbor. -/
theorem neighbor?_ne_self : t.neighbor? s p ≠ some p :=
  fun h => Side.next?_ne_self (Option.filter_eq_some_iff.mp h).1

end Topology

end ChatRelay
