import ChatRelay.Error
import ChatRelay.Proofs.Neighbors
import ChatRelay.Proofs.QuotedText
import Mathlib.Data.List.Nodup

namespace ChatRelay

def NodeAddress.Blank (n : NodeAddress) : Prop :=
  n.name = "" ∨ n.host = ""

instance (n : NodeAddress) : Decidable n.Blank :=
  inferInstanceAs (Decidable (_ ∨ _))

/-- What is told of a row that cannot stand where it stands. -/
def NodeAddress.fault (n : NodeAddress) : TopologyFault :=
  if n.Blank then .unnamed n else .repeated n.name

/-- Two rows that are shown alike are the same row. -/
theorem NodeAddress.text_inj {m n : NodeAddress} (h : m.text = n.text) : m = n := by
  unfold NodeAddress.text at h
  simp only [String.append_assoc, String.append_right_inj] at h
  obtain ⟨hname, h⟩ := Text.quoted_append_inj h
  rw [String.append_right_inj] at h
  obtain ⟨hhost, h⟩ := Text.quoted_append_inj h
  rw [String.append_right_inj, String.append_left_inj, Nat.toString_eq_repr, Nat.toString_eq_repr]
    at h
  have hport := UInt16.toNat_inj.mp (Text.repr_inj h)
  obtain ⟨_, _, _⟩ := m
  obtain ⟨_, _, _⟩ := n
  cases hname
  cases hhost
  cases hport
  rfl

namespace TopologyFault

/-- What can be wrong with the rows of a table. -/
inductive OfRows : TopologyFault → Prop where
  | empty : OfRows empty
  | tooLong (length : Nat) : OfRows (tooLong length)
  | unnamed (n : NodeAddress) : OfRows (unnamed n)
  | repeated (name : String) : OfRows (repeated name)

/-- How many rows are too many stands in front of the rest of the text. -/
theorem reason_tooLong :
    ∃ rest, ∀ length, (tooLong length).reason = "chain has " ++ (length.repr ++ rest) := by
  refine ⟨" nodes (max " ++ toString Topology.maxLength ++ ")", fun length => ?_⟩
  have h : (tooLong length).reason =
      "chain has " ++ length.repr ++ " nodes (max " ++ toString Topology.maxLength ++ ")" := rfl
  rw [h]
  simp only [String.append_assoc]

theorem reason_unnamed (n : NodeAddress) :
    (unnamed n).reason = "node entry with empty name or host: " ++ n.text := rfl

theorem reason_repeated (name : String) :
    (repeated name).reason = "duplicate node name " ++ Text.quoted name := rfl

theorem reason_empty_ne (length : Nat) : empty.reason ≠ (tooLong length).reason := by
  obtain ⟨rest, hrest⟩ := reason_tooLong
  intro h
  have hwords : "chain has " ++ "no nodes" = "chain has " ++ (length.repr ++ rest) :=
    h.trans (hrest length)
  have hlist := congrArg String.toList ((String.append_right_inj "chain has ").mp hwords)
  -- A number begins with a digit.
  obtain ⟨c, digits, hdigits⟩ :=
    List.exists_cons_of_ne_nil (Nat.toDigits_ne_nil (n := length) (b := 10))
  have hc : c.isDigit = true :=
    Nat.isDigit_of_mem_toDigits (by decide) (by decide) (hdigits ▸ List.mem_cons_self)
  rw [String.toList_append, Nat.toList_repr, hdigits] at hlist
  obtain rfl : 'n' = c := (List.cons.inj hlist).1
  cases hc

/-- The letter that what is wrong with rows begins with in words. -/
def initial : TopologyFault → Char
  | unnamed _ => 'n'
  | repeated _ => 'd'
  | _ => 'c'

theorem OfRows.head?_reason {f : TopologyFault} (hf : f.OfRows) :
    f.reason.toList.head? = some f.initial := by
  cases hf with
  | empty => rfl
  | tooLong length =>
    obtain ⟨rest, hrest⟩ := reason_tooLong
    rw [hrest, String.toList_append]
    rfl
  | unnamed n =>
    rw [reason_unnamed, String.toList_append]
    rfl
  | repeated name =>
    rw [reason_repeated, String.toList_append]
    rfl

/-- What is wrong with rows can be told from the words for it. -/
theorem OfRows.reason_inj {f g : TopologyFault} (hf : f.OfRows) (hg : g.OfRows)
    (h : f.reason = g.reason) : f = g := by
  have hinitial : f.initial = g.initial := by
    apply Option.some.inj
    rw [← hf.head?_reason, ← hg.head?_reason, h]
  cases hf <;> cases hg
  case empty.empty => rfl
  case empty.tooLong length => exact absurd h (reason_empty_ne length)
  case tooLong.empty length => exact absurd h.symm (reason_empty_ne length)
  case tooLong.tooLong length length' =>
    obtain ⟨rest, hrest⟩ := reason_tooLong
    rw [hrest, hrest, String.append_right_inj, String.append_left_inj] at h
    rw [Text.repr_inj h]
  case unnamed.unnamed m n =>
    rw [reason_unnamed, reason_unnamed, String.append_right_inj] at h
    rw [NodeAddress.text_inj h]
  case repeated.repeated name name' =>
    rw [reason_repeated, reason_repeated, String.append_right_inj] at h
    rw [Text.quoted_inj h]
  -- All others begin with different letters.
  all_goals cases hinitial

end TopologyFault

namespace Topology

/-- As many rows as there are places, all with a name and a host, and no name twice. -/
structure Sound (t : Topology) : Prop where
  nonempty : 1 ≤ t.nodes.length
  length_le : t.nodes.length ≤ 256
  named : ∀ n ∈ t.nodes, n.name ≠ "" ∧ n.host ≠ ""
  distinct : (t.nodes.map (·.name)).Nodup

/-- The row of a place is blank or has the name of a row before it. -/
def OffendsAt (t : Topology) (j : Nat) (n : NodeAddress) : Prop :=
  t.nodes[j]? = some n ∧ (n.Blank ∨ ∃ i < j, ∃ m, t.nodes[i]? = some m ∧ m.name = n.name)

structure FirstOffence (t : Topology) (j : Nat) (n : NodeAddress) : Prop where
  offends : t.OffendsAt j n
  first : ∀ i < j, ∀ m, ¬ t.OffendsAt i m

section Rows

variable {seen : List String} {nodes : List NodeAddress}

/-- A row is told if it is blank or its name has been seen, whichever of both it is. -/
theorem rowFault?_cons (n : NodeAddress) :
    rowFault? seen (n :: nodes) =
      if n.Blank ∨ n.name ∈ seen then some n.fault else rowFault? (n.name :: seen) nodes := by
  by_cases hblank : n.name = "" ∨ n.host = ""
  · simp [rowFault?, NodeAddress.fault, NodeAddress.Blank, hblank]
  · by_cases hseen : n.name ∈ seen <;>
      simp [rowFault?, NodeAddress.fault, NodeAddress.Blank, hblank, hseen]

/-- Nothing is wrong with rows that are not blank, and names that neither come twice nor have been
seen. -/
theorem rowFault?_eq_none :
    rowFault? seen nodes = none ↔
      (∀ n ∈ nodes, ¬ n.Blank) ∧ (nodes.map (·.name)).Nodup ∧ ∀ n ∈ nodes, n.name ∉ seen := by
  induction nodes generalizing seen with
  | nil => simp [rowFault?]
  | cons n nodes ih =>
    rw [rowFault?_cons]
    by_cases h : n.Blank ∨ n.name ∈ seen
    · simp only [h, if_true, reduceCtorEq, false_iff]
      rintro ⟨hnamed, _, hfresh⟩
      exact h.elim (hnamed n List.mem_cons_self) (hfresh n List.mem_cons_self)
    · simp only [h, if_false, ih, List.map_cons, List.nodup_cons, List.mem_cons, List.mem_map,
        forall_eq_or_imp]
      obtain ⟨hblank, hseen⟩ := not_or.mp h
      constructor
      · rintro ⟨hnamed, hdistinct, hfresh⟩
        refine ⟨⟨hblank, hnamed⟩, ⟨?_, hdistinct⟩, hseen, fun m hm => (not_or.mp (hfresh m hm)).2⟩
        rintro ⟨m, hm, hname⟩
        exact hfresh m hm (.inl hname)
      · rintro ⟨⟨_, hnamed⟩, ⟨hother, hdistinct⟩, _, hfresh⟩
        refine ⟨hnamed, hdistinct, fun m hm => not_or.mpr ⟨fun hname => ?_, hfresh m hm⟩⟩
        exact hother ⟨m, hm, hname⟩

/-- The row that is told is blank, or has a name that has been seen or stands before it, and nothing
is wrong with the rows before it. -/
theorem exists_row_of_rowFault? {fault : TopologyFault} (h : rowFault? seen nodes = some fault) :
    ∃ before n after, nodes = before ++ n :: after ∧ rowFault? seen before = none ∧
      (n.Blank ∨ n.name ∈ seen ∨ n.name ∈ before.map (·.name)) ∧ fault = n.fault := by
  induction nodes generalizing seen with
  | nil => cases h
  | cons n nodes ih =>
    rw [rowFault?_cons] at h
    split at h
    · rename_i hn
      exact ⟨[], n, nodes, rfl, rfl, hn.imp_right .inl, (Option.some.inj h).symm⟩
    · rename_i hn
      obtain ⟨before, m, after, rfl, hbefore, hm, hfault⟩ := ih h
      refine ⟨n :: before, m, after, rfl, ?_, ?_, hfault⟩
      · rw [rowFault?_cons, if_neg hn, hbefore]
      · simp only [List.mem_cons, List.map_cons] at hm ⊢
        tauto

end Rows

variable {t : Topology}

theorem fault?_of_empty (h : t.nodes = []) : t.fault? = some .empty :=
  if_pos h

theorem fault?_of_long (h : 256 < t.nodes.length) :
    t.fault? = some (.tooLong t.nodes.length) := by
  have hempty : t.nodes ≠ [] := List.length_pos_iff.mp (Nat.zero_lt_of_lt h)
  simp only [fault?, hempty, maxLength, h, if_false, if_true]

theorem fault?_of_fits (hempty : t.nodes ≠ []) (hlong : t.nodes.length ≤ 256) :
    t.fault? = rowFault? [] t.nodes := by
  simp only [fault?, hempty, maxLength, Nat.not_lt.mpr hlong, if_false]

/-- A table is accepted exactly if it is sound. -/
theorem fault?_eq_none : t.fault? = none ↔ t.Sound := by
  by_cases hempty : t.nodes = []
  · rw [fault?_of_empty hempty]
    refine iff_of_false nofun fun h => ?_
    exact Nat.ne_of_gt h.nonempty (List.length_eq_zero_iff.mpr hempty)
  by_cases hlong : t.nodes.length ≤ 256
  · rw [fault?_of_fits hempty hlong, rowFault?_eq_none]
    constructor
    · rintro ⟨hnamed, hdistinct, _⟩
      exact ⟨List.length_pos_iff.mpr hempty, hlong, fun n hn => not_or.mp (hnamed n hn), hdistinct⟩
    · intro h
      exact ⟨fun n hn => not_or.mpr (h.named n hn), h.distinct, by simp⟩
  · rw [fault?_of_long (Nat.lt_of_not_le hlong)]
    exact iff_of_false nofun fun h => hlong h.length_le

theorem ofRows_of_fault? {fault : TopologyFault} (h : t.fault? = some fault) : fault.OfRows := by
  by_cases hempty : t.nodes = []
  · rw [fault?_of_empty hempty] at h
    cases h
    exact .empty
  by_cases hlong : t.nodes.length ≤ 256
  · rw [fault?_of_fits hempty hlong] at h
    obtain ⟨_, n, _, _, _, _, rfl⟩ := exists_row_of_rowFault? h
    by_cases hblank : n.Blank
    · simpa only [NodeAddress.fault, if_pos hblank] using .unnamed n
    · simpa only [NodeAddress.fault, if_neg hblank] using .repeated n.name
  · rw [fault?_of_long (Nat.lt_of_not_le hlong)] at h
    cases h
    exact .tooLong _

theorem checked_eq_ok {t' : Topology} : t.checked = .ok t' ↔ t.fault? = none ∧ t' = t := by
  unfold checked
  cases t.fault? <;> simp [eq_comm]

theorem checked_eq_error {fault : TopologyFault} :
    t.checked = .error fault ↔ t.fault? = some fault := by
  unfold checked
  cases t.fault? <;> simp

section Offences

variable {before after : List NodeAddress} {i j : Nat} {m n : NodeAddress}

/-- In rows that nothing is wrong with none offends. -/
theorem not_offendsAt (ht : t.nodes = before ++ after) (hbefore : rowFault? [] before = none)
    (hi : i < before.length) : ¬ t.OffendsAt i m := by
  obtain ⟨hnamed, hdistinct, _⟩ := rowFault?_eq_none.mp hbefore
  have hrow {k : Nat} (hk : k < before.length) : t.nodes[k]? = before[k]? := by
    rw [ht, List.getElem?_append_left hk]
  rintro ⟨hm, hblank | ⟨k, hk, m', hm', hname⟩⟩
  · rw [hrow hi] at hm
    exact hnamed m (List.mem_of_getElem? hm) hblank
  · rw [hrow hi] at hm
    rw [hrow (Nat.lt_trans hk hi)] at hm'
    have hsame : (before.map (·.name))[k]? = (before.map (·.name))[i]? := by
      rw [List.getElem?_map, List.getElem?_map, hm, hm']
      exact congrArg some hname
    have hlt : k < (before.map (·.name)).length := by
      rw [List.length_map]
      exact Nat.lt_trans hk hi
    exact Nat.ne_of_lt hk ((List.getElem?_inj hlt hdistinct).mp hsame)

theorem firstOffence_of_rowFault? (ht : t.nodes = before ++ n :: after)
    (hbefore : rowFault? [] before = none) (hn : n.Blank ∨ n.name ∈ before.map (·.name)) :
    t.FirstOffence before.length n := by
  refine ⟨⟨by simp [ht], hn.imp_right fun hname => ?_⟩, fun i hi m => ?_⟩
  · obtain ⟨m, hm, hname⟩ := List.mem_map.mp hname
    obtain ⟨i, hi, hrow⟩ := List.mem_iff_getElem.mp hm
    refine ⟨i, hi, m, ?_, hname⟩
    rw [ht, List.getElem?_append_left hi, List.getElem?_eq_getElem hi, hrow]
  · exact not_offendsAt ht hbefore hi

/-- Of a table that is neither empty nor too long the first row that offends is told. -/
theorem exists_firstOffence (hempty : t.nodes ≠ []) (hlong : t.nodes.length ≤ 256)
    (h : ¬ t.Sound) : ∃ j n, t.FirstOffence j n ∧ t.fault? = some n.fault := by
  cases hfault : t.fault? with
  | none => exact absurd (fault?_eq_none.mp hfault) h
  | some fault =>
    rw [fault?_of_fits hempty hlong] at hfault
    obtain ⟨before, n, after, hnodes, hbefore, hn, rfl⟩ := exists_row_of_rowFault? hfault
    refine ⟨before.length, n, firstOffence_of_rowFault? hnodes hbefore ?_, rfl⟩
    simpa using hn

end Offences

section Places

variable {p q : Position}

/-- Every row of a sound table has a place. -/
theorem Sound.exists_position (h : t.Sound) {i : Nat} (hi : i < t.nodes.length) :
    ∃! p : Position, p.index.toNat = i := by
  have hlt : i < 256 := Nat.lt_of_lt_of_le hi h.length_le
  refine ⟨⟨UInt8.ofNat i⟩, UInt8.toNat_ofNat_of_lt hlt, fun q hq => ?_⟩
  apply Position.ext_toNat
  rw [hq]
  exact (UInt8.toNat_ofNat_of_lt hlt).symm

theorem Sound.name?_ne (h : t.Sound) (hp : t.isValid p = true) (hne : p ≠ q) :
    t.name? p ≠ t.name? q := by
  intro hname
  have hlt : p.index.toNat < (t.nodes.map (·.name)).length := by
    rw [List.length_map]
    exact of_decide_eq_true hp
  apply hne
  apply Position.ext_toNat
  apply (List.getElem?_inj hlt h.distinct).mp
  rw [List.getElem?_map, List.getElem?_map]
  exact hname

/-- The right neighbor of one node has it as its left neighbor. -/
theorem right?_eq_some_iff (hp : t.isValid p = true) (hq : t.isValid q = true) :
    t.right? p = some q ↔ t.left? q = some p :=
  ⟨neighbor?_opposite hp, neighbor?_opposite hq⟩

end Places

/-- A table is accepted exactly if it is sound, and comes through as it is. Otherwise it is told
that there is no row, or how many rows are too many, or else which row is the first that is blank or
has the name of a row before it; a row that is both is told as blank. No two different things are
told in the same words. The rows of an accepted table have one place each, different places have
different names, and the right neighbor of one node has it as its left neighbor. -/
theorem culprit_told (t : Topology) :
    (∀ t', t.checked = .ok t' ↔ t.Sound ∧ t' = t) ∧
    (t.nodes = [] → t.checked = .error .empty) ∧
    (256 < t.nodes.length → t.checked = .error (.tooLong t.nodes.length)) ∧
    (t.nodes ≠ [] → t.nodes.length ≤ 256 → ¬ t.Sound → ∃ j n, t.FirstOffence j n ∧
      (n.Blank → t.checked = .error (.unnamed n)) ∧
      (¬ n.Blank → t.checked = .error (.repeated n.name))) ∧
    (∀ (t' : Topology) f f', t.checked = .error f → t'.checked = .error f' →
      (RelayError.topology f).message = (RelayError.topology f').message → f = f') ∧
    (t.checked = .ok t →
      (∀ i < t.nodes.length, ∃! p : Position, p.index.toNat = i) ∧
      ∀ p q, t.isValid p = true → t.isValid q = true →
        (p ≠ q → t.name? p ≠ t.name? q) ∧ (t.right? p = some q ↔ t.left? q = some p)) := by
  refine ⟨fun t' => ?_, fun hempty => ?_, fun hlong => ?_, fun hempty hlong hsound => ?_,
    fun t' f f' hf hf' hwords => ?_, fun h => ⟨fun i hi => ?_, fun p q hp hq => ⟨?_, ?_⟩⟩⟩
  · rw [checked_eq_ok, fault?_eq_none]
  · exact checked_eq_error.mpr (fault?_of_empty hempty)
  · exact checked_eq_error.mpr (fault?_of_long hlong)
  · obtain ⟨j, n, hfirst, hfault⟩ := exists_firstOffence hempty hlong hsound
    refine ⟨j, n, hfirst, fun hn => ?_, fun hn => ?_⟩ <;> apply checked_eq_error.mpr
    · rw [hfault, NodeAddress.fault, if_pos hn]
    · rw [hfault, NodeAddress.fault, if_neg hn]
  · apply (ofRows_of_fault? (checked_eq_error.mp hf)).reason_inj
      (ofRows_of_fault? (checked_eq_error.mp hf'))
    exact (String.append_right_inj "topology error: ").mp hwords
  · exact (fault?_eq_none.mp (checked_eq_ok.mp h).1).exists_position hi
  · exact (fault?_eq_none.mp (checked_eq_ok.mp h).1).name?_ne hp
  · exact right?_eq_some_iff hp hq

/-- Of a table with a row that is blank and repeated behind one that is only repeated, the first is
told; the standard table is accepted and links its first two nodes both ways. -/
theorem culprit_told_repeated :
    let t : Topology := ⟨[⟨"a", "h", 1⟩, ⟨"a", "h", 2⟩, ⟨"a", "", 3⟩]⟩
    (∃ j n, t.FirstOffence j n ∧ (¬ n.Blank → t.checked = .error (.repeated n.name))) ∧
    t.checked = .error (.repeated "a") ∧ standard.Sound ∧
    (standard.right? ⟨0⟩ = some ⟨1⟩ ∧ standard.left? ⟨1⟩ = some ⟨0⟩) := by
  intro t
  have hsound : ¬ t.Sound := fun h => absurd h.distinct (by decide)
  obtain ⟨_, _, _, hrow, _⟩ := culprit_told t
  obtain ⟨j, n, hfirst, _, hrepeated⟩ := hrow (by decide) (by decide) hsound
  obtain ⟨haccepted, _, _, _, _, hplaces⟩ := culprit_told standard
  have hok : standard.checked = .ok standard := by decide
  have hright : standard.right? ⟨0⟩ = some ⟨1⟩ := by decide
  obtain ⟨_, hneighbors⟩ := (hplaces hok).2 ⟨0⟩ ⟨1⟩ (by decide) (by decide)
  exact ⟨⟨j, n, hfirst, hrepeated⟩, by decide, ((haccepted _).mp hok).1, hright,
    hneighbors.mp hright⟩

end Topology

end ChatRelay
