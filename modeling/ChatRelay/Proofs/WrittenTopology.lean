import ChatRelay.Chain.Resolution
import ChatRelay.Proofs.DatagramCodec
import ChatRelay.Proofs.SpelledNumber

namespace ChatRelay

open Json

namespace Json

def IsText (w : List UInt8) : Prop := ∃ cs : List Char, cs.flatMap String.utf8EncodeChar = w

theorem Ends.apart {r : List UInt8} (h : Ends r) : Apart r :=
  fun b hb => .inr (h b hb)

section Digits

theorem digit_of_lt {n : Nat} (h : n < 10) :
    isDigit (UInt8.ofNat (0x30 + n)) = true ∧ digitValue (UInt8.ofNat (0x30 + n)) = n := by
  have hall : ∀ n < 10, isDigit (UInt8.ofNat (0x30 + n)) = true ∧
      digitValue (UInt8.ofNat (0x30 + n)) = n := by decide
  exact hall n h

theorem decimalValue_concat (ds : List UInt8) (d : UInt8) :
    Numeral.decimalValue (ds ++ [d]) = 10 * Numeral.decimalValue ds + digitValue d := by
  simp only [Numeral.decimalValue, List.foldl_append, List.foldl_cons, List.foldl_nil]

theorem decimalValue_writeNatural (n : Nat) : Numeral.decimalValue (writeNatural n) = n := by
  induction n using Nat.strongRecOn with
  | ind n ih =>
    rw [writeNatural]
    split
    · rename_i hn
      change 10 * 0 + digitValue _ = n
      rw [(digit_of_lt hn).2]
      omega
    · rename_i hn
      rw [decimalValue_concat, ih (n / 10) (by omega), (digit_of_lt (n.mod_lt (by omega))).2]
      omega

/-- No number is written with a zero in front. -/
theorem isWhole_writeNatural (n : Nat) : IsWhole (writeNatural n) := by
  induction n using Nat.strongRecOn with
  | ind n ih =>
    rw [writeNatural]
    split
    · rename_i hn
      by_cases h0 : n = 0
      · subst h0
        exact .zero
      · refine .positive (digit_of_lt hn).1 ?_ (List.forall_mem_nil _)
        intro heq
        have hdigit := (digit_of_lt hn).2
        rw [heq] at hdigit
        exact h0 hdigit.symm
    · rename_i hn
      have hlast := (digit_of_lt (n.mod_lt (by omega))).1
      have hvalue := decimalValue_writeNatural (n / 10)
      have hfront := ih (n / 10) (by omega)
      generalize writeNatural (n / 10) = w at hvalue hfront
      cases hfront with
      | zero =>
        have hzero : Numeral.decimalValue [0x30] = 0 := rfl
        omega
      | positive hb h0 hw =>
        refine .positive hb h0 fun c hc => ?_
        rcases List.mem_append.mp hc with hc | hc
        · exact hw c hc
        · cases List.mem_singleton.mp hc
          exact hlast

end Digits

/-- A number up to the limit is read back. -/
theorem natural_reads {n limit : Nat} (hn : n ≤ limit) (hlimit : limit < 0x10000000000000000)
    (expected : String) : (natural limit expected).Reads (writeNatural n) n := by
  intro r hr
  have hvalue := decimalValue_writeNatural n
  have htakes := natural_takes (isWhole_writeNatural n) (by omega) hlimit expected
  rw [hvalue] at htakes
  exact htakes [] r blank_nil hr.apart

section Text

variable {v w : List UInt8}

theorem isText_iff : IsText w ↔ ∃ s, Text.ofOctets? w = some s := by
  constructor
  · rintro ⟨cs, rfl⟩
    refine ⟨String.ofList cs, ?_⟩
    rw [← Text.ofOctets?_octets (String.ofList cs), octets_eq_flatMap, String.toList_ofList]
  · rintro ⟨s, h⟩
    exact ⟨s.toList, (octets_eq_flatMap s).symm.trans (Text.octets_of_ofOctets? h)⟩

theorem IsText.append (hv : IsText v) (hw : IsText w) : IsText (v ++ w) := by
  obtain ⟨cs, rfl⟩ := hv
  obtain ⟨ds, rfl⟩ := hw
  exact ⟨cs ++ ds, List.flatMap_append⟩

/-- Characters of ASCII are texts of one octet. -/
theorem isText_ascii (h : ∀ b ∈ w, b.toNat < 0x80) : IsText w := by
  refine ⟨w.map fun b => Char.ofNat b.toNat, ?_⟩
  induction w with
  | nil => rfl
  | cons b w ih =>
    obtain ⟨hb, hw⟩ := List.forall_mem_cons.mp h
    rw [List.map_cons, List.flatMap_cons, ih hw, utf8EncodeChar_ofNat hb, UInt8.ofNat_toNat]
    rfl

theorem isText_mark {b : UInt8} (h : b.toNat < 0x80) : IsText [b] :=
  isText_ascii (List.forall_mem_singleton.mpr h)

/-- What the writer puts for a character of ASCII is of ASCII. -/
theorem isText_escaped (c : Char) : IsText ((String.utf8EncodeChar c).flatMap escaped) := by
  have hascii : ∀ n < 0x80, (escaped (UInt8.ofNat n)).all (·.toNat < 0x80) = true := by decide
  by_cases h : c.toNat < 0x80
  · rw [utf8EncodeChar_of_lt h, List.flatMap_singleton]
    exact isText_ascii fun b hb => of_decide_eq_true (List.all_eq_true.mp (hascii _ h) b hb)
  · have hle := Nat.le_of_not_lt h
    rw [flatMap_escaped_of_isPlain fun b hb => isPlain_of_le (le_of_mem_utf8EncodeChar hle b hb)]
    exact ⟨[c], List.append_nil _⟩

theorem isText_writeString (s : String) : IsText (writeString s) := by
  have hall : ∀ cs : List Char, IsText ((cs.flatMap String.utf8EncodeChar).flatMap escaped) := by
    intro cs
    induction cs with
    | nil => exact ⟨[], rfl⟩
    | cons c cs ih =>
      rw [List.flatMap_cons, List.flatMap_append]
      exact (isText_escaped c).append ih
  have hquote : IsText [quoteMark] := isText_mark (by decide)
  have hbody := hall s.toList
  rw [← octets_eq_flatMap] at hbody
  exact (hquote.append hbody).append hquote

theorem isText_writeNatural (n : Nat) : IsText (writeNatural n) := by
  have hdigit : ∀ b, isDigit b = true → b.toNat < 0x80 := by
    intro b hb
    simp only [isDigit, Bool.and_eq_true, decide_eq_true_eq, UInt8.le_iff_toNat_le] at hb
    exact Nat.lt_of_le_of_lt hb.2 (by decide)
  apply isText_ascii
  have hdigits := Numeral.isDigits_of_isWhole (isWhole_writeNatural n)
  generalize writeNatural n = w at hdigits
  obtain ⟨hb, hw⟩ := hdigits
  exact List.forall_mem_cons.mpr ⟨hdigit _ hb, fun c hc => hdigit c (hw c hc)⟩

/-- Commas between texts make a text. -/
theorem isText_separated {ws : List (List UInt8)} (h : ∀ w ∈ ws, IsText w) :
    IsText (separated ws) := by
  have hcomma : IsText [comma] := isText_mark (by decide)
  cases ws with
  | nil => exact ⟨[], rfl⟩
  | cons w ws =>
    obtain ⟨hw, hws⟩ := List.forall_mem_cons.mp h
    rw [separated_cons]
    refine hw.append ?_
    induction ws with
    | nil => exact ⟨[], rfl⟩
    | cons v vs ih =>
      obtain ⟨hv, hvs⟩ := List.forall_mem_cons.mp hws
      rw [List.flatMap_cons]
      exact (hcomma.append hv).append (ih (List.forall_mem_cons.mpr ⟨hw, hvs⟩) hvs)

theorem isText_writeObject {ms : List (List UInt8)} (h : ∀ m ∈ ms, IsText m) :
    IsText (writeObject ms) := by
  have hopen : IsText [openObject] := isText_mark (by decide)
  have hclose : IsText [closeObject] := isText_mark (by decide)
  exact (hopen.append (isText_separated h)).append hclose

theorem isText_writeList {ws : List (List UInt8)} (h : ∀ w ∈ ws, IsText w) :
    IsText (writeList ws) := by
  have hopen : IsText [openList] := isText_mark (by decide)
  have hclose : IsText [closeList] := isText_mark (by decide)
  exact (hopen.append (isText_separated h)).append hclose

theorem isText_writeMember (key : String) (h : IsText v) : IsText (writeMember key v) := by
  have hcolon : IsText [colonMark] := isText_mark (by decide)
  exact (isText_writeString key).append (hcolon.append h)

end Text

end Json

namespace NodeAddress

/-- Every row, sound or not, is read back from its writing. -/
theorem reads (n : NodeAddress) : reader.Reads n.json n := by
  have hname := (string_reads n.name).map fun s (d : Draft) => { d with name := some s }
  have hhost := (string_reads n.host).map fun s (d : Draft) => { d with host := some s }
  have hlimit : n.port.toNat ≤ 65535 := Nat.le_of_lt_succ n.port.toNat_lt
  have hport := (natural_reads hlimit (by decide) "u16").map
    fun p (d : Draft) => { d with port := some (UInt16.ofNat p) }
  rw [UInt16.ofNat_toNat] at hport
  have hfills : record.Fills record.blank
      [writeMember "name" (writeString n.name), writeMember "host" (writeString n.host),
        writeMember "port" (writeNatural n.port.toNat)]
      ⟨some n.name, some n.host, some n.port⟩ :=
    .cons rfl hname (.cons rfl hhost (.cons rfl hport (.nil _)))
  exact Record.reads_writeObject hfills rfl

theorem opens_json (n : NodeAddress) : Opens n.json :=
  ⟨openObject, _, rfl, by decide, by decide⟩

theorem isText_json (n : NodeAddress) : IsText n.json := by
  have hname := isText_writeMember "name" (isText_writeString n.name)
  have hhost := isText_writeMember "host" (isText_writeString n.host)
  have hport := isText_writeMember "port" (isText_writeNatural n.port.toNat)
  exact isText_writeObject (List.forall_mem_cons.mpr
    ⟨hname, List.forall_mem_cons.mpr ⟨hhost, List.forall_mem_singleton.mpr hport⟩⟩)

end NodeAddress

namespace Topology

/-- Every table, sound or not, is read back from its writing. -/
theorem ofJson_json (t : Topology) : ofJson t.json = .ok t := by
  have hnodes := (list_reads NodeAddress.reads NodeAddress.opens_json t.nodes).map
    fun nodes (_ : Option (List NodeAddress)) => some nodes
  have hfills : record.Fills record.blank
      [writeMember "nodes" (writeList (t.nodes.map NodeAddress.json))] (some t.nodes) :=
    .cons rfl hnodes (.nil _)
  exact (Record.reads_writeObject hfills rfl).whole

theorem isText_json (t : Topology) : IsText t.json := by
  have hrows : ∀ w ∈ t.nodes.map NodeAddress.json, IsText w :=
    List.forall_mem_map.mpr fun n _ => n.isText_json
  exact isText_writeObject (List.forall_mem_singleton.mpr
    (isText_writeMember "nodes" (isText_writeList hrows)))

/-- A file with the writing of a table holds this table, if it is sound. -/
theorem load_json (path : String) (t : Topology) :
    load path (.ok t.json) = t.checked.mapError .topology := by
  obtain ⟨s, hs⟩ := isText_iff.mp t.isText_json
  unfold load
  simp only [Except.mapError, hs, Option.isNone_some, Bool.false_eq_true, if_false, ofJson_json,
    bind, Except.bind]

end Topology

end ChatRelay
