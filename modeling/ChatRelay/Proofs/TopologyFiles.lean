import ChatRelay.Proofs.EntireValue
import ChatRelay.Proofs.TopologyFaults
import ChatRelay.Proofs.WrittenTopology
import Mathlib.Tactic.NormNum

namespace ChatRelay

open Json

namespace Json

inductive HasMember (key : String) (P : List UInt8 → Prop) : List UInt8 → Prop where
  | mk {ms : List (List UInt8 × List UInt8)} {k v w : List UInt8}
      (hm : (k, v) ∈ ms) (hk : SpellsString key k) (hv : P v)
      (h : Enclosed .object IsMember ms w) : HasMember key P w

/-- A list whose item number `i` has a form. -/
inductive HasItem (i : Nat) (P : List UInt8 → Prop) : List UInt8 → Prop where
  | mk {vs : List (List UInt8)} {v w : List UInt8} (hvs : ∀ v ∈ vs, IsValue v)
      (hi : vs[i]? = some v) (hv : P v) (h : Enclosed .list Eq vs w) : HasItem i P w

/-- A record in one of its two forms, where the field of this key and number has a form. -/
def HasField (key : String) (i : Nat) (P : List UInt8 → Prop) (w : List UInt8) : Prop :=
  HasMember key P w ∨ HasItem i P w

/-- A number of this value, however it is written. -/
def Denotes (q : ℚ) (w : List UInt8) : Prop :=
  ∃ x, SpellsNumeral x w ∧ x.rational = q

section Parts

variable {P : List UInt8 → Prop} {v w : List UInt8} {i : Nat}

theorem isValue_writeString (s : String) : IsValue (writeString s) :=
  .string (isString_of_spellsString (spellsString_writeString s))

section Object

variable {ms : List (String × List UInt8)}

theorem isValue_writeObject (hms : ∀ m ∈ ms, IsValue m.2) :
    IsValue (writeObject (ms.map fun m => writeMember m.1 m.2)) := by
  have hobject : Enclosed .object (fun m => Keyed IsString (Eq m.2)) ms _ :=
    enclosed_separated .object (fun m => Keyed.of
      (isString_of_spellsString (spellsString_writeString m.1)) rfl) ms
  have hvalues := hobject.map (Q := fun v => Keyed IsString (Eq v)) (g := Prod.snd) fun _ _ h => h
  exact .object (List.forall_mem_map.mpr hms) hvalues

/-- An object that is written has its members. -/
theorem hasMember_writeObject {key : String} (hms : ∀ m ∈ ms, IsValue m.2) (hm : (key, v) ∈ ms)
    (hv : P v) : HasMember key P (writeObject (ms.map fun m => writeMember m.1 m.2)) := by
  have hobject : Enclosed .object (fun m => IsMember (writeString m.1, m.2)) ms _ :=
    enclosed_separated_of_mem .object fun m hm =>
      ⟨isString_of_spellsString (spellsString_writeString m.1), hms m hm, Keyed.of rfl rfl⟩
  have hmem : (writeString key, v) ∈ ms.map fun m => (writeString m.1, m.2) :=
    List.mem_map.mpr ⟨(key, v), hm, rfl⟩
  exact .mk hmem (spellsString_writeString key) hv (hobject.map fun _ _ h => h)

end Object

section Items

variable {vs : List (List UInt8)}

theorem enclosed_writeList (vs : List (List UInt8)) : Enclosed .list Eq vs (writeList vs) := by
  have hlist : Enclosed .list Eq vs (openList :: (separated (vs.map id) ++ [closeList])) :=
    enclosed_separated .list (fun _ => rfl) vs
  rwa [List.map_id] at hlist

theorem isValue_writeList (hvs : ∀ v ∈ vs, IsValue v) : IsValue (writeList vs) :=
  .list hvs (enclosed_writeList vs)

/-- A list that is written has its items. -/
theorem hasItem_writeList (hvs : ∀ v ∈ vs, IsValue v) (hi : vs[i]? = some v) (hv : P v) :
    HasItem i P (writeList vs) :=
  .mk hvs hi hv (enclosed_writeList vs)

end Items

theorem HasItem.accepts {α : Type} {item : Reader α} (hi : item.Entire) (h : HasItem i P w)
    (hw : (list item).Accepts w) : ∃ v, P v ∧ item.Accepts v := by
  obtain ⟨hvs, hget, hv, h⟩ := h
  obtain ⟨u, r, a, s, hu, _, hrun⟩ := hw
  exact ⟨_, hv, (list_aligned hi h hvs hu hrun).2 _ (List.mem_of_getElem? hget)⟩

/-- A record that is taken in one of its forms has each of its fields taken. -/
theorem HasField.accepts {σ α : Type} {x : Record σ α} {f : Field σ} {key : String}
    (hx : ∀ f ∈ x.fields, f.value.Entire) (hi : x.fields[i]? = some f)
    (hkey : x.valueOf key = f.value) (h : HasField key i P w) (hw : x.reader.Accepts w) :
    ∃ v, P v ∧ f.value.Accepts v := by
  obtain ⟨u, r, a, s, hu, _, hrun⟩ := hw
  rcases h with ⟨hm, hk, hv, h⟩ | ⟨hvs, hget, hv, h⟩
  · have haccepts := (Record.object_aligned hx h hu hrun).2 _ hm _ hk
    rw [hkey] at haccepts
    exact ⟨_, hv, haccepts⟩
  · obtain ⟨hlt, rfl⟩ := List.getElem?_eq_some_iff.mp hi
    obtain ⟨hlt', rfl⟩ := List.getElem?_eq_some_iff.mp hget
    have hne := List.ne_nil_of_length_pos (Nat.zero_lt_of_lt hlt)
    have hall := (Record.list_aligned hx hne h hvs hu hrun).2
    exact ⟨_, hv, hall.get hlt hlt'⟩

end Parts

/-- A number that is taken for a natural one is a natural one. -/
theorem Denotes.natural {q : ℚ} {limit : Nat} {expected : String} {w : List UInt8}
    (h : Denotes q w) (hw : (natural limit expected).Accepts w) : ∃ n : Nat, n ≤ limit ∧ q = n := by
  obtain ⟨x, hspells, rfl⟩ := h
  obtain ⟨u, r, n, s, hu, hr, hrun⟩ := hw
  obtain ⟨hvalue, hle⟩ := rational_of_natural hspells hu hr hrun
  exact ⟨n, hle, hvalue⟩

end Json

namespace NodeAddress

theorem fields_entire : ∀ f ∈ record.fields, f.value.Entire := by
  have hname := string_entire.map fun s (d : Draft) => { d with name := some s }
  have hhost := string_entire.map fun s (d : Draft) => { d with host := some s }
  have hport := (natural_entire 65535 "u16").map
    fun n (d : Draft) => { d with port := some (UInt16.ofNat n) }
  exact List.forall_mem_cons.mpr
    ⟨hname, List.forall_mem_cons.mpr ⟨hhost, List.forall_mem_singleton.mpr hport⟩⟩

theorem reader_entire : reader.Entire :=
  Record.entire fields_entire (List.cons_ne_nil _ _)

def HasPort (q : ℚ) : List UInt8 → Prop :=
  HasField "port" 2 (Denotes q)

theorem port_of_accepts {q : ℚ} {w : List UInt8} (h : HasPort q w) (hw : reader.Accepts w) :
    ∃ n : Nat, n ≤ 65535 ∧ q = n := by
  obtain ⟨v, hv, haccepts⟩ : ∃ v, Denotes q v ∧ ((natural 65535 "u16").map
      fun n (d : Draft) => { d with port := some (UInt16.ofNat n) }).Accepts v :=
    HasField.accepts fields_entire rfl rfl h hw
  exact hv.natural haccepts.of_map

end NodeAddress

namespace Topology

/-- A text with a table in which a row has a port of this value. -/
def HasPort (q : ℚ) : List UInt8 → Prop :=
  Padded (HasField "nodes" 0 fun w => ∃ i, HasItem i (NodeAddress.HasPort q) w)

theorem fields_entire : ∀ f ∈ record.fields, f.value.Entire := by
  have hnodes := (list_entire NodeAddress.reader_entire).map
    fun nodes (_ : Option (List NodeAddress)) => some nodes
  exact List.forall_mem_singleton.mpr hnodes

/-- Every port of a table that is read at all is one. -/
theorem port_of_ofJson {q : ℚ} {text : List UInt8} {t : Topology} (h : HasPort q text)
    (hread : ofJson text = .ok t) : ∃ n : Nat, n ≤ 65535 ∧ q = n := by
  obtain @⟨a, w, b, ha, hw, hb⟩ := h
  have haccepts : reader.Accepts w := by
    obtain ⟨⟨t', r⟩, hrun, _⟩ := bind_eq_ok.mp hread
    have hr := hb.apart (r := []) nofun
    rw [List.append_nil] at hr
    exact ⟨a, b, t', r, ha, hr, hrun⟩
  obtain ⟨v, ⟨i, hv⟩, hnodes⟩ : ∃ v, (∃ i, HasItem i (NodeAddress.HasPort q) v) ∧
      ((list NodeAddress.reader).map
        fun nodes (_ : Option (List NodeAddress)) => some nodes).Accepts v :=
    HasField.accepts fields_entire rfl rfl hw haccepts
  obtain ⟨row, hport, hrow⟩ := hv.accepts NodeAddress.reader_entire hnodes.of_map
  exact NodeAddress.port_of_accepts hport hrow

/-- Whatever is loaded has been read and is sound. -/
theorem ofJson_of_load {path : String} {contents : Except String (List UInt8)} {t : Topology}
    (h : load path contents = .ok t) :
    t.fault? = none ∧ ∃ octets, contents = .ok octets ∧ ofJson octets = .ok t := by
  obtain ⟨octets, hoctets, h⟩ := bind_eq_ok.mp h
  dsimp only at h
  split at h
  · cases h
  obtain ⟨t', ht', h⟩ := bind_eq_ok.mp h
  obtain ⟨hfault, rfl⟩ := checked_eq_ok.mp (mapError_eq_ok.mp h)
  exact ⟨hfault, octets, mapError_eq_ok.mp hoctets, mapError_eq_ok.mp ht'⟩

/-- Tables go into files and come back. The writing of any table holds this table, and is loaded if
it is sound and refused for what is wrong with it if not. Whatever is loaded from any file is sound
and comes back from its own writing. A file in which the port of a row is a number, but no whole one
from 0 to 65535, is refused. -/
theorem files_round_trip :
    (∀ t : Topology, ofJson t.json = .ok t ∧ ∀ path,
      (t.fault? = none → load path (.ok t.json) = .ok t) ∧
      ∀ fault, t.fault? = some fault → load path (.ok t.json) = .error (.topology fault)) ∧
    (∀ path contents t, load path contents = .ok t →
      t.fault? = none ∧ ∀ path', load path' (.ok t.json) = .ok t) ∧
    ∀ path text (q : ℚ), HasPort q text → (∀ n : Nat, n ≤ 65535 → q ≠ n) →
      ∃ e, load path (.ok text) = .error e := by
  have hsound (t : Topology) (h : t.fault? = none) (path : String) :
      load path (.ok t.json) = .ok t := by
    rw [load_json, checked_eq_ok.mpr ⟨h, rfl⟩]
    rfl
  refine ⟨fun t => ⟨ofJson_json t, fun path => ⟨fun h => hsound t h path, ?_⟩⟩, ?_, ?_⟩
  · intro fault h
    rw [load_json, checked, h]
    rfl
  · intro path contents t h
    have hfault := (ofJson_of_load h).1
    exact ⟨hfault, hsound t hfault⟩
  · intro path text q hport hq
    cases h : load path (.ok text) with
    | error e => exact ⟨e, rfl⟩
    | ok t =>
      obtain ⟨_, octets, hoctets, hread⟩ := ofJson_of_load h
      cases hoctets
      obtain ⟨n, hn, rfl⟩ := port_of_ofJson hport hread
      exact absurd rfl (hq n hn)

/-- The standard table, two rows of one name, a port past the last in an object, and half a port in
lists. -/
theorem files_round_trip_ports :
    (standard.fault? = none ∧ load "chain.json" (.ok standard.json) = .ok standard ∧
      load "copy.json" (.ok standard.json) = .ok standard) ∧
    (let twins : Topology := ⟨[⟨"a", "h", 0⟩, ⟨"a", "h", 1⟩]⟩;
      load "twins.json" (.ok twins.json) = .error (.topology (.repeated "a"))) ∧
    (let text := letters "\x7b\"nodes\":[\x7b\"name\":\"a\",\"host\":\"h\",\"port\":65536\x7d]\x7d";
      HasPort 65536 text ∧ ∃ e, load "chain.json" (.ok text) = .error e) ∧
    (let text := letters "[[[\"a\",\"h\",8080.5]]]";
      HasPort (16161 / 2) text ∧ ∃ e, load "chain.json" (.ok text) = .error e) := by
  have hstandard := (files_round_trip.1 standard).2 "chain.json"
  have hdigits (b : UInt8) (w : List UInt8) (h : (b :: w).all isDigit = true) (h0 : b ≠ 0x30) :
      IsWhole (b :: w) := by
    rw [List.all_cons, Bool.and_eq_true, List.all_eq_true] at h
    exact .positive h.1 h0 h.2
  refine ⟨⟨rfl, hstandard.1 rfl, (files_round_trip.2.1 _ _ _ (hstandard.1 rfl)).2 "copy.json"⟩,
    ?_, ?_, ?_⟩
  · exact ((files_round_trip.1 _).2 _).2 _ rfl
  · intro text
    have hspells : SpellsNumeral ⟨false, letters "65536", [], none⟩ (letters "65536" ++ []) :=
      spellsNumeral_of_isWhole (hdigits 0x36 (letters "5536") (by decide) (by decide)) .none
    rw [List.append_nil] at hspells
    have hdecimal : Numeral.decimalValue (letters "65536") = 65536 := by decide
    have hq : Denotes 65536 (letters "65536") :=
      ⟨_, hspells, by norm_num [Numeral.rational, hdecimal]⟩
    have hvalues : ∀ m ∈ [("name", writeString "a"), ("host", writeString "h"),
        ("port", letters "65536")], IsValue m.2 :=
      List.forall_mem_cons.mpr ⟨isValue_writeString "a", List.forall_mem_cons.mpr
        ⟨isValue_writeString "h", List.forall_mem_singleton.mpr
          (.number (isNumber_iff.mpr ⟨_, hspells⟩))⟩⟩
    have hrow : NodeAddress.HasPort 65536 _ := .inl (hasMember_writeObject hvalues (by simp) hq)
    have hrows := List.forall_mem_singleton.mpr (isValue_writeObject hvalues)
    have hnodes := hasItem_writeList (i := 0) hrows rfl hrow
    have htable : ∀ m ∈ [("nodes", writeList [_])], IsValue m.2 :=
      List.forall_mem_singleton.mpr (isValue_writeList hrows)
    have hwritten : HasPort 65536 _ :=
      .of (.inl (hasMember_writeObject htable List.mem_cons_self ⟨0, hnodes⟩))
    have hport : HasPort 65536 text := by
      convert hwritten
      decide
    exact ⟨hport, files_round_trip.2.2 _ _ _ hport fun n hn h => by
      have h : (65536 : ℚ) = (n : ℚ) := h
      norm_cast at h
      omega⟩
  · intro text
    have hspells : SpellsNumeral ⟨false, letters "8080", [0x35], none⟩
        (letters "8080" ++ point :: [0x35]) :=
      spellsNumeral_of_isWhole (hdigits 0x38 (letters "080") (by decide) (by decide))
        (.some (.mk (by decide) (List.forall_mem_nil _)))
    have hdecimal : Numeral.decimalValue (letters "8080" ++ [0x35]) = 80805 := by decide
    have hq : Denotes (16161 / 2) (letters "8080" ++ point :: [0x35]) :=
      ⟨_, hspells, by norm_num [Numeral.rational, hdecimal]⟩
    have hvalues : ∀ v ∈ [writeString "a", writeString "h", letters "8080" ++ point :: [0x35]],
        IsValue v :=
      List.forall_mem_cons.mpr ⟨isValue_writeString "a", List.forall_mem_cons.mpr
        ⟨isValue_writeString "h", List.forall_mem_singleton.mpr
          (.number (isNumber_iff.mpr ⟨_, hspells⟩))⟩⟩
    have hrow : NodeAddress.HasPort (16161 / 2) _ := .inr (hasItem_writeList hvalues rfl hq)
    have hrows := List.forall_mem_singleton.mpr (isValue_writeList hvalues)
    have hnodes := hasItem_writeList (i := 0) hrows rfl hrow
    have htable := List.forall_mem_singleton.mpr (isValue_writeList hrows)
    have hwritten : HasPort (16161 / 2) _ := .of (.inr (hasItem_writeList htable rfl ⟨0, hnodes⟩))
    have hport : HasPort (16161 / 2) text := by
      convert hwritten
      decide
    exact ⟨hport, files_round_trip.2.2 _ _ _ hport fun n hn h => by
      have h : (16161 / 2 : ℚ) = (n : ℚ) := h
      rw [div_eq_iff (by norm_num)] at h
      norm_cast at h
      omega⟩

end Topology

end ChatRelay
