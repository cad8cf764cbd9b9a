import ChatRelay.Proofs.ClientCalls
import ChatRelay.Proofs.Routing
import ChatRelay.Proofs.Site
import Mathlib.Data.List.Nodup

namespace ChatRelay

def Member.session (c : Member) : Connection :=
  ⟨c.username, c.address⟩

@[simp] theorem Member.id_session (c : Member) : c.session.id = c.username := rfl

section Targets

variable {r : Registry} {members : List Member} {q : Member → Bool} {c : Member} {m : Message}

theorem filter_address (ha : (members.map Member.address).Nodup) (hc : c ∈ members) :
    members.filter (·.address = c.address) = [c] := by
  induction members with
  | nil => cases hc
  | cons d members ih =>
    rw [List.map_cons, List.nodup_cons] at ha
    rcases List.mem_cons.mp hc with rfl | hc
    · rw [List.filter_cons_of_pos (by simp), List.filter_eq_nil_iff.mpr]
      intro d hd he
      exact ha.1 (List.mem_map.mpr ⟨d, hd, by simpa using he⟩)
    · have hne : d.address ≠ c.address := fun he =>
        ha.1 (List.mem_map.mpr ⟨c, hc, he.symm⟩)
      rw [List.filter_cons_of_neg (by simpa using hne)]
      exact ih ha.2 hc

/-- A broadcast reaches every member present but its sender, once. -/
theorem filter_broadcast (hr : r.clients = (members.filter q).map Member.session)
    (ha : (members.map Member.address).Nodup) (hc : c ∈ members) (source : String) :
    ((r.clients.filter (·.id ≠ source)).map (·.address)).filter (· = c.address) =
      if q c && source ≠ c.username then [c.address] else [] := by
  have hf : ((r.clients.filter (·.id ≠ source)).map (·.address)).filter (· = c.address) =
      (((members.filter (·.address = c.address)).filter q).filter
        (·.username ≠ source)).map Member.address := by
    rw [hr]
    simp only [List.filter_map, List.map_map, List.filter_filter]
    congr 1
    apply List.filter_congr
    intro d _
    simp only [Function.comp_apply, Member.session]
    ac_rfl
  rw [hf, filter_address ha hc]
  by_cases hs : source = c.username
  · simp [hs, List.filter_filter]
  · cases hq : q c <;> simp [hq, hs, Ne.symm hs]

/-- A session that was found is that of a member present. -/
theorem member_of_session {id : String} {x : Connection}
    (hr : r.clients = (members.filter q).map Member.session) (hx : r.session? id = some x) :
    ∃ d ∈ members, q d ∧ d.username = id ∧ d.address = x.address := by
  obtain ⟨hmem, hid⟩ := Registry.session?_eq_some hx
  rw [hr] at hmem
  obtain ⟨d, hd, rfl⟩ := List.mem_map.mp hmem
  obtain ⟨hd, hq⟩ := List.mem_filter.mp hd
  exact ⟨d, hd, hq, hid, rfl⟩

/-- A message that is no broadcast reaches the member that it names, once, if that is present. No
neighbor is taken for a member. -/
theorem filter_unicast (hr : r.clients = (members.filter q).map Member.session)
    (hn : (members.map Member.username).Nodup) (ha : (members.map Member.address).Nodup)
    (hc : c ∈ members) (hb : ∀ side n, r.neighbor side = some n → n.address ≠ c.address)
    (hm : m.isBroadcast = false) :
    (r.plan m).targets.filter (· = c.address) =
      if q c && m.destination = c.username then [c.address] else [] := by
  cases hs : r.session? m.destination with
  | some x =>
    obtain ⟨d, hd, hq, hu, hx⟩ := member_of_session hr hs
    rw [Registry.plan_of_session hm hs, ← hx, ← hu]
    by_cases he : d.username = c.username
    · have hdc : d = c := List.inj_on_of_nodup_map hn hd hc he
      subst hdc
      simp [Delivery.targets, hq]
    · have hne : d.address ≠ c.address := fun h =>
        he (congrArg Member.username (List.inj_on_of_nodup_map ha hd hc h))
      simp [Delivery.targets, he, hne]
  | none =>
    have habsent : ¬ (q c = true ∧ m.destination = c.username) := by
      rintro ⟨hq, he⟩
      apply Registry.session?_eq_none.mp hs c.session
      · rw [hr]
        exact List.mem_map.mpr ⟨c, List.mem_filter.mpr ⟨hc, hq⟩, rfl⟩
      · exact he.symm
    rw [if_neg (by simpa using habsent)]
    rcases Registry.plan_of_absence hm hs with hp | ⟨side, n, hp, hside, _⟩
    · rw [hp]
      rfl
    · rw [hp]
      simp [Delivery.targets, hb side n hside]

/-- A message reaches each member that is present and that it is meant for, once, and no other. -/
theorem filter_targets (hr : r.clients = (members.filter q).map Member.session)
    (hn : (members.map Member.username).Nodup) (ha : (members.map Member.address).Nodup)
    (hc : c ∈ members) (hb : ∀ side n, r.neighbor side = some n → n.address ≠ c.address)
    (m : Message) :
    (r.plan m).targets.filter (· = c.address) =
      if q c && m.isFor c.username then [c.address] else [] := by
  unfold Message.isFor
  cases hm : m.isBroadcast
  · rw [filter_unicast hr hn ha hc hb hm]
    rfl
  · rw [Registry.plan_broadcast hm]
    exact filter_broadcast hr ha hc m.source

end Targets

namespace Member

variable (c : Member) (sent : List (Address × List UInt8))

@[simp] theorem address_take : (c.take sent).address = c.address := rfl

@[simp] theorem username_take : (c.take sent).username = c.username := by
  have h : ∀ (ds : List (Address × List UInt8)) (client : ChatClient),
      (ds.foldl (fun client d => client.receive d.2) client).username = client.username := by
    intro ds
    induction ds with
    | nil => exact fun _ => rfl
    | cons d ds ih =>
      intro client
      exact (ih _).trans (client.username_receive d.2)
  exact h _ _

/-- Of one datagram to several targets a client takes those that are its own address. -/
theorem inbox_take {targets : List Address} {d : List UInt8} {m : Message} {b : Bool}
    (hd : Datagram.decode d = .ok m)
    (ht : targets.filter (· = c.address) = if b then [c.address] else []) :
    (c.take (targets.map fun target => (target, d))).client.inbox =
      c.client.inbox ++ if b then [m] else [] := by
  have hf : (targets.map fun target => (target, d)).filter (·.1 = c.address) =
      (targets.filter (· = c.address)).map fun target => (target, d) := by
    rw [List.filter_map]
    rfl
  unfold take
  rw [hf, ht]
  cases b
  · simp
  · simp [c.client.receive_of_decode hd]

end Member

end ChatRelay
