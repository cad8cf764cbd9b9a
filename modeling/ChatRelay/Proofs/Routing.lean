import ChatRelay.Proofs.RegistryLaws

namespace ChatRelay.Registry

variable {r : Registry} {m : Message}

theorem through?_eq_some {side : Side} {id : String} {x : Delivery} :
    r.through? side id = some x ↔
      ∃ n, r.neighbor side = some n ∧ id ∈ r.roster side ∧ x = .neighbor side n.address := by
  unfold through?
  cases hn : r.neighbor side with
  | none => simp
  | some n =>
    dsimp only
    rw [Option.ite_none_right_eq_some]
    constructor
    · rintro ⟨hi, h⟩
      cases h
      exact ⟨n, rfl, hi, rfl⟩
    · rintro ⟨n', hn', hi, rfl⟩
      cases hn'
      exact ⟨hi, rfl⟩

theorem through?_eq_none {side : Side} {id : String} :
    r.through? side id = none ↔ ∀ c, r.neighbor side = some c → id ∉ r.roster side := by
  unfold through?
  cases r.neighbor side <;> simp

theorem plan_broadcast (h : m.isBroadcast = true) :
    r.plan m = .broadcast ((r.clients.filter (·.id ≠ m.source)).map (·.address)) := by
  unfold plan
  rw [if_pos h]

theorem plan_of_session {c : Connection} (h : m.isBroadcast = false)
    (hs : r.session? m.destination = some c) : r.plan m = .here c.address := by
  unfold plan
  rw [if_neg (by simp [h]), hs]

/-- Someone without a session here is looked for on the left, then on the right. -/
theorem plan_of_absent (h : m.isBroadcast = false) (hs : r.session? m.destination = none) :
    r.plan m = (r.through? .left m.destination <|>
      r.through? .right m.destination).getD .miss := by
  unfold plan
  rw [if_neg (by simp [h]), hs]

/-- Someone without a session here is reached through a linked neighbor that told of it, or not at
all. -/
theorem plan_of_absence (h : m.isBroadcast = false) (hs : r.session? m.destination = none) :
    r.plan m = .miss ∨ ∃ side n, r.plan m = .neighbor side n.address ∧
      r.neighbor side = some n ∧ m.destination ∈ r.roster side := by
  rw [plan_of_absent h hs]
  cases hl : r.through? .left m.destination with
  | some x =>
    obtain ⟨n, hn, hi, rfl⟩ := through?_eq_some.mp hl
    exact .inr ⟨.left, n, rfl, hn, hi⟩
  | none =>
    cases hr : r.through? .right m.destination with
    | none => exact .inl rfl
    | some x =>
      obtain ⟨n, hn, hi, rfl⟩ := through?_eq_some.mp hr
      exact .inr ⟨.right, n, rfl, hn, hi⟩

/-- A message goes to a side only where the neighbor there is known, whatever roster came in for
that side. -/
theorem neighbor_of_plan {side : Side} {a : Address} (h : r.plan m = .neighbor side a) :
    ∃ c, r.neighbor side = some c ∧ c.address = a ∧ m.destination ∈ r.roster side := by
  cases hb : m.isBroadcast with
  | true =>
    rw [plan_broadcast hb] at h
    cases h
  | false =>
    cases hs : r.session? m.destination with
    | some c =>
      rw [plan_of_session hb hs] at h
      cases h
    | none =>
      rcases plan_of_absence hb hs with hmiss | ⟨side', c, hp, hc, hd⟩
      · rw [hmiss] at h
        cases h
      · rw [hp] at h
        cases h
        exact ⟨c, hc, rfl, hd⟩

/-- A message that is no broadcast has one target at most. -/
theorem targets_of_unicast (h : m.isBroadcast = false) :
    r.plan m = .miss ∨ ∃ a, r.plan m ≠ .miss ∧ (r.plan m).targets = [a] := by
  cases hs : r.session? m.destination with
  | some c =>
    rw [plan_of_session h hs]
    exact .inr ⟨c.address, nofun, rfl⟩
  | none =>
    rcases plan_of_absence h hs with hp | ⟨side, c, hp, _⟩
    · exact .inl hp
    · rw [hp]
      exact .inr ⟨c.address, nofun, rfl⟩

theorem session?_eq_some {id : String} {c : Connection} (h : r.session? id = some c) :
    c ∈ r.clients ∧ c.id = id :=
  ⟨List.mem_of_find?_eq_some h, by simpa using List.find?_some h⟩

theorem session?_eq_none {id : String} :
    r.session? id = none ↔ ∀ c ∈ r.clients, c.id ≠ id := by
  unfold session?
  simp

/-- The oldest session under a name is at an address. -/
def OldestAt (r : Registry) (id : String) (a : Address) : Prop :=
  ∃ before c after, r.clients = before ++ c :: after ∧ c.id = id ∧ c.address = a ∧
    ∀ b ∈ before, b.id ≠ id

/-- The neighbor on a side is known to be at an address, and has told of a client. -/
def Tells (r : Registry) (side : Side) (id : String) (a : Address) : Prop :=
  (∃ c, r.neighbor side = some c ∧ c.address = a) ∧ id ∈ r.roster side

/-- No neighbor is known on a side, or it has not told of a client. -/
def Silent (r : Registry) (side : Side) (id : String) : Prop :=
  r.neighbor side = none ∨ id ∉ r.roster side

/-- The rule by which a message from `source` to `destination` goes out. -/
inductive Routes (r : Registry) (source destination : String) : Delivery → Prop where
  | broadcast (hd : destination = "broadcast") :
      Routes r source destination
        (.broadcast ((r.clients.filter (·.id ≠ source)).map (·.address)))
  | here {a : Address} (hd : destination ≠ "broadcast") (hs : r.OldestAt destination a) :
      Routes r source destination (.here a)
  | left {a : Address} (hd : destination ≠ "broadcast") (hs : ∀ c ∈ r.clients, c.id ≠ destination)
      (hl : r.Tells .left destination a) : Routes r source destination (.neighbor .left a)
  | right {a : Address} (hd : destination ≠ "broadcast") (hs : ∀ c ∈ r.clients, c.id ≠ destination)
      (hl : r.Silent .left destination) (hr : r.Tells .right destination a) :
      Routes r source destination (.neighbor .right a)
  | miss (hd : destination ≠ "broadcast") (hs : ∀ c ∈ r.clients, c.id ≠ destination)
      (hn : ∀ side, r.Silent side destination) : Routes r source destination .miss

theorem oldestAt_iff {id : String} {a : Address} :
    r.OldestAt id a ↔ ∃ c, r.session? id = some c ∧ c.address = a := by
  unfold OldestAt session?
  simp only [List.find?_eq_some_iff_append]
  constructor
  · rintro ⟨before, c, after, hclients, hid, ha, hbefore⟩
    exact ⟨c, ⟨by simpa using hid, before, after, hclients, by simpa using hbefore⟩, ha⟩
  · rintro ⟨c, ⟨hid, before, after, hclients, hbefore⟩, ha⟩
    exact ⟨before, c, after, hclients, by simpa using hid, ha, by simpa using hbefore⟩

theorem through?_of_tells {side : Side} {id : String} {a : Address} (h : r.Tells side id a) :
    r.through? side id = some (.neighbor side a) := by
  obtain ⟨⟨c, hc, rfl⟩, hid⟩ := h
  exact through?_eq_some.mpr ⟨c, hc, hid, rfl⟩

theorem through?_of_silent {side : Side} {id : String} (h : r.Silent side id) :
    r.through? side id = none := by
  refine through?_eq_none.mpr fun c hc => ?_
  rcases h with hnone | hid
  · rw [hnone] at hc
    cases hc
  · exact hid

/-- A side tells of a client or does not. -/
theorem tells_or_silent (r : Registry) (side : Side) (id : String) :
    (∃ a, r.Tells side id a) ∨ r.Silent side id := by
  cases hc : r.neighbor side with
  | none => exact .inr (.inl hc)
  | some c =>
    by_cases hid : id ∈ r.roster side
    · exact .inl ⟨c.address, ⟨c, hc, rfl⟩, hid⟩
    · exact .inr (.inr hid)

theorem isBroadcast_iff : m.isBroadcast = true ↔ m.destination = "broadcast" := decide_eq_true_iff

theorem not_isBroadcast (h : m.destination ≠ "broadcast") : m.isBroadcast = false :=
  decide_eq_false h

/-- What the rule allows is what is planned. -/
theorem plan_of_routes {x : Delivery} (h : r.Routes m.source m.destination x) : r.plan m = x := by
  cases h with
  | broadcast hd => exact plan_broadcast (isBroadcast_iff.mpr hd)
  | here hd hs =>
    obtain ⟨c, hc, rfl⟩ := oldestAt_iff.mp hs
    exact plan_of_session (not_isBroadcast hd) hc
  | left hd hs hl =>
    rw [plan_of_absent (not_isBroadcast hd) (session?_eq_none.mpr hs), through?_of_tells hl]
    rfl
  | right hd hs hl hr =>
    rw [plan_of_absent (not_isBroadcast hd) (session?_eq_none.mpr hs), through?_of_silent hl,
      through?_of_tells hr]
    rfl
  | miss hd hs hn =>
    rw [plan_of_absent (not_isBroadcast hd) (session?_eq_none.mpr hs),
      through?_of_silent (hn .left), through?_of_silent (hn .right)]
    rfl

/-- The rule leaves no message without a course. -/
theorem exists_routes (r : Registry) (source destination : String) :
    ∃ x, r.Routes source destination x := by
  by_cases hd : destination = "broadcast"
  · exact ⟨_, .broadcast hd⟩
  cases hs : r.session? destination with
  | some c => exact ⟨_, .here hd (oldestAt_iff.mpr ⟨c, hs, rfl⟩)⟩
  | none =>
    have habsent := session?_eq_none.mp hs
    rcases r.tells_or_silent .left destination with ⟨a, hl⟩ | hl
    · exact ⟨_, .left hd habsent hl⟩
    rcases r.tells_or_silent .right destination with ⟨a, hr⟩ | hr
    · exact ⟨_, .right hd habsent hl hr⟩
    · refine ⟨_, .miss hd habsent fun side => ?_⟩
      cases side
      · exact hl
      · exact hr

theorem plan_eq_iff_routes {x : Delivery} :
    r.plan m = x ↔ r.Routes m.source m.destination x := by
  constructor
  · rintro rfl
    obtain ⟨x, hx⟩ := r.exists_routes m.source m.destination
    rw [plan_of_routes hx]
    exact hx
  · exact plan_of_routes

/-- A message goes to a neighbor that has told of its destination, where that has no session, and to
the left one if both have. -/
theorem plan_eq_neighbor {side : Side} {a : Address} :
    r.plan m = .neighbor side a ↔ m.destination ≠ "broadcast" ∧
      (∀ c ∈ r.clients, c.id ≠ m.destination) ∧
      ∃ link, r.neighbor side = some link ∧ link.address = a ∧ m.destination ∈ r.roster side ∧
        (side = .right → r.Silent .left m.destination) := by
  rw [plan_eq_iff_routes]
  constructor
  · intro h
    cases h with
    | left hd hs hl =>
      obtain ⟨⟨link, hlink, ha⟩, hid⟩ := hl
      exact ⟨hd, hs, link, hlink, ha, hid, nofun⟩
    | right hd hs hl hr =>
      obtain ⟨⟨link, hlink, ha⟩, hid⟩ := hr
      exact ⟨hd, hs, link, hlink, ha, hid, fun _ => hl⟩
  · rintro ⟨hd, hs, link, hlink, ha, hid, hl⟩
    cases side with
    | left => exact .left hd hs ⟨⟨link, hlink, ha⟩, hid⟩
    | right => exact .right hd hs (hl rfl) ⟨⟨link, hlink, ha⟩, hid⟩

/-- A broadcast goes to the address of every session but those of its source, in their order, and
neither rosters nor neighbors have a part in this. Any other message goes to the oldest session of
its destination if there is one, else to the left neighbor if that is known and told of the
destination, else to the right one if that does, and is missed if nothing of this is so. No more of
a message counts than who sends it and to whom. -/
theorem plan_decides (r : Registry) (m : Message) :
    (∀ targets, r.plan m = .broadcast targets ↔ m.destination = "broadcast" ∧
      targets = (r.clients.filter (·.id ≠ m.source)).map (·.address)) ∧
    (∀ a, r.plan m = .here a ↔ m.destination ≠ "broadcast" ∧
      ∃ before c after, r.clients = before ++ c :: after ∧ c.id = m.destination ∧
        c.address = a ∧ ∀ b ∈ before, b.id ≠ m.destination) ∧
    (∀ a, r.plan m = .neighbor .left a ↔ m.destination ≠ "broadcast" ∧
      (∀ c ∈ r.clients, c.id ≠ m.destination) ∧
      (∃ c, r.neighbor .left = some c ∧ c.address = a) ∧ m.destination ∈ r.roster .left) ∧
    (∀ a, r.plan m = .neighbor .right a ↔ m.destination ≠ "broadcast" ∧
      (∀ c ∈ r.clients, c.id ≠ m.destination) ∧
      (∃ c, r.neighbor .right = some c ∧ c.address = a) ∧ m.destination ∈ r.roster .right ∧
      (r.neighbor .left = none ∨ m.destination ∉ r.roster .left)) ∧
    (r.plan m = .miss ↔ m.destination ≠ "broadcast" ∧
      (∀ c ∈ r.clients, c.id ≠ m.destination) ∧
      ∀ side, r.neighbor side = none ∨ m.destination ∉ r.roster side) ∧
    (m.destination = "broadcast" → ∀ r' : Registry, r'.clients = r.clients → r'.plan m = r.plan m) ∧
    ∀ m' : Message, m'.source = m.source → m'.destination = m.destination →
      r.plan m' = r.plan m := by
  refine ⟨fun targets => ?_, fun a => ?_, fun a => ?_, fun a => ?_, ?_, ?_, ?_⟩
  · rw [plan_eq_iff_routes]
    constructor
    · intro h
      cases h with
      | broadcast hd => exact ⟨hd, rfl⟩
    · rintro ⟨hd, rfl⟩
      exact .broadcast hd
  · rw [plan_eq_iff_routes]
    constructor
    · intro h
      cases h with
      | here hd hs => exact ⟨hd, hs⟩
    · rintro ⟨hd, hs⟩
      exact .here hd hs
  · rw [plan_eq_iff_routes]
    constructor
    · intro h
      cases h with
      | left hd hs hl => exact ⟨hd, hs, hl⟩
    · rintro ⟨hd, hs, hl⟩
      exact .left hd hs hl
  · rw [plan_eq_iff_routes]
    constructor
    · intro h
      cases h with
      | right hd hs hl hr => exact ⟨hd, hs, hr.1, hr.2, hl⟩
    · rintro ⟨hd, hs, hc, hid, hl⟩
      exact .right hd hs hl ⟨hc, hid⟩
  · rw [plan_eq_iff_routes]
    constructor
    · intro h
      cases h with
      | miss hd hs hn => exact ⟨hd, hs, hn⟩
    · rintro ⟨hd, hs, hn⟩
      exact .miss hd hs hn
  · intro hd r' hclients
    rw [plan_broadcast (isBroadcast_iff.mpr hd), plan_broadcast (isBroadcast_iff.mpr hd), hclients]
  · intro m' hsource hdestination
    refine plan_of_routes ?_
    rw [hsource, hdestination]
    exact plan_eq_iff_routes.mp rfl

end ChatRelay.Registry
