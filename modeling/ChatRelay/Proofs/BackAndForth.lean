import ChatRelay.Proofs.ForwardTrails

namespace ChatRelay

namespace Chain

variable {l : Layout} {c : Chain} {m : Message} {trail : List Position} {p : Position}

/-- Nothing waits at two neighbors, each would pass a message on to the other, and it is on its way
to the first. -/
structure Bounces (l : Layout) (c : Chain) (m : Message) (trail : List Position)
    (p q : Position) : Prop where
  valid : l.topology.isValid p = true ∧ l.topology.isValid q = true
  ne : p ≠ q
  transit : ∃ sender d, Datagram.encode m = .ok d ∧ c.transit = [⟨sender, l.home p, d, trail⟩]
  waiting : ∀ i ∈ [p, q], (c.stations i).state.queue = [] ∧ (c.stations i).trails = []
  there : ∃ side, (c.stations p).state.registry.plan m = .neighbor side (l.home q)
  back : ∃ side, (c.stations q).state.registry.plan m = .neighbor side (l.home p)

/-- The only datagram on its way comes to a node on which nothing waits. -/
theorem step_arrive {x : Parcel} (ht : c.transit = [x]) (hp : l.topology.isValid p = true)
    (hx : x.target = l.home p) (hd : Datagram.decode x.datagram = .ok m)
    (hm : m.kind = .privateMessage) (hq : (c.stations p).state.queue = [])
    (htrails : (c.stations p).trails = []) :
    (c.step l (.arrive 0 p)).transit = [] ∧
      ((c.step l (.arrive 0 p)).stations p).state.queue = [m] ∧
      ((c.step l (.arrive 0 p)).stations p).trails = [x.trail] ∧
      ((c.step l (.arrive 0 p)).stations p).state.registry = (c.stations p).state.registry ∧
      ∀ q, q ≠ p → (c.step l (.arrive 0 p)).stations q = c.stations q := by
  have hsync : m.kind.isSync = false := by
    rw [hm]
    rfl
  have hlen : (Node.accept m x.sender (c.stations p).state).queue = [m] := by
    rw [Node.queue_accept _ _ hsync, hq]
    rfl
  rw [step_arrive_eq (x := x) (by rw [ht]; rfl) hp hx, take_of_decode hd, ht]
  dsimp only
  rw [hlen, hq, htrails]
  unfold Chain.advance
  simp only [Function.update_self]
  refine ⟨rfl, hlen, rfl, ?_, fun q hne => Function.update_of_ne hne _ _⟩
  change (c.stations p).state.registry.receive m x.sender = _
  unfold Registry.receive
  rw [hm]

/-- A node passes on the only message that waits there, where nothing fails. -/
theorem step_dispatch {side : Side} {target : Address} {d : List UInt8}
    (ht : c.transit = []) (hq : (c.stations p).state.queue = [m])
    (htrails : (c.stations p).trails = [trail])
    (hplan : (c.stations p).state.registry.plan m = .neighbor side target)
    (hd : Datagram.encode m = .ok d) :
    (c.step l (.dispatch p .calm)).transit = [⟨l.home p, target, d, p :: trail⟩] ∧
      ((c.step l (.dispatch p .calm)).stations p).state.queue = [] ∧
      ((c.step l (.dispatch p .calm)).stations p).trails = [] ∧
      ((c.step l (.dispatch p .calm)).stations p).state.registry =
        (c.stations p).state.registry ∧
      ∀ q, q ≠ p → (c.step l (.dispatch p .calm)).stations q = c.stations q := by
  have hsent := Node.sent_dispatch .calm hq hd fun _ => rfl
  have hnext : c.nextTrail p = p :: trail := by
    rw [nextTrail_eq hq htrails, if_pos (Registry.passesOn_eq_true.mpr ⟨side, target, hplan⟩)]
  change (c.advance l p _ _ _).transit = _ ∧ _
  unfold Chain.step Chain.advance
  dsimp only
  rw [hsent, hplan, hnext, ht, htrails, Function.update_self]
  refine ⟨rfl, ?_, rfl, Node.registry_dispatch _ _, fun q hne => Function.update_of_ne hne _ _⟩
  rw [Node.queue_dispatch, hq]
  rfl

/-- Once at a neighbor, the message is on its way back, and all else is as before. -/
theorem Bounces.step (hm : m.kind = .privateMessage) (hv : m.Valid) {q : Position}
    (h : c.Bounces l m trail p q) :
    (c.run l [.arrive 0 p, .dispatch p .calm]).Bounces l m (p :: trail) q p := by
  obtain ⟨sender, d, hd, ht⟩ := h.transit
  obtain ⟨side, hthere⟩ := h.there
  obtain ⟨hq, htrails⟩ := h.waiting p List.mem_cons_self
  obtain ⟨ht₁, hq₁, htrails₁, hr₁, hs₁⟩ := step_arrive ht h.valid.1 rfl
    (Datagram.decode_of_encode hd hv) hm hq htrails
  obtain ⟨ht₂, hq₂, htrails₂, hr₂, hs₂⟩ := step_dispatch (l := l) ht₁ hq₁ htrails₁
    (hr₁.symm ▸ hthere) hd
  have hother : (c.run l [.arrive 0 p, .dispatch p .calm]).stations q = c.stations q :=
    (hs₂ q h.ne.symm).trans (hs₁ q h.ne.symm)
  constructor
  · exact ⟨h.valid.2, h.valid.1⟩
  · exact h.ne.symm
  · exact ⟨l.home p, d, hd, ht₂⟩
  · intro i hi
    rcases List.mem_cons.mp hi with rfl | hi
    · rw [hother]
      exact h.waiting i (by simp)
    · cases List.mem_singleton.mp hi
      exact ⟨hq₂, htrails₂⟩
  · rw [hother]
    exact h.back
  · have hregistry : ((c.run l [.arrive 0 p, .dispatch p .calm]).stations p).state.registry =
        (c.stations p).state.registry := hr₂.trans hr₁
    rw [hregistry]
    exact ⟨side, hthere⟩

/-- Such a message is passed to and fro any number of times. -/
theorem Bounces.without_end (hm : m.kind = .privateMessage) (hv : m.Valid) {q : Position}
    (h : c.Bounces l m trail p q) (k : Nat) :
    ∃ moves, (∀ x ∈ moves, x.Legal l) ∧ ∃ trail' p' q', trail'.length = trail.length + k ∧
      (c.run l moves).Bounces l m trail' p' q' := by
  induction k with
  | zero => exact ⟨[], nofun, trail, p, q, rfl, h⟩
  | succ k ih =>
    obtain ⟨moves, hlegal, trail', p', q', hlength, hb⟩ := ih
    refine ⟨moves ++ [.arrive 0 p', .dispatch p' .calm], ?_, p' :: trail', q', p', ?_, ?_⟩
    · intro x hx
      rcases List.mem_append.mp hx with hx | hx
      · exact hlegal x hx
      · simp only [List.mem_cons, List.not_mem_nil, or_false] at hx
        rcases hx with rfl | rfl
        · trivial
        · exact hb.valid.1
    · rw [List.length_cons, hlength]
      rfl
    · rw [run_append]
      exact hb.step hm hv

end Chain

end ChatRelay
