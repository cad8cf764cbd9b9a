import ChatRelay.Proofs.RosterPushes
import ChatRelay.Proofs.Routing

namespace ChatRelay

def NodeAddress.find (lookup : String → Except String (List Host)) (row : NodeAddress) :
    Except RelayError Connection :=
  (row.locate lookup).map (⟨row.name, ·⟩)

namespace NodeAddress

variable {row : NodeAddress} {lookup : String → Except String (List Host)}

/-- The connection bears the name of its row. -/
theorem find_eq_ok {c : Connection} :
    row.find lookup = .ok c ↔ c.id = row.name ∧ row.locate lookup = .ok c.address := by
  unfold find
  obtain ⟨id, a⟩ := c
  cases row.locate lookup <;> simp [Except.map, eq_comm]

/-- A row leads nowhere for no other reason than that its host cannot be reached. -/
theorem cause_of_locate {cause : RelayError} (h : row.locate lookup = .error cause) :
    ∃ reason, cause = .neighborUnreachable row.name row.host row.port reason := by
  unfold locate at h
  dsimp only at h
  cases hr : Host.resolve lookup row.host with
  | error reason =>
    rw [hr] at h
    cases h
    exact ⟨reason, rfl⟩
  | ok hosts =>
    rw [hr, mapError_eq_ok.mpr rfl] at h
    cases hp : Host.preferred? hosts with
    | none =>
      simp only [bind, Except.bind, hp] at h
      cases h
      exact ⟨_, rfl⟩
    | some host =>
      simp only [bind, Except.bind, hp] at h
      cases h

theorem find_eq_error {cause : RelayError} :
    row.find lookup = .error cause ↔ row.locate lookup = .error cause := by
  unfold find
  cases row.locate lookup <;> simp [Except.map]

end NodeAddress

namespace Topology

variable {t : Topology} {p q : Position} {row : NodeAddress}

theorem resolve_of_row (h : t.node? q = some row) (lookup : String → Except String (List Host)) :
    t.resolve lookup q = row.locate lookup := by
  unfold resolve
  rw [h]

/-- The place of a neighbor has a row. -/
theorem exists_row_of_neighbor? {side : Side} (h : t.neighbor? side p = some q) :
    ∃ row, t.node? q = some row :=
  ⟨_, List.getElem?_eq_getElem (of_decide_eq_true (isValid_of_neighbor? h))⟩

/-- Only the first node has no neighbor on the left. -/
theorem neighbor?_left_eq_none (hp : t.isValid p = true) :
    t.neighbor? .left p = none ↔ p.index.toNat = 0 := by
  have hlt : p.index.toNat < t.nodes.length := of_decide_eq_true hp
  constructor
  · intro h
    by_contra hne
    have hindex := p.index.toNat_lt
    have hnext : p.left? = some ⟨UInt8.ofNat (p.index.toNat - 1)⟩ := by
      rw [Position.left?_eq_some, UInt8.toNat_ofNat']
      omega
    have hvalid := Option.filter_eq_none_iff.mp h _ hnext
    refine hvalid (decide_eq_true ?_)
    rw [UInt8.toNat_ofNat']
    omega
  · intro h0
    refine Option.filter_eq_none_iff.mpr fun q hq => ?_
    have := Position.left?_eq_some.mp hq
    omega

/-- Only the last node has no neighbor on the right. A place has no room for a node behind the
256th. -/
theorem neighbor?_right_eq_none (hp : t.isValid p = true) (hlong : t.nodes.length ≤ 256) :
    t.neighbor? .right p = none ↔ p.index.toNat + 1 = t.nodes.length := by
  have hlt : p.index.toNat < t.nodes.length := of_decide_eq_true hp
  constructor
  · intro h
    by_contra hne
    have hnext : p.right? = some ⟨UInt8.ofNat (p.index.toNat + 1)⟩ := by
      rw [Position.right?_eq_some, UInt8.toNat_ofNat']
      omega
    have hvalid := Option.filter_eq_none_iff.mp h _ hnext
    refine hvalid (decide_eq_true ?_)
    rw [UInt8.toNat_ofNat']
    omega
  · intro hlast
    refine Option.filter_eq_none_iff.mpr fun q hq hq' => ?_
    have := Position.right?_eq_some.mp hq
    have : q.index.toNat < t.nodes.length := of_decide_eq_true hq'
    omega

theorem length_le_of_fault? (h : t.fault? = none) : 0 < t.nodes.length ∧ t.nodes.length ≤ 256 :=
  ⟨(fault?_eq_none.mp h).nonempty, (fault?_eq_none.mp h).length_le⟩

end Topology

namespace Node

variable (n : Node) (e : Surroundings) (side : Side)

def row? : Option NodeAddress :=
  (n.topology.neighbor? side n.position).bind n.topology.node?

def found? : Option Connection :=
  (n.row? side).bind fun row => (row.find e.lookup).toOption

theorem found?_eq_some {n : Node} {e : Surroundings} {side : Side} {c : Connection} :
    n.found? e side = some c ↔ ∃ row, n.row? side = some row ∧ row.find e.lookup = .ok c := by
  unfold found?
  rw [Option.bind_eq_some_iff]
  refine exists_congr fun row => and_congr_right fun _ => ?_
  cases row.find e.lookup <;> simp [Except.toOption]

/-- Looking after a side reads no more of the table than the row of the neighbor. -/
theorem syncSide_row (s : State) :
    n.syncSide e side s =
      match n.row? side with
      | none => (s, {})
      | some row =>
        match s.registry.neighbor side with
        | some c => n.pushRoster e side c s
        | none =>
          match row.find e.lookup with
          | .ok c =>
            ({ s with registry := s.registry.setNeighbor side (some c) },
              { log := [.neighborFound side c] })
          | .error cause =>
            ({ s with registry := s.registry.setNeighbor side none },
              { log := [.neighborMissing side cause] }) := by
  unfold row?
  cases hq : n.topology.neighbor? side n.position with
  | none => exact n.syncSide_of_end e s hq
  | some q =>
    obtain ⟨row, hrow⟩ := Topology.exists_row_of_neighbor? hq
    rw [Option.bind_some, hrow]
    dsimp only
    cases hc : s.registry.neighbor side with
    | some c => exact n.syncSide_of_known e hq hc
    | none =>
      rw [n.syncSide_of_unknown e hq hc]
      have hresolve := Topology.resolve_of_row hrow e.lookup
      have hname : n.topology.name? q = some row.name := congrArg (Option.map _) hrow
      unfold findNeighbor
      rw [hresolve, hname]
      unfold NodeAddress.find
      cases row.locate e.lookup <;> rfl

/-- The neighbor that a turn comes upon on a side. Other turns than searches there come upon none.
-/
def finds? (x : Turn) : Option Connection :=
  if x.step = .sync side then n.found? x.surroundings side else none

/-- A full slot stays as it is. An empty one is filled by a search on its side. -/
theorem neighbor_step (s : State) (x : Turn) :
    (n.moment s x).after.registry.neighbor side =
      (s.registry.neighbor side).or (n.finds? side x) := by
  obtain ⟨e, step⟩ := x
  cases step with
  | ingest a d =>
    rw [show n.finds? side ⟨e, .ingest a d⟩ = none from rfl, Option.or_none]
    change (n.ingest a d s).1.registry.neighbor side = _
    unfold ingest
    split
    · rfl
    · exact Registry.neighbor_receive _ _ _ _
  | dispatch =>
    rw [show n.finds? side ⟨e, .dispatch⟩ = none from rfl, Option.or_none]
    change (dispatch e s).1.registry.neighbor side = _
    rw [registry_dispatch]
  | sync side' =>
    change (n.syncSide e side' s).1.registry.neighbor side = _
    unfold finds?
    by_cases hside : side' = side
    · subst hside
      rw [if_pos rfl, syncSide_row]
      unfold found?
      cases n.row? side' with
      | none => exact Option.or_none.symm
      | some row =>
        cases hc : s.registry.neighbor side' with
        | some c =>
          dsimp only
          rw [registry_pushRoster, hc, Option.some_or]
        | none =>
          rw [Option.none_or, Option.bind_some]
          dsimp only
          cases row.find e.lookup with
          | ok c => exact (Registry.neighbor_setNeighbor _ _ _ _).trans (if_pos rfl)
          | error cause => exact (Registry.neighbor_setNeighbor _ _ _ _).trans (if_pos rfl)
    · rw [if_neg fun h => hside (Step.sync.inj h), Option.or_none]
      rcases (n.syncSide_eq e side' s).1 with hsame | ⟨_, found, hset, _⟩
      · rw [hsame]
      · rw [hset, Registry.neighbor_setNeighbor, if_neg (Ne.symm hside)]

/-- A slot holds what the first successful search has come upon. -/
theorem neighbor_play (s : State) (turns : List Turn) :
    (n.play s turns).1.registry.neighbor side =
      (s.registry.neighbor side).or (turns.findSome? (n.finds? side)) := by
  induction turns generalizing s with
  | nil => exact (Option.or_none).symm
  | cons x turns ih =>
    rw [play_cons, ih, neighbor_step, Option.or_assoc, List.findSome?_cons]
    cases n.finds? side x <;> simp

/-- From the start on a slot holds what the first successful search has come upon. -/
theorem neighbor_play_initial (turns : List Turn) :
    (n.play .initial turns).1.registry.neighbor side = turns.findSome? (n.finds? side) := by
  have hempty : State.initial.registry.neighbor side = none := by cases side <;> rfl
  rw [neighbor_play, hempty, Option.none_or]

/-- A full slot was filled by a search that came upon the neighbor. -/
theorem row?_of_neighbor_play {turns : List Turn} {c : Connection}
    (h : (n.play .initial turns).1.registry.neighbor side = some c) :
    ∃ x ∈ turns, x.step = .sync side ∧ ∃ row, n.row? side = some row ∧
      row.find x.surroundings.lookup = .ok c := by
  rw [neighbor_play_initial] at h
  obtain ⟨x, hx, hfinds⟩ := List.exists_of_findSome?_eq_some h
  unfold finds? at hfinds
  split at hfinds
  · rename_i hstep
    exact ⟨x, hx, hstep, found?_eq_some.mp hfinds⟩
  · cases hfinds

/-- The datagram that looking after a side asks for, and where to. -/
def pushPlan (r : Registry) : List (Address × List UInt8) :=
  match n.row? side, r.neighbor side with
  | some _, some c =>
    match n.rosterDatagram side c r with
    | .ok d => [(c.address, d)]
    | .error _ => []
  | _, _ => []

/-- Looking after a side tries to send what is planned, and no more. -/
theorem attempts_of_pushPlan (s : State) :
    (n.syncSide e side s).2.attempts =
      (n.pushPlan side s.registry).map fun x => ⟨x.1, x.2, e.send x.1⟩ := by
  rw [syncSide_row]
  unfold pushPlan
  cases n.row? side with
  | none => rfl
  | some row =>
    cases s.registry.neighbor side with
    | none =>
      dsimp only
      cases row.find e.lookup <;> rfl
    | some c =>
      dsimp only
      cases hd : n.rosterDatagram side c s.registry with
      | ok d => exact n.attempts_pushRoster_of_datagram e hd
      | error cause =>
        unfold pushRoster
        rw [hd]
        rfl

def rosterPush? (r : Registry) : Option Attempt :=
  match r.neighbor side with
  | none => none
  | some c =>
    match Datagram.encode (n.rosterMessage side c.id r.clientIds) with
    | .ok d => some ⟨c.address, d, e.send c.address⟩
    | .error _ => none

/-- A full slot takes one push, unless no datagram can hold the roster. An empty one takes none. -/
theorem attempts_syncSide {s : State} (hname : n.name ≠ "")
    (hrow : ∀ c, s.registry.neighbor side = some c → n.row? side ≠ none) :
    (n.syncSide e side s).2.attempts = (n.rosterPush? e side s.registry).toList := by
  rw [attempts_of_pushPlan]
  unfold pushPlan rosterPush?
  cases hc : s.registry.neighbor side with
  | none => cases n.row? side <;> rfl
  | some c =>
    obtain ⟨row, hsome⟩ := Option.ne_none_iff_exists'.mp (hrow c hc)
    rw [hsome]
    dsimp only
    rw [n.rosterDatagram_eq, if_neg hname]
    cases Datagram.encode (n.rosterMessage side c.id s.registry.clientIds) <;> rfl

theorem rosterPush?_congr {r r' : Registry} (hc : r.clients = r'.clients)
    (hn : r.neighbor side = r'.neighbor side) :
    n.rosterPush? e side r = n.rosterPush? e side r' := by
  unfold rosterPush? Registry.clientIds
  rw [hc, hn]

theorem tick_eq (s : State) :
    n.tick e s = ((n.syncSide e .right (n.syncSide e .left s).1).1,
      (n.syncSide e .left s).2 ++ (n.syncSide e .right (n.syncSide e .left s).1).2) :=
  congrArg (Prod.mk _) (congrArg (_ ++ ·) (Output.append_empty _))

/-- The neighbors of a node that are known at some time. -/
theorem row?_ne_none {turns : List Turn} (c : Connection)
    (h : (n.play .initial turns).1.registry.neighbor side = some c) : n.row? side ≠ none := by
  obtain ⟨_, _, _, row, hrow, _⟩ := n.row?_of_neighbor_play side h
  rw [hrow]
  exact Option.some_ne_none row

/-- A tick pushes to the neighbors that are known before it. -/
theorem attempts_tick {turns : List Turn} (hname : n.name ≠ "") :
    let s := (n.play .initial turns).1
    (n.tick e s).2.attempts =
      (n.rosterPush? e .left s.registry).toList ++ (n.rosterPush? e .right s.registry).toList := by
  intro s
  have hleft : n.step e s (.sync .left) = n.syncSide e .left s := rfl
  have hclients : (n.syncSide e .left s).1.registry.clients = s.registry.clients :=
    (n.step_alike e s (.sync .left)).clients
  have hright : (n.syncSide e .left s).1.registry.neighbor .right = s.registry.neighbor .right :=
    (n.neighbor_step .right s ⟨e, .sync .left⟩).trans Option.or_none
  rw [tick_eq, Output.attempts_append, n.attempts_syncSide e .left hname (n.row?_ne_none .left),
    n.attempts_syncSide e .right hname, n.rosterPush?_congr e .right hclients hright]
  intro c hc
  rw [hright] at hc
  exact n.row?_ne_none .right c hc

/-- A search fails for no other reason than that the neighbor cannot be reached. -/
theorem cause_of_neighborMissing {s : State} {x : Turn} {cause : RelayError}
    (h : .neighborMissing side cause ∈ (n.moment s x).output.log) :
    ∃ row reason, n.row? side = some row ∧
      cause = .neighborUnreachable row.name row.host row.port reason := by
  revert h
  refine n.moment_cases s x ?_ ?_ ?_ ?_ ?_
  · exact fun e a d cause' hd h => nomatch List.mem_singleton.mp h
  · intro e a d m hd h
    simp [acceptEvents] at h
  · exact fun e hq h => nomatch h
  · intro e m queue hq h
    rcases List.mem_append.mp h with h | h
    · rcases mem_log_relay e h with ⟨_, heq, _⟩ | heq | ⟨_, heq⟩ | ⟨_, _, heq⟩ <;> cases heq
    · obtain ⟨_, heq⟩ := mem_log_deliver e h
      cases heq
  · intro e side' h
    dsimp only at h
    rw [syncSide_row] at h
    split at h
    · cases h
    · rename_i row hrow
      split at h
      · rcases n.mem_log_pushRoster e h with ⟨_, _, heq⟩ | ⟨_, heq⟩ <;> cases heq
      · split at h
        · cases List.mem_singleton.mp h
        · rename_i cause' hcause
          cases List.mem_singleton.mp h
          obtain ⟨reason, heq⟩ := NodeAddress.cause_of_locate (NodeAddress.find_eq_error.mp hcause)
          exact ⟨row, reason, hrow, heq⟩

end Node

/-- The same sessions, rosters and neighbor on one side; the other neighbor may differ. -/
structure Registry.AlikeOn (side : Side) (r r' : Registry) : Prop where
  alike : r.Alike r'
  neighbor : r.neighbor side = r'.neighbor side

theorem Registry.AlikeOn.trans {side : Side} {r r' r'' : Registry} (h : r.AlikeOn side r')
    (h' : r'.AlikeOn side r'') : r.AlikeOn side r'' :=
  ⟨h.alike.trans h'.alike, h.neighbor.trans h'.neighbor⟩

theorem Registry.AlikeOn.symm {side : Side} {r r' : Registry} (h : r.AlikeOn side r') :
    r'.AlikeOn side r :=
  ⟨h.alike.symm, h.neighbor.symm⟩

/-- Whether a step has to do with a side: what comes in may be a client's, and a search or a push is
for one side. -/
def Step.concerns (side : Side) : Step → Bool
  | .ingest .. => true
  | .dispatch => false
  | .sync side' => side' = side

namespace Turn

def concerning (side : Side) (turns : List Turn) : List Turn :=
  turns.filter (·.step.concerns side)

/-- Turns of the same step, in which a search for `row` comes upon the same. Whether anything can be
sent may differ. -/
structure SameFor (row? : Option NodeAddress) (x y : Turn) : Prop where
  step : x.step = y.step
  find : ∀ row ∈ row?, row.find x.surroundings.lookup = row.find y.surroundings.lookup

end Turn

def Moment.pushes (side : Side) (x : Moment) : List (Address × List UInt8) :=
  if x.turn.step = .sync side then x.output.attempts.map fun t => (t.target, t.datagram) else []

namespace Node

variable {n n' : Node} {side : Side} {s s' : State}

def pushedTo (n : Node) (side : Side) (s : State) (turns : List Turn) :
    List (Address × List UInt8) :=
  (n.history s turns).flatMap (·.pushes side)

theorem pushedTo_cons (x : Turn) (turns : List Turn) :
    n.pushedTo side s (x :: turns) =
      (n.moment s x).pushes side ++ n.pushedTo side (n.moment s x).after turns := by
  unfold pushedTo
  rw [history_cons, List.flatMap_cons]

theorem alike_moment (x : Turn) (h : s.registry.Alike s'.registry) :
    (n.moment s x).after.registry.Alike (s'.registry.receiveAll x.step.arrival?.toList) :=
  (n.step_alike x.surroundings s x.step).trans (h.receiveAll _)

theorem finds?_of_not_concerns {x : Turn} (h : x.step.concerns side = false) :
    n.finds? side x = none ∧ (n.moment s x).pushes side = [] ∧ x.step.arrival? = none := by
  obtain ⟨e, step⟩ := x
  cases step with
  | ingest a d => cases h
  | dispatch => exact ⟨rfl, rfl, rfl⟩
  | sync side' =>
    have hside : ¬ Step.sync side' = .sync side :=
      fun heq => of_decide_eq_false h (Step.sync.inj heq)
    exact ⟨if_neg hside, if_neg hside, rfl⟩

/-- Steps that have nothing to do with a side change nothing on it. -/
theorem alikeOn_of_not_concerns {x : Turn} (h : x.step.concerns side = false)
    (hs : s.registry.AlikeOn side s'.registry) :
    (n.moment s x).after.registry.AlikeOn side s'.registry := by
  obtain ⟨hfinds, _, harrival⟩ := finds?_of_not_concerns (n := n) (s := s) h
  constructor
  · have halike := n.alike_moment x hs.alike
    rw [harrival] at halike
    exact halike
  · rw [neighbor_step, hfinds, Option.or_none]
    exact hs.neighbor

theorem finds?_congr (hrow : n.row? side = n'.row? side) {x y : Turn}
    (h : x.SameFor (n.row? side) y) : n.finds? side x = n'.finds? side y := by
  unfold finds? found?
  rw [h.step, ← hrow]
  split
  · cases hr : n.row? side with
    | none => rfl
    | some row =>
      rw [Option.bind_some, Option.bind_some, h.find row hr]
  · rfl

/-- The same step from alike states leads to alike states. -/
theorem alikeOn_of_same (hrow : n.row? side = n'.row? side) {x y : Turn}
    (h : x.SameFor (n.row? side) y) (hs : s.registry.AlikeOn side s'.registry) :
    (n.moment s x).after.registry.AlikeOn side (n'.moment s' y).after.registry := by
  constructor
  · have hx := n.alike_moment x hs.alike
    have hy := n'.alike_moment y (Registry.Alike.refl s'.registry)
    rw [h.step] at hx
    exact hx.trans hy.symm
  · rw [neighbor_step, neighbor_step, hs.neighbor, finds?_congr hrow h]

theorem rosterDatagram_congr (hname : n.name = n'.name) {r r' : Registry} (c : Connection)
    (h : r.clients = r'.clients) : n.rosterDatagram side c r = n'.rosterDatagram side c r' := by
  unfold rosterDatagram Registry.clientIds
  rw [hname, h]

theorem pushPlan_congr (hname : n.name = n'.name) (hrow : n.row? side = n'.row? side)
    {r r' : Registry} (h : r.AlikeOn side r') : n.pushPlan side r = n'.pushPlan side r' := by
  have hroster : ∀ c, n.rosterDatagram side c r = n'.rosterDatagram side c r' :=
    fun c => rosterDatagram_congr hname c h.alike.clients
  unfold pushPlan
  rw [← hrow, ← h.neighbor]
  simp only [hroster]

theorem pushes_syncSide (n : Node) (e : Surroundings) (side : Side) (s : State) :
    (n.syncSide e side s).2.attempts.map (fun t => (t.target, t.datagram)) =
      n.pushPlan side s.registry := by
  rw [attempts_of_pushPlan, List.map_map]
  exact List.map_id _

/-- Two nodes of the same name that know the same of a side push the same there. -/
theorem pushes_of_same (hname : n.name = n'.name) (hrow : n.row? side = n'.row? side)
    {x y : Turn} (h : x.SameFor (n.row? side) y) (hs : s.registry.AlikeOn side s'.registry) :
    (n.moment s x).pushes side = (n'.moment s' y).pushes side := by
  obtain ⟨e, step⟩ := x
  obtain ⟨e', step'⟩ := y
  have hstep : step = step' := h.step
  subst hstep
  unfold Moment.pushes
  change (if step = .sync side then _ else []) = if step = .sync side then _ else []
  by_cases hside : step = .sync side
  · subst hside
    rw [if_pos rfl, if_pos rfl]
    change (n.syncSide e side s).2.attempts.map _ = (n'.syncSide e' side s').2.attempts.map _
    rw [pushes_syncSide, pushes_syncSide]
    exact pushPlan_congr hname hrow hs
  · rw [if_neg, if_neg]
    · exact hside
    · exact hside

/-- Turns that have nothing to do with a side may be left out. -/
theorem play_concerning (turns : List Turn) (hs : s.registry.AlikeOn side s'.registry) :
    (n.play s turns).1.registry.AlikeOn side
        (n.play s' (Turn.concerning side turns)).1.registry ∧
      n.pushedTo side s turns = n.pushedTo side s' (Turn.concerning side turns) := by
  induction turns generalizing s s' with
  | nil => exact ⟨hs, rfl⟩
  | cons x turns ih =>
    unfold Turn.concerning at ih ⊢
    cases hx : x.step.concerns side with
    | false =>
      rw [List.filter_cons_of_neg (by simp [hx])]
      obtain ⟨_, hpushes, _⟩ := finds?_of_not_concerns (n := n) (s := s) hx
      obtain ⟨halike, hpushed⟩ := ih (alikeOn_of_not_concerns hx hs)
      refine ⟨halike, ?_⟩
      rw [pushedTo_cons, hpushes]
      exact hpushed
    | true =>
      rw [List.filter_cons_of_pos (by simp [hx])]
      have hsame : x.SameFor (n.row? side) x := ⟨rfl, fun _ _ => rfl⟩
      obtain ⟨halike, hpushed⟩ := ih (alikeOn_of_same rfl hsame hs)
      refine ⟨halike, ?_⟩
      rw [pushedTo_cons, pushedTo_cons, hpushed, pushes_of_same rfl rfl hsame hs]

theorem play_of_same (hname : n.name = n'.name) (hrow : n.row? side = n'.row? side)
    {turns turns' : List Turn} (h : List.Forall₂ (Turn.SameFor (n.row? side)) turns turns')
    (hs : s.registry.AlikeOn side s'.registry) :
    (n.play s turns).1.registry.AlikeOn side (n'.play s' turns').1.registry ∧
      n.pushedTo side s turns = n'.pushedTo side s' turns' := by
  induction h generalizing s s' with
  | nil => exact ⟨hs, rfl⟩
  | cons hx _ ih =>
    obtain ⟨halike, hpushed⟩ := ih (alikeOn_of_same hrow hx hs)
    refine ⟨halike, ?_⟩
    rw [pushedTo_cons, pushedTo_cons, hpushed, pushes_of_same hname hrow hx hs]

/-- What a node knows of one side and tells it depends on nothing that has to do with the other side
alone. -/
theorem side_of_same (hname : n.name = n'.name) (hrow : n.row? side = n'.row? side)
    {turns turns' : List Turn}
    (h : List.Forall₂ (Turn.SameFor (n.row? side)) (Turn.concerning side turns)
      (Turn.concerning side turns')) :
    (n.play .initial turns).1.registry.AlikeOn side (n'.play .initial turns').1.registry ∧
      n.pushedTo side .initial turns = n'.pushedTo side .initial turns' := by
  have hrefl : State.initial.registry.AlikeOn side State.initial.registry := ⟨.refl _, rfl⟩
  obtain ⟨hleft, hpushed⟩ := play_concerning (n := n) turns hrefl
  obtain ⟨hright, hpushed'⟩ := play_concerning (n := n') turns' hrefl
  obtain ⟨hmiddle, hsame⟩ := play_of_same hname hrow h hrefl
  exact ⟨hleft.trans (hmiddle.trans hright.symm), hpushed.trans (hsame.trans hpushed'.symm)⟩

theorem row?_eq_some {row : NodeAddress} (h : n.row? side = some row) :
    ∃ q, n.topology.neighbor? side n.position = some q ∧ n.topology.node? q = some row :=
  Option.bind_eq_some_iff.mp h

/-- A slot that is full holds the name and the address of the place next to the node, as some search
for it has found them. -/
theorem place_of_neighbor_play {turns : List Turn} {x : Connection}
    (h : (n.play .initial turns).1.registry.neighbor side = some x) :
    ∃ q, n.topology.neighbor? side n.position = some q ∧ n.topology.name? q = some x.id ∧
      ∃ t ∈ turns, t.step = .sync side ∧
        n.topology.resolve t.surroundings.lookup q = .ok x.address := by
  obtain ⟨t, ht, hstep, row, hrow, hfind⟩ := n.row?_of_neighbor_play side h
  obtain ⟨q, hq, hnode⟩ := row?_eq_some hrow
  obtain ⟨hid, hlocate⟩ := NodeAddress.find_eq_ok.mp hfind
  refine ⟨q, hq, ?_, t, ht, hstep, ?_⟩
  · rw [hid]
    exact congrArg (Option.map _) hnode
  · rw [Topology.resolve_of_row hnode, hlocate]

theorem neighborMissing_of_mem_log {turns : List Turn} {cause : RelayError}
    (h : .neighborMissing side cause ∈ (n.play s turns).2.log) :
    ∃ row reason, n.row? side = some row ∧
      cause = .neighborUnreachable row.name row.host row.port reason := by
  rw [log_play] at h
  obtain ⟨x, hx, hlog⟩ := List.mem_flatMap.mp h
  obtain ⟨s', t, rfl⟩ := n.mem_history s hx
  exact n.cause_of_neighborMissing side hlog

/-- The neighbors of a node that has started, whatever comes in and whenever it looks after its
sides. A slot is empty, or it holds the name and the address of the place next to the node. It is
empty where there is no such place or no search for it succeeds, and once it is full it stays as it
is. A search fails only because a name leads nowhere. A tick pushes the clients here once to each
neighbor that is known before, if a datagram can hold them, and changes no session and no roster.
Messages go only to neighbors that are known, whatever rosters came in. One side of a node is like
the same side of another that has the same name and the same neighbor there, whatever differs on the
other side. -/
theorem slots_of_start {c : Config} {lookup : String → Except String (List Host)}
    {bind : Address → Except String Address} {n : Node} {a : Address}
    (h : c.start lookup bind = .ok (n, a)) :
    (n.topology.name? n.position = some n.name ∧
      (n.topology.neighbor? .left n.position = none ↔ n.position.index.toNat = 0) ∧
      (n.topology.neighbor? .right n.position = none ↔
        n.position.index.toNat + 1 = n.topology.nodes.length) ∧
      (n.position.index = 255 → n.topology.neighbor? .right n.position = none)) ∧
    (∀ turns side,
      let slot := (n.play .initial turns).1.registry.neighbor side
      (∀ x, slot = some x → ∃ q, n.topology.neighbor? side n.position = some q ∧
        n.topology.name? q = some x.id ∧ ∃ t ∈ turns, t.step = .sync side ∧
          n.topology.resolve t.surroundings.lookup q = .ok x.address) ∧
      (n.topology.neighbor? side n.position = none → slot = none) ∧
      (∀ q, n.topology.neighbor? side n.position = some q →
        (∀ t ∈ turns, ∀ a, n.topology.resolve t.surroundings.lookup q ≠ .ok a) → slot = none) ∧
      ∀ x turns', slot = some x →
        (n.play .initial (turns ++ turns')).1.registry.neighbor side = some x) ∧
    (∀ sender d s side, (n.ingest sender d s).1.registry.neighbor side = s.registry.neighbor side) ∧
    (∀ side q p, n.topology.neighbor? side n.position = some q →
      (∀ lookup, n.topology.resolve lookup q ≠ .error (.topology (.noNode p))) ∧
      n.topology.name? q ≠ none ∧
      ∀ turns, .neighborMissing side (.topology (.noNode p)) ∉ (n.play .initial turns).2.log) ∧
    (∀ turns e,
      let s := (n.play .initial turns).1
      (n.tick e s).1.registry.Alike s.registry ∧
      (n.tick e s).2.attempts =
        (n.rosterPush? e .left s.registry).toList ++ (n.rosterPush? e .right s.registry).toList) ∧
    (∀ turns m side target, (n.play .initial turns).1.registry.plan m = .neighbor side target →
      ∃ x, (n.play .initial turns).1.registry.neighbor side = some x ∧ x.address = target) ∧
    ∀ (n' : Node) side turns turns', n.name = n'.name → n.row? side = n'.row? side →
      List.Forall₂ (Turn.SameFor (n.row? side)) (Turn.concerning side turns)
        (Turn.concerning side turns') →
      (n.play .initial turns).1.registry.AlikeOn side (n'.play .initial turns').1.registry ∧
      n.pushedTo side .initial turns = n'.pushedTo side .initial turns' := by
  obtain ⟨rfl, hfault, hvalid, _⟩ := Config.start_eq_ok h
  obtain ⟨_, hlength⟩ := Topology.length_le_of_fault? hfault
  have hname := Topology.name_node_ne_empty hfault hvalid
  have hright := Topology.neighbor?_right_eq_none hvalid hlength
  have hlt : c.position.index.toNat < c.topology.nodes.length := of_decide_eq_true hvalid
  refine ⟨⟨?_, Topology.neighbor?_left_eq_none hvalid, hright, ?_⟩, ?_, ?_, ?_, ?_, ?_, ?_⟩
  · have hrow : c.topology.node? c.position = some c.topology.nodes[c.position.index.toNat] :=
      List.getElem?_eq_getElem hlt
    unfold Topology.node Topology.name?
    rw [hrow]
    rfl
  · intro hlast
    refine hright.mpr ?_
    have hindex : c.position.index.toNat = 255 := congrArg UInt8.toNat hlast
    omega
  · intro turns side slot
    have hplace : ∀ x, slot = some x → _ := fun x hx => place_of_neighbor_play hx
    refine ⟨hplace, ?_, ?_, ?_⟩
    · intro hend
      refine Option.eq_none_iff_forall_ne_some.mpr fun x hx => ?_
      obtain ⟨q, hq, _⟩ := hplace x hx
      rw [hend] at hq
      cases hq
    · intro q hq hlost
      refine Option.eq_none_iff_forall_ne_some.mpr fun x hx => ?_
      obtain ⟨q', hq', _, t, ht, _, hresolve⟩ := hplace x hx
      cases hq.symm.trans hq'
      exact hlost t ht _ hresolve
    · intro x turns' hx
      change (play _ .initial turns).1.registry.neighbor side = some x at hx
      rw [neighbor_play_initial] at hx
      rw [neighbor_play_initial, List.findSome?_append, hx, Option.some_or]
  · intro sender d s side
    exact (neighbor_step _ side s ⟨.calm, .ingest sender d⟩).trans Option.or_none
  · intro side q p hq
    obtain ⟨row, hrow⟩ := Topology.exists_row_of_neighbor? hq
    refine ⟨?_, ?_, ?_⟩
    · intro lookup
      rw [Topology.resolve_of_row hrow]
      intro hlocate
      obtain ⟨_, hcause⟩ := NodeAddress.cause_of_locate hlocate
      cases hcause
    · unfold Topology.name?
      rw [hrow]
      nofun
    · intro turns hlog
      obtain ⟨_, _, _, hcause⟩ := neighborMissing_of_mem_log hlog
      cases hcause
  · intro turns e s
    exact ⟨run_alike _ e s (Side.both.map .sync), attempts_tick _ e hname⟩
  · intro turns m side target hplan
    obtain ⟨x, hx, htarget, _⟩ := Registry.neighbor_of_plan hplan
    exact ⟨x, hx, htarget⟩
  · intro n' side turns turns' hnames hrow hsame
    exact side_of_same hnames hrow hsame

section Edge

/-- The first node of a chain finds its neighbor on the right, and hears of a client from a side
where there is no node. -/
def edge : List Turn :=
  [⟨.calm, .sync .right⟩,
    ⟨.calm, .ingest ⟨.v4 10 0 0 9, 9⟩
      (Datagram.frame (Message.json ⟨.syncRight, "nobody", "left", .roster ["eve"]⟩))⟩,
    ⟨.calm, .sync .left⟩]

/-- What is heard from where there is no neighbor is kept, and yet nothing is ever sent there. -/
theorem slots_of_start_edge :
    let n : Node := ⟨"left", ⟨0⟩, .standard⟩
    let r := (n.play .initial edge).1.registry
    Config.standard.start (fun _ => .error "unknown") .ok = .ok (n, ⟨.v4 127 0 0 1, 8080⟩) ∧
      r.roster .left = ["eve"] ∧ r.neighbor .left = none ∧
      (∀ m target, r.plan m ≠ .neighbor .left target) ∧
      ∀ turns, (n.play .initial (edge ++ turns)).1.registry.neighbor .right =
        some ⟨"middle", ⟨.v4 127 0 0 1, 8081⟩⟩ := by
  intro n r
  have hstart : Config.standard.start (fun _ => .error "unknown") .ok =
      .ok (n, ⟨.v4 127 0 0 1, 8080⟩) := by
    decide +kernel
  have hroster : r.roster .left = ["eve"] := by decide +kernel
  have hfound : r.neighbor .right = some ⟨"middle", ⟨.v4 127 0 0 1, 8081⟩⟩ := by decide +kernel
  obtain ⟨⟨_, hend, _⟩, hslot, _, _, _, hplan, _⟩ := slots_of_start hstart
  have hnone : r.neighbor .left = none := (hslot edge .left).2.1 (hend.mpr rfl)
  refine ⟨hstart, hroster, hnone, ?_, fun turns => (hslot edge .right).2.2.2 _ turns hfound⟩
  intro m target htarget
  obtain ⟨x, hx, _⟩ := hplan edge m .left target htarget
  exact nomatch hnone.symm.trans hx

end Edge

end Node

end ChatRelay
