import ChatRelay.Proofs.Attendance
import ChatRelay.Proofs.LocalTargets
import ChatRelay.Proofs.Syncing

namespace ChatRelay

section Maps

variable {members : List Member} {f : Member → Member}

theorem map_username (h : ∀ c ∈ members, (f c).username = c.username) :
    (members.map f).map Member.username = members.map Member.username := by
  rw [List.map_map]
  exact List.map_congr_left h

theorem map_address (h : ∀ c ∈ members, (f c).address = c.address) :
    (members.map f).map Member.address = members.map Member.address := by
  rw [List.map_map]
  exact List.map_congr_left h

theorem map_session (hu : ∀ c ∈ members, (f c).username = c.username)
    (ha : ∀ c ∈ members, (f c).address = c.address) (p : String → Bool) :
    ((members.map f).filter fun c => p c.username).map Member.session =
      (members.filter fun c => p c.username).map Member.session := by
  have hf : (members.filter ((fun c => p c.username) ∘ f)) =
      members.filter fun c => p c.username :=
    List.filter_congr fun c hc => congrArg p (hu c hc)
  rw [List.filter_map, List.map_map, hf]
  apply List.map_congr_left
  intro c hc
  have hc := (List.mem_filter.mp hc).1
  unfold Member.session
  dsimp only [Function.comp_apply]
  rw [hu c hc, ha c hc]

end Maps

/-- Ending the only session of a name is to leave out that name. -/
theorem eraseP_session {members : List Member} (h : (members.map Member.username).Nodup)
    (x : String) : (members.map Member.session).eraseP (·.id = x) =
      (members.filter (·.username ≠ x)).map Member.session := by
  induction members with
  | nil => rfl
  | cons c members ih =>
    rw [List.map_cons, List.nodup_cons] at h
    by_cases hx : c.username = x
    · have hrest : members.filter (·.username ≠ x) = members := by
        apply List.filter_eq_self.mpr
        intro d hd
        have hne : d.username ≠ c.username := fun he =>
          h.1 (List.mem_map.mpr ⟨d, hd, he⟩)
        simpa [hx] using hne
      rw [List.map_cons, List.eraseP_cons_of_pos (by exact decide_eq_true hx),
        List.filter_cons_of_neg (by simpa using hx), hrest]
    · rw [List.map_cons, List.eraseP_cons_of_neg (by exact fun h' => hx (of_decide_eq_true h')),
        List.filter_cons_of_pos (by simpa using hx), List.map_cons, ih h.2]

namespace Site

/-- Nothing waits at the node, no two clients share a name or an address, no neighbor has the
address of a client, and each client has got what was meant for it. The guests are the clients to
come, and `B` are the addresses that clients may have. -/
structure Sound (B : List Address) (s : Site) (guests : List (Address × String))
    (posted : List Message) : Prop where
  queue : s.state.queue = []
  names : (s.members.map Member.username ++ guests.map (·.2)).Nodup
  addresses : (s.members.map Member.address ++ guests.map (·.1)).Nodup
  within : ∀ c ∈ s.members, c.address ∈ B
  apart : ∀ side c, s.state.registry.neighbor side = some c → c.address ∉ B
  inbox : ∀ c ∈ s.members,
    c.client.inbox = (attended c.username posted).filter (·.isFor c.username)

/-- In addition the clients are those that have come, and their sessions those of the clients that
have not gone. -/
structure Settled (B : List Address) (s : Site) (guests : List (Address × String))
    (posted : List Message) : Prop extends Sound B s guests posted where
  joined : ∀ x, x ∈ s.members.map Member.username ↔ posted.any (·.joins x) = true
  clients : s.state.registry.clients =
    (s.members.filter fun c => present c.username posted).map Member.session

variable {B : List Address} {s : Site} {guests : List (Address × String)} {posted : List Message}
  {n : Node} {e : Surroundings}

theorem settled_initial (hn : (guests.map (·.2)).Nodup) (ha : (guests.map (·.1)).Nodup) :
    initial.Settled B guests [] where
  queue := rfl
  names := hn
  addresses := ha
  within := nofun
  apart := by
    intro side c h
    cases side <;> cases h
  inbox := nofun
  joined := fun x => ⟨nofun, nofun⟩
  clients := rfl

/-- Serving a message gives it to the clients it is meant for, and to no other. -/
theorem Sound.serve (h : s.Sound B guests posted) (he : ∀ a, e.send a = .ok ())
    {a : Address} {d : List UInt8} {m : Message} (hd : Datagram.encode m = .ok d) (hv : m.Valid)
    (hm : m.kind.isSync = false) (hj : ∀ x, m.joins x → m.isFor x = false)
    (hc : (s.state.registry.receive m a).clients =
      (s.members.filter fun c => present c.username (posted ++ [m])).map Member.session) :
    (s.serve n e a d).Sound B guests (posted ++ [m]) ∧
      (s.serve n e a d).members.map Member.username = s.members.map Member.username ∧
      (s.serve n e a d).state.registry.clients =
        ((s.serve n e a d).members.filter fun c => present c.username (posted ++ [m])).map
          Member.session := by
  obtain ⟨hr, hq, ht⟩ := n.handle_of_encode e (a := a) hd hv hm h.queue
  have hsent := sent_of_attempts ht he
  have hnames := (List.nodup_append.mp h.names).1
  have haddresses := (List.nodup_append.mp h.addresses).1
  -- Members take datagrams, and keep name and address.
  have hu : ∀ c ∈ s.members, (c.take (n.handle e a d s.state).2.sent).username = c.username :=
    fun c _ => c.username_take _
  have ha : ∀ c ∈ s.members, (c.take (n.handle e a d s.state).2.sent).address = c.address :=
    fun _ _ => rfl
  have hapart : ∀ side c, (s.state.registry.receive m a).neighbor side = some c →
      c.address ∉ B := by
    intro side c hc
    rw [Registry.neighbor_receive] at hc
    exact h.apart side c hc
  refine ⟨?_, map_username hu, ?_⟩
  · constructor
    · exact hq
    · exact (map_username hu).symm ▸ h.names
    · exact (map_address ha).symm ▸ h.addresses
    · intro x hx
      obtain ⟨c, hmem, rfl⟩ := List.mem_map.mp hx
      exact h.within c hmem
    · intro side k hk
      change (n.handle e a d s.state).1.registry.neighbor side = some k at hk
      rw [hr] at hk
      exact hapart side k hk
    · intro x hx
      obtain ⟨c, hmem, rfl⟩ := List.mem_map.mp hx
      have htargets := filter_targets hc hnames haddresses hmem
        (fun side k hk heq => hapart side k hk (heq ▸ h.within c hmem)) m
      rw [hsent, Member.inbox_take c (Datagram.decode_of_encode hd hv) htargets,
        Member.username_take, h.inbox c hmem, filter_attended_concat (hj _)]
  · change (n.handle e a d s.state).1.registry.clients = _
    rw [hr]
    exact hc.trans (map_session hu ha fun x => present x (posted ++ [m])).symm

/-- Whether a member is present changes by its own goodbye only. -/
theorem Settled.present_concat (h : s.Settled B guests posted) {m : Message} {c : Member}
    (hc : c ∈ s.members) : present c.username (posted ++ [m]) =
      (present c.username posted && !m.leaves c.username) := by
  have hj := (h.joined c.username).mp (List.mem_map.mpr ⟨c, hc, rfl⟩)
  rw [ChatRelay.present_concat, if_pos hj]

/-- A guest has posted nothing yet. -/
theorem Settled.fresh {g : Address × String} (h : s.Settled B (g :: guests) posted) :
    posted.any (·.joins g.2) = false := by
  apply Bool.eq_false_iff.mpr
  intro hj
  have hu := (h.joined g.2).mpr hj
  exact (List.nodup_append.mp h.names).2.2 g.2 hu g.2 List.mem_cons_self rfl

section Join

variable {c : Member} (h : s.Settled B ((c.address, c.username) :: guests) posted)

include h

/-- Who has just come has got nothing, and nothing was meant for them before. -/
theorem Settled.sound_join (hB : c.address ∈ B) (hi : c.client.inbox = []) :
    Sound B { s with members := s.members ++ [c] } guests posted := by
  constructor
  · exact h.queue
  · simpa using h.names
  · simpa using h.addresses
  · intro d hd
    rcases List.mem_append.mp hd with hd | hd
    · exact h.within d hd
    · cases List.mem_singleton.mp hd
      exact hB
  · exact h.apart
  · intro d hd
    rcases List.mem_append.mp hd with hd | hd
    · exact h.inbox d hd
    · cases List.mem_singleton.mp hd
      rw [attended_of_not_any h.fresh]
      exact hi

theorem Settled.clients_join {m : Message} (hk : m.kind = .connect) (hs : m.source = c.username) :
    (s.state.registry.receive m c.address).clients =
      ((s.members ++ [c]).filter fun d => present d.username (posted ++ [m])).map
        Member.session := by
  have hold : (s.members.filter fun d => present d.username (posted ++ [m])) =
      s.members.filter fun d => present d.username posted := by
    apply List.filter_congr
    intro d hd
    rw [h.present_concat hd]
    simp [Message.leaves, hk]
  have hnew : present c.username (posted ++ [m]) = true := by
    rw [ChatRelay.present_concat, h.fresh]
    simp [Message.joins, hk, hs]
  rw [Registry.clients_receive, hk, h.clients, List.filter_append, hold, List.map_append,
    List.filter_cons_of_pos (by exact hnew), hs]
  rfl

end Join

/-- A new client gets all that is posted from its own connect on. -/
theorem Settled.join {address : Address} {username : String}
    (h : s.Settled B ((address, username) :: guests) posted) (he : ∀ a, e.send a = .ok ())
    (hB : address ∈ B) {m : Message} (hm : Message.connect username = .ok m)
    {server : Address} {client : ChatClient} {d : List UInt8}
    (hc : ChatClient.connect e.send server username = .ok (client, d)) :
    (serve n e address d { s with members := s.members ++ [⟨address, client⟩] }).Settled B guests
      (posted ++ [m]) := by
  obtain ⟨_, m', hm', hd, _, rfl⟩ := ChatClient.connect_eq_ok.mp hc
  cases hm.symm.trans hm'
  obtain ⟨hv, rfl⟩ := Message.withText_eq_ok.mp hm
  let c : Member := ⟨address, ⟨server, username, 1, []⟩⟩
  have h : s.Settled B ((c.address, c.username) :: guests) posted := h
  have hapart : ∀ x, Message.joins x ⟨.connect, username, Message.everyone, .text ""⟩ →
      Message.isFor ⟨.connect, username, Message.everyone, .text ""⟩ x = false := by
    intro x hx
    have hx : username = x := by simpa [Message.joins] using hx
    simp [Message.isFor, Message.isBroadcast, hx]
  obtain ⟨hs, hnames, hclients⟩ :=
    (h.sound_join hB rfl).serve (n := n) he hd hv rfl hapart (h.clients_join rfl rfl)
  refine { hs with joined := ?_, clients := hclients }
  intro x
  have hx : x ∈ [c].map Member.username ↔
      Message.joins x ⟨.connect, username, Message.everyone, .text ""⟩ = true := by
    simpa [Message.joins, Member.username, c] using eq_comm
  rw [hnames, List.map_append, List.mem_append, h.joined x, hx, List.any_append]
  simp

/-- A change to the clients that leaves names, addresses and inboxes as they are. -/
theorem Settled.map (h : s.Settled B guests posted) {f : Member → Member}
    (hu : ∀ c ∈ s.members, (f c).username = c.username)
    (ha : ∀ c ∈ s.members, (f c).address = c.address)
    (hi : ∀ c ∈ s.members, (f c).client.inbox = c.client.inbox) :
    Settled B { s with members := s.members.map f } guests posted where
  queue := h.queue
  names := (map_username hu).symm ▸ h.names
  addresses := (map_address ha).symm ▸ h.addresses
  within := by
    intro x hx
    obtain ⟨c, hc, rfl⟩ := List.mem_map.mp hx
    rw [ha c hc]
    exact h.within c hc
  apart := h.apart
  inbox := by
    intro x hx
    obtain ⟨c, hc, rfl⟩ := List.mem_map.mp hx
    rw [hi c hc, hu c hc]
    exact h.inbox c hc
  joined := (map_username hu).symm ▸ h.joined
  clients := h.clients.trans (map_session hu ha fun x => present x posted).symm

/-- The sessions after a message of a client that is no connect are those of the clients still
present. -/
theorem Settled.clients_call (h : s.Settled B guests posted) {m : Message} (a : Address)
    (hm : m.kind.isSync = false) (hk : m.kind ≠ .connect) :
    (s.state.registry.receive m a).clients =
      (s.members.filter fun c => present c.username (posted ++ [m])).map Member.session := by
  have hp : (s.members.filter fun c => present c.username (posted ++ [m])) =
      (s.members.filter fun c => present c.username posted).filter (!m.leaves ·.username) := by
    rw [List.filter_filter]
    apply List.filter_congr
    intro c hc
    rw [h.present_concat hc, Bool.and_comm]
  rw [Registry.clients_receive, h.clients, hp]
  by_cases hd : m.kind = .disconnect
  · have hnames : ((s.members.filter fun c => present c.username posted).map
        Member.username).Nodup :=
      (List.nodup_append.mp h.names).1.sublist (List.filter_sublist.map _)
    rw [hd]
    dsimp only
    rw [eraseP_session hnames]
    congr 1
    apply List.filter_congr
    intro c _
    simp [Message.leaves, hd, eq_comm]
  · have hall : (s.members.filter fun c => present c.username posted).filter
        (!m.leaves ·.username) = s.members.filter fun c => present c.username posted := by
      apply List.filter_eq_self.mpr
      intro c _
      simp [Message.leaves, hd]
    rw [hall]
    cases hkind : m.kind <;> simp_all [Message.Kind.isSync]

theorem member?_eq_some {username : String} {c : Member} (h : s.member? username = some c) :
    c ∈ s.members ∧ c.username = username :=
  ⟨List.mem_of_find?_eq_some h, by simpa using List.find?_some h⟩

/-- No more of a client changes by a call than what does not show at the site. -/
theorem Settled.replace (h : s.Settled B guests posted) {c : Member} (hc : c ∈ s.members)
    {client : ChatClient} (hu : client.username = c.username)
    (hi : client.inbox = c.client.inbox) :
    (s.replace c.username client).Settled B guests posted := by
  -- No other client has the name of the caller.
  have hone : ∀ d ∈ s.members, d.username = c.username → d = c := fun d hd =>
    List.inj_on_of_nodup_map (List.nodup_append.mp h.names).1 hd hc
  apply h.map
  · intro d hd
    split
    · rename_i hname
      exact hu.trans hname.symm
    · rfl
  · intro d hd
    split <;> rfl
  · intro d hd
    split
    · rename_i hname
      rw [hone d hd hname]
      exact hi
    · rfl

/-- A client may also get what it has sent itself. -/
theorem Settled.call (h : s.Settled B guests posted) (he : ∀ a, e.send a = .ok ())
    {username : String} {c : Member} (hc : s.member? username = some c)
    {x : ChatClient.Call} {m : Message} (hm : x.message username = .ok m)
    {client : ChatClient} {d : List UInt8} (hx : c.client.call e.send x = (.ok d, client)) :
    (serve n e c.address d (s.replace username client)).Settled B guests (posted ++ [m]) := by
  obtain ⟨hmem, rfl⟩ := member?_eq_some hc
  obtain ⟨m', hm', hd, _, rfl⟩ := ChatClient.post_eq_ok.mp hx
  cases hm.symm.trans hm'
  obtain ⟨hv, _, hsync, hkind⟩ := ChatClient.message_eq_ok hm
  have hrep : (s.replace c.username { c.client with sent := c.client.sent + 1 }).Settled B guests
      posted := h.replace hmem rfl rfl
  have hj : ∀ x, m.joins x → m.isFor x = false := by
    intro x hx
    simp [Message.joins, hkind] at hx
  obtain ⟨hs, hnames, hclients⟩ :=
    hrep.serve (n := n) he hd hv hsync hj (hrep.clients_call c.address hsync hkind)
  refine { hs with joined := ?_, clients := hclients }
  intro x
  rw [hnames, hrep.joined x, List.any_append]
  simp [Message.joins, hkind]

/-- What changes no session, sends nothing to a client and finds no neighbor among the clients. -/
theorem Settled.settle (h : s.Settled B guests posted) {next : State × Output}
    (hq : next.1.queue = []) (hc : next.1.registry.clients = s.state.registry.clients)
    (hb : ∀ side c, next.1.registry.neighbor side = some c → c.address ∉ B)
    (ht : ∀ x ∈ next.2.sent, x.1 ∉ B) : (s.settle next).Settled B guests posted := by
  have hnone : ∀ c ∈ s.members, c.take next.2.sent = c := by
    intro c hmem
    have hf : next.2.sent.filter (·.1 = c.address) = [] := by
      apply List.filter_eq_nil_iff.mpr
      intro x hx heq
      have heq : x.1 = c.address := by simpa using heq
      exact ht x hx (heq ▸ h.within c hmem)
    unfold Member.take
    rw [hf]
    rfl
  have hmembers : s.members.map (·.take next.2.sent) = s.members :=
    (List.map_congr_left hnone).trans (List.map_id _)
  unfold Site.settle
  rw [hmembers]
  exact { queue := hq, names := h.names, addresses := h.addresses, within := h.within,
          apart := hb, inbox := h.inbox, joined := h.joined, clients := hc.trans h.clients }

/-- What may happen beside the clients: a datagram from elsewhere holds a roster or nothing at all,
and no neighbor is found at the address of a client. -/
def Action.Apart (n : Node) (B : List Address) : Action → Prop
  | .join _ _ | .call _ _ => True
  | .hear _ d => ∀ m, Datagram.decode d = .ok m → m.kind.isSync = true
  | .look side lookup => ∀ p a, n.topology.neighbor? side n.position = some p →
      n.topology.resolve lookup p = .ok a → a ∉ B

/-- What comes from elsewhere changes no session and reaches no client. -/
theorem Settled.hear (h : s.Settled B guests posted) {d : List UInt8}
    (hd : ∀ m, Datagram.decode d = .ok m → m.kind.isSync = true) (sender : Address) :
    (serve n e sender d s).Settled B guests posted := by
  cases hm : Datagram.decode d with
  | error cause =>
    have hh := n.handle_of_damage e (a := sender) hm h.queue
    apply h.settle
    · rw [hh]
      exact h.queue
    · rw [hh]
      rfl
    · rw [hh]
      exact h.apart
    · rw [hh]
      intro x hx
      cases hx
  | ok m =>
    have hh := n.handle_of_sync e (a := sender) hm (hd m hm) h.queue
    apply h.settle
    · rw [hh]
      simp [Node.accept, hd m hm, h.queue]
    · rw [hh]
      exact Registry.clients_receive_of_sync _ _ (hd m hm)
    · rw [hh]
      intro side c hc
      change (s.state.registry.receive m sender).neighbor side = some c at hc
      rw [Registry.neighbor_receive] at hc
      exact h.apart side c hc
    · rw [hh]
      intro x hx
      cases hx

theorem Settled.look (h : s.Settled B guests posted) {side : Side}
    {lookup : String → Except String (List Host)} (hl : (Action.look side lookup).Apart n B) :
    (s.settle (n.syncSide { e with lookup := lookup } side s.state)).Settled B guests posted := by
  obtain ⟨hr, hq, ht⟩ := n.syncSide_eq { e with lookup := lookup } side s.state
  apply h.settle
  · rw [hq, h.queue]
  · rcases hr with hr | ⟨p, found, hr, _, _⟩
    · rw [hr]
    · rw [hr, Registry.clients_setNeighbor]
  · intro t c hc
    rcases hr with hr | ⟨p, found, hr, hp, hfound⟩
    · rw [hr] at hc
      exact h.apart t c hc
    · rw [hr, Registry.neighbor_setNeighbor] at hc
      split at hc
      · exact hl p c.address hp (hfound c hc)
      · exact h.apart t c hc
  · intro x hx
    obtain ⟨a, ha, htarget, _⟩ := Output.mem_sent.mp hx
    obtain ⟨c, hc, hca, _⟩ := ht a ha
    rw [← htarget, hca]
    exact h.apart side c hc

/-- A guest that does not get in leaves its name and its address free. -/
theorem Settled.dismiss {g : Address × String} (h : s.Settled B (g :: guests) posted) :
    s.Settled B guests posted :=
  { h with
    names := h.names.sublist ((List.Sublist.refl _).append (List.sublist_cons_self _ _))
    addresses := h.addresses.sublist ((List.Sublist.refl _).append (List.sublist_cons_self _ _)) }

variable {home : Address}

/-- Whatever happens at a site, it stays settled. -/
theorem Settled.step {x : Action} (h : s.Settled B (x.guest?.toList ++ guests) posted)
    (he : ∀ a, e.send a = .ok ()) (hx : x.Apart n B) (hB : ∀ g, x.guest? = some g → g.1 ∈ B) :
    (step n e home s x).1.Settled B guests (posted ++ (step n e home s x).2.toList) := by
  cases x with
  | join address username =>
    have h : s.Settled B ((address, username) :: guests) posted := h
    unfold Site.step
    dsimp only
    split
    · rename_i m client d hm hc
      exact h.join he (hB _ rfl) hm hc
    · rw [Option.toList_none, List.append_nil]
      exact h.dismiss
  | call username x =>
    unfold Site.step
    dsimp only
    split
    · rw [Option.toList_none, List.append_nil]
      exact h
    · rename_i c hc
      split
      · rename_i m d client hm hd
        exact Settled.call h he hc hm hd
      · rename_i client hcall _
        obtain ⟨hmem, rfl⟩ := member?_eq_some hc
        have hclient := ChatClient.client_call e.send x c.client
        rw [hcall] at hclient
        dsimp only at hclient
        rw [Option.toList_none, List.append_nil]
        rw [hclient]
        exact h.replace hmem rfl rfl
  | hear sender d =>
    unfold Site.step
    rw [Option.toList_none, List.append_nil]
    exact Settled.hear h hx sender
  | look side lookup =>
    unfold Site.step
    rw [Option.toList_none, List.append_nil]
    exact Settled.look h hx

theorem Settled.run {actions : List Action}
    (h : s.Settled B (actions.filterMap Action.guest?) posted) (he : ∀ a, e.send a = .ok ())
    (hx : ∀ x ∈ actions, x.Apart n B) (hB : ∀ g ∈ actions.filterMap Action.guest?, g.1 ∈ B) :
    (run n e home s actions).1.Settled B [] (posted ++ (run n e home s actions).2) := by
  induction actions generalizing s posted with
  | nil =>
    unfold Site.run
    rw [List.append_nil]
    exact h
  | cons x actions ih =>
    have hguests : (x :: actions).filterMap Action.guest? =
        x.guest?.toList ++ actions.filterMap Action.guest? := by
      cases hg : x.guest? <;> simp [hg]
    rw [hguests] at h hB
    have hstep : (Site.step n e home s x).1.Settled B (actions.filterMap Action.guest?)
        (posted ++ (Site.step n e home s x).2.toList) := by
      apply h.step he (hx x List.mem_cons_self)
      intro g hg
      exact hB g (List.mem_append_left _ (by simp [hg]))
    have hrest := ih hstep (fun y hy => hx y (List.mem_cons_of_mem _ hy))
      fun g hg => hB g (List.mem_append_right _ hg)
    rw [List.append_assoc] at hrest
    exact hrest

/-- Every client that has come has in its inbox, in order and once, the messages that were meant for
it and were posted after its own connect and before its first goodbye. -/
theorem inbox_run (n : Node) (e : Surroundings) (home : Address) (actions : List Action)
    (he : ∀ a, e.send a = .ok ())
    (hn : ((actions.filterMap Action.guest?).map (·.2)).Nodup)
    (ha : ((actions.filterMap Action.guest?).map (·.1)).Nodup)
    (hx : ∀ x ∈ actions, x.Apart n ((actions.filterMap Action.guest?).map (·.1))) :
    (∀ c ∈ (run n e home initial actions).1.members, c.client.inbox =
      (attended c.username (run n e home initial actions).2).filter (·.isFor c.username)) ∧
    ∀ x, x ∈ (run n e home initial actions).1.members.map Member.username ↔
      (run n e home initial actions).2.any (·.joins x) = true := by
  have h : (run n e home initial actions).1.Settled ((actions.filterMap Action.guest?).map (·.1))
      [] ([] ++ (run n e home initial actions).2) :=
    (settled_initial hn ha).run he hx fun g hg => List.mem_map.mpr ⟨g, hg, rfl⟩
  exact ⟨h.inbox, h.joined⟩

/-- Two clients, of which one leaves, beside a neighbor that is found and tells of its own. -/
def visit : List Action := [
  .join ⟨.v4 10 0 0 1, 7⟩ "ann",
  .look .right fun _ => .error "unknown",
  .join ⟨.v4 10 0 0 2, 7⟩ "bob",
  .call "ann" (.chat "hello"),
  .hear ⟨.v4 127 0 0 1, 8081⟩
    (Datagram.frame (Message.json ⟨.syncLeft, "middle", "left", .roster ["bob"]⟩)),
  .call "bob" (.privately "bob" "note"),
  .call "bob" .disconnect,
  .call "ann" (.privately "bob" "late")]

/-- Each gets two messages: the one that goes does not get what is sent to it afterwards. -/
theorem inbox_run_visit :
    let guests := visit.filterMap Action.guest?
    let n : Node := ⟨"left", ⟨0⟩, .standard⟩
    let e : Surroundings := .calm
    let home : Address := ⟨.v4 127 0 0 1, 8080⟩
    (guests.map (·.2)).Nodup ∧ (guests.map (·.1)).Nodup ∧
      (∀ x ∈ visit, x.Apart n (guests.map (·.1))) ∧
      (run n e home initial visit).1.members.map (fun c => (c.username, c.client.inbox.length)) =
        [("ann", 2), ("bob", 2)] ∧
      (∀ c ∈ (run n e home initial visit).1.members, c.client.inbox =
        (attended c.username (run n e home initial visit).2).filter (·.isFor c.username)) ∧
      ∀ x, x ∈ (run n e home initial visit).1.members.map Member.username ↔
        (run n e home initial visit).2.any (·.joins x) = true := by
  intro guests n e home
  have hn : (guests.map (·.2)).Nodup := by decide
  have ha : (guests.map (·.1)).Nodup := by decide
  have hx : ∀ x ∈ visit, x.Apart n (guests.map (·.1)) := by
    intro x hx
    simp only [visit, List.mem_cons, List.not_mem_nil, or_false] at hx
    rcases hx with rfl | rfl | rfl | rfl | rfl | rfl | rfl | rfl
    · trivial
    · intro p a hp hr
      cases (show some ⟨1⟩ = some p from hp)
      cases (show Except.ok ⟨.v4 127 0 0 1, 8081⟩ = Except.ok a from hr)
      decide
    · trivial
    · trivial
    · intro m hm
      rw [Datagram.decode_of_encode (Datagram.encode_eq_ok.mpr ⟨by decide, rfl⟩) (by decide)] at hm
      cases hm
      rfl
    · trivial
    · trivial
    · trivial
  refine ⟨hn, ha, hx, by decide +kernel, ?_⟩
  exact inbox_run n e home visit (fun _ => rfl) hn ha hx

end Site

end ChatRelay
