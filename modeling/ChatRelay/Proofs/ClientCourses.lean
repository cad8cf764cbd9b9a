import ChatRelay.Proofs.ClientCalls
import ChatRelay.Proofs.Relayable

namespace ChatRelay

namespace Message

def size (m : Message) : Nat := (Datagram.frame m.json).length

def fits (m : Message) : Bool := m.size ≤ Datagram.maxLength

end Message

namespace ChatClient

def hello (username : String) : Message := ⟨.connect, username, Message.everyone, .text ""⟩

/-- What a call asks a client to say, whether or not it can be sent. -/
def Call.told (username : String) : Call → Message
  | chat text => ⟨.chat, username, Message.everyone, .text text⟩
  | privately destination text => ⟨.privateMessage, username, destination, .text text⟩
  | disconnect => ⟨.disconnect, username, Message.everyone, .text ""⟩

def Call.answer (username : String) (x : Call) : Except RelayError Unit :=
  if (x.told username).fits then .ok ()
  else .error (.protocol (.tooLarge (x.told username).size Datagram.maxLength))

inductive Act where
  | call (x : Call)
  | push (d : List UInt8)
  | poll
deriving DecidableEq, Repr

namespace Act

def call? : Act → Option Call
  | call x => some x
  | push _ | poll => none

def heard? : Act → Option Message
  | push d => (Datagram.decode d).toOption
  | call _ | poll => none

def calls (acts : List Act) : List Call := acts.filterMap call?

def heard (acts : List Act) : List Message := acts.filterMap heard?

/-- All that a client was told to say and that a datagram can hold, in the order of the calls. -/
def said (username : String) (acts : List Act) : List Message :=
  ((calls acts).map (Call.told username)).filter (·.fits)

end Act

end ChatClient

/-- A client and what has come of it so far: the datagrams that its server got, the messages that it
has handed out, and the answers to its calls. -/
structure ClientCourse where
  client : ChatClient
  wire : List (List UInt8)
  polled : List Message
  answers : List (Except RelayError Unit)

namespace ClientCourse

open ChatClient

def act (send : Address → Except String Unit) (s : ClientCourse) : Act → ClientCourse
  | .call x =>
    let (answer, c) := s.client.call send x
    { s with
      client := c
      wire := s.wire ++ answer.toOption.toList
      answers := s.answers ++ [answer.map fun _ => ()] }
  | .push d => { s with client := s.client.receive d }
  | .poll =>
    let (ms, c) := s.client.poll
    { s with client := c, polled := s.polled ++ ms }

def run (send : Address → Except String Unit) (s : ClientCourse) (acts : List Act) : ClientCourse :=
  acts.foldl (act send) s

def start (c : ChatClient) (d : List UInt8) : ClientCourse := ⟨c, [d], [], []⟩

/-- What some acts of a client bring about. -/
structure Brings (s : ClientCourse) (acts : List Act) (t : ClientCourse) : Prop where
  server : t.client.server = s.client.server
  username : t.client.username = s.client.username
  answers : t.answers = s.answers ++ (Act.calls acts).map (Call.answer s.client.username)
  wire : t.wire = s.wire ++ (Act.said s.client.username acts).map fun m => Datagram.frame m.json
  sent : t.client.sent = s.client.sent + (Act.said s.client.username acts).length
  inbox : t.polled ++ t.client.inbox = s.polled ++ s.client.inbox ++ Act.heard acts

/-- Courses that tell apart at most what calls have been answered. -/
structure SameButAnswers (s t : ClientCourse) : Prop where
  client : s.client = t.client
  wire : s.wire = t.wire
  polled : s.polled = t.polled

/-- Courses on which the same messages have come in and been handed out. -/
structure SameMail (s t : ClientCourse) : Prop where
  inbox : s.client.inbox = t.client.inbox
  polled : s.polled = t.polled

end ClientCourse

namespace Message

variable {m : Message}

theorem fits_iff : m.fits = true ↔ m.size ≤ 65507 := decide_eq_true_iff

theorem not_fits_iff : m.fits = false ↔ 65507 < m.size := by
  rw [← Bool.not_eq_true, fits_iff, Nat.not_le]

theorem size_eq_width (m : Message) : m.size = m.width := m.length_frame_json

theorem encode_of_fits (h : m.fits = true) :
    Datagram.encode m = .ok (Datagram.frame m.json) :=
  Datagram.encode_eq_ok.mpr ⟨of_decide_eq_true h, rfl⟩

theorem encode_of_not_fits (h : m.fits = false) :
    Datagram.encode m = .error (.tooLarge m.size Datagram.maxLength) :=
  (Datagram.encode_eq m).trans (if_neg (of_decide_eq_false h))

end Message

namespace ChatClient

variable {username : String}

theorem valid_hello (h : username ≠ "") : (hello username).Valid := by
  simp [hello, Message.Valid, Message.flaw?, h, Message.Kind.carriesRoster, Message.Kind.isSync]

theorem valid_told (h : username ≠ "") (x : Call) : (x.told username).Valid := by
  cases x <;>
    simp [Call.told, Message.Valid, Message.flaw?, h, Message.Kind.carriesRoster,
      Message.Kind.isSync]

theorem source_told (x : Call) : (x.told username).source = username := by
  cases x <;> rfl

/-- A client that has a name can put every call into a message. -/
theorem message_told (h : username ≠ "") (x : Call) :
    x.message username = .ok (x.told username) := by
  have hv := valid_told h x
  cases x <;> exact Message.withText_eq_ok.mpr ⟨hv, rfl⟩

section Post

variable {send : Address → Except String Unit} {c : ChatClient} {m : Message}

theorem post_of_fits (hs : send c.server = .ok ()) (h : m.fits = true) :
    c.post send (.ok m) = (.ok (Datagram.frame m.json), { c with sent := c.sent + 1 }) :=
  post_eq_ok.mpr ⟨m, rfl, Message.encode_of_fits h, hs, rfl⟩

/-- A message that no datagram can hold is not tried. -/
theorem post_of_not_fits (h : m.fits = false) :
    c.post send (.ok m) = (.error (.protocol (.tooLarge m.size Datagram.maxLength)), c) := by
  unfold post
  dsimp only
  rw [Message.encode_of_not_fits h]

theorem call_of_fits (hs : send c.server = .ok ()) (hn : c.username ≠ "") {x : Call}
    (h : (x.told c.username).fits = true) :
    c.call send x =
      (.ok (Datagram.frame (x.told c.username).json), { c with sent := c.sent + 1 }) := by
  unfold call
  rw [message_told hn]
  exact post_of_fits hs h

theorem call_of_not_fits (hn : c.username ≠ "") {x : Call}
    (h : (x.told c.username).fits = false) :
    c.call send x =
      (.error (.protocol (.tooLarge (x.told c.username).size Datagram.maxLength)), c) := by
  unfold call
  rw [message_told hn]
  exact post_of_not_fits h

end Post

namespace Act

@[simp] theorem calls_append (acts acts' : List Act) :
    calls (acts ++ acts') = calls acts ++ calls acts' :=
  List.filterMap_append

@[simp] theorem heard_append (acts acts' : List Act) :
    heard (acts ++ acts') = heard acts ++ heard acts' :=
  List.filterMap_append

@[simp] theorem said_append (username : String) (acts acts' : List Act) :
    said username (acts ++ acts') = said username acts ++ said username acts' := by
  simp [said]

end Act

end ChatClient

namespace ClientCourse

open ChatClient

variable {send : Address → Except String Unit} {s t u : ClientCourse}

theorem Brings.trans {acts acts' : List Act} (h : s.Brings acts t) (h' : t.Brings acts' u) :
    s.Brings (acts ++ acts') u where
  server := h'.server.trans h.server
  username := h'.username.trans h.username
  answers := by
    rw [h'.answers, h.answers, h.username, Act.calls_append, List.map_append, List.append_assoc]
  wire := by
    rw [h'.wire, h.wire, h.username, Act.said_append, List.map_append, List.append_assoc]
  sent := by
    rw [h'.sent, h.sent, h.username, Act.said_append, List.length_append, Nat.add_assoc]
  inbox := by
    rw [h'.inbox, h.inbox, Act.heard_append, List.append_assoc]

/-- A call that cannot be sent leaves nothing but its answer. -/
theorem act_of_not_fits (hn : s.client.username ≠ "") {x : Call}
    (h : (x.told s.client.username).fits = false) :
    s.act send (.call x) =
      { s with answers := s.answers ++ [x.answer s.client.username] } := by
  simp [act, call_of_not_fits hn h, Call.answer, h, Except.toOption, Except.map]

/-- What a single act brings about. Only a call sends, and only a datagram that comes in fills the
inbox. -/
theorem brings_act (hs : send s.client.server = .ok ()) (hn : s.client.username ≠ "")
    (a : Act) : s.Brings [a] (s.act send a) := by
  cases a with
  | call x =>
    cases h : (x.told s.client.username).fits with
    | true =>
      have hact : s.act send (.call x) =
          { s with
            client := { s.client with sent := s.client.sent + 1 }
            wire := s.wire ++ [Datagram.frame (x.told s.client.username).json]
            answers := s.answers ++ [.ok ()] } := by
        simp [act, call_of_fits hs hn h, Except.toOption, Except.map]
      rw [hact]
      constructor <;> simp [Act.calls, Act.said, Act.heard, Act.call?, Act.heard?, Call.answer, h]
    | false =>
      rw [act_of_not_fits hn h]
      constructor <;> simp [Act.calls, Act.said, Act.heard, Act.call?, Act.heard?, h]
  | push d =>
    change s.Brings [.push d] { s with client := s.client.receive d }
    unfold receive
    cases hd : Datagram.decode d <;> constructor <;>
      simp [Act.calls, Act.said, Act.heard, Act.call?, Act.heard?, hd, Except.toOption]
  | poll =>
    constructor <;>
      simp [act, ChatClient.poll, Act.calls, Act.said, Act.heard, Act.call?, Act.heard?]

theorem brings_run (hs : send s.client.server = .ok ()) (hn : s.client.username ≠ "")
    (acts : List Act) : s.Brings acts (s.run send acts) := by
  induction acts generalizing s with
  | nil => constructor <;> simp [run, Act.calls, Act.said, Act.heard]
  | cons a acts ih =>
    have hone := brings_act hs hn a
    exact hone.trans (ih (hone.server ▸ hs) (hone.username ▸ hn))

theorem run_append (acts acts' : List Act) :
    s.run send (acts ++ acts') = (s.run send acts).run send acts' :=
  List.foldl_append

/-- The answers to what comes later stand behind those to what came before. -/
theorem answers_run_append (hs : send s.client.server = .ok ()) (hn : s.client.username ≠ "")
    (acts acts' : List Act) :
    (s.run send (acts ++ acts')).answers =
      (s.run send acts).answers ++ (Act.calls acts').map (Call.answer s.client.username) := by
  have hbrings := brings_run hs hn acts
  rw [run_append, (brings_run (hbrings.server ▸ hs) (hbrings.username ▸ hn) acts').answers,
    hbrings.username]

theorem SameButAnswers.act (h : s.SameButAnswers t) (a : Act) :
    (s.act send a).SameButAnswers (t.act send a) := by
  obtain ⟨hclient, hwire, hpolled⟩ := h
  cases a with
  | call x =>
    simp only [ClientCourse.act, hclient, hwire, hpolled]
    exact ⟨rfl, rfl, rfl⟩
  | push d => exact ⟨congrArg (receive d) hclient, hwire, hpolled⟩
  | poll =>
    simp only [ClientCourse.act, hclient, hpolled]
    exact ⟨rfl, hwire, rfl⟩

theorem SameButAnswers.run (h : s.SameButAnswers t) (acts : List Act) :
    (s.run send acts).SameButAnswers (t.run send acts) := by
  induction acts generalizing s t with
  | nil => exact h
  | cons a acts ih => exact ih (h.act a)

/-- A call that cannot be sent may as well not have been made. -/
theorem run_without (hs : send s.client.server = .ok ()) (hn : s.client.username ≠ "") {x : Call}
    (h : (x.told s.client.username).fits = false) (before after : List Act) :
    (s.run send (before ++ .call x :: after)).SameButAnswers (s.run send (before ++ after)) := by
  have hbefore := brings_run hs hn before
  rw [run_append, run_append]
  have hact : ((s.run send before).act send (.call x)).SameButAnswers (s.run send before) := by
    rw [act_of_not_fits (hbefore.username ▸ hn) (hbefore.username ▸ h)]
    exact ⟨rfl, rfl, rfl⟩
  exact hact.run after

theorem SameMail.act_call (h : s.SameMail t) (x : Call) : (s.act send (.call x)).SameMail t := by
  refine ⟨?_, h.polled⟩
  change (s.client.call send x).2.inbox = _
  rw [client_call]
  exact h.inbox

theorem SameMail.act (h : s.SameMail t) {a : Act} (ha : a.call? = none) :
    (s.act send a).SameMail (t.act send a) := by
  cases a with
  | call x => cases ha
  | push d =>
    constructor
    · change (s.client.receive d).inbox = (t.client.receive d).inbox
      unfold receive
      cases Datagram.decode d with
      | ok m => exact congrArg (· ++ [m]) h.inbox
      | error cause => exact h.inbox
    · exact h.polled
  | poll =>
    refine ⟨rfl, ?_⟩
    change s.polled ++ s.client.inbox = t.polled ++ t.client.inbox
    rw [h.polled, h.inbox]

/-- What has come in and been handed out is as if no call had been made. -/
theorem SameMail.run (h : s.SameMail t) (acts : List Act) :
    (s.run send acts).SameMail (t.run send (acts.filter (·.call?.isNone))) := by
  induction acts generalizing s t with
  | nil => exact h
  | cons a acts ih =>
    cases a with
    | call x => exact ih (h.act_call x)
    | push d => exact ih (h.act rfl)
    | poll => exact ih (h.act rfl)

end ClientCourse

namespace ChatClient

variable {username : String}

theorem answer_eq_ok {x : Call} :
    x.answer username = .ok () ↔ (x.told username).size ≤ 65507 := by
  rw [← Message.fits_iff]
  unfold Call.answer
  split <;> simp_all

/-- The calls that are answered well are those that have sent something. -/
theorem countP_answers (username : String) (acts : List Act) :
    ((Act.calls acts).map (Call.answer username)).countP Except.isOk =
      (Act.said username acts).length := by
  unfold Act.said
  rw [← List.countP_eq_length_filter, List.countP_map, List.countP_map]
  congr 1
  funext x
  simp only [Function.comp, Call.answer]
  split
  · simp_all [Except.isOk, Except.toBool]
  · simp_all [Except.isOk, Except.toBool]

theorem source_said {m : Message} {acts : List Act} (h : m ∈ Act.said username acts) :
    ∃ x ∈ Act.calls acts, m = x.told username ∧ m.fits = true := by
  obtain ⟨hm, hfits⟩ := List.mem_filter.mp h
  obtain ⟨x, hx, rfl⟩ := List.mem_map.mp hm
  exact ⟨x, hx, rfl, hfits⟩

theorem connect_of_empty (send : Address → Except String Unit) (server : Address) :
    connect send server "" = .error (.error (.protocol (.invalid .emptySource))) :=
  connect_of_run (by decide) rfl

theorem connect_of_not_fits (send : Address → Except String Unit) (server : Address)
    (hz : '\x00' ∉ username.toList) (hn : username ≠ "") (h : (hello username).fits = false) :
    connect send server username =
      .error (.error (.protocol (.tooLarge (hello username).size Datagram.maxLength))) := by
  have hm : Message.connect username = .ok (hello username) :=
    Message.withText_eq_ok.mpr ⟨valid_hello hn, rfl⟩
  exact connect_of_run hz (hm ▸ post_of_not_fits h)

theorem connect_of_fits {send : Address → Except String Unit} {server : Address}
    (hs : send server = .ok ()) (hz : '\x00' ∉ username.toList) (hn : username ≠ "")
    (h : (hello username).fits = true) :
    connect send server username =
      .ok (⟨server, username, 1, []⟩, Datagram.frame (hello username).json) := by
  have hm : Message.connect username = .ok (hello username) :=
    Message.withText_eq_ok.mpr ⟨valid_hello hn, rfl⟩
  exact connect_of_run hz (hm ▸ post_of_fits hs h)

/-- A client whose server can be sent to. With a zero character in its name it comes to a bad end
before anything is sent. Without a name, or with one that is too long for a datagram, it does not
register, and nothing is tried. Else it counts its registration and the calls that are answered
well. The server gets the registration and what these calls say, in their order and under the name
of the client, and no more. A call is answered badly if no datagram can hold what it says, and then
might as well not have been made. The messages handed out and those that still wait are those that
have come in, whatever the client was asked to say. -/
theorem client_courses {send : Address → Except String Unit} {server : Address}
    (hs : send server = .ok ()) (username : String) :
    (∀ send' name, connect send' server username = .error (.panic ⟨name⟩) ↔
      '\x00' ∈ username.toList ∧ name = username ++ "-reader") ∧
    (username = "" → ∀ send', connect send' server username =
      .error (.error (.protocol (.invalid .emptySource)))) ∧
    ('\x00' ∉ username.toList → username ≠ "" → 65507 < (hello username).size → ∀ send',
      connect send' server username =
        .error (.error (.protocol (.tooLarge (hello username).size 65507)))) ∧
    ('\x00' ∉ username.toList → username ≠ "" → (hello username).size ≤ 65507 →
      ∃ c, connect send server username = .ok (c, Datagram.frame (hello username).json) ∧
        c.username = username ∧ ∀ acts : List Act,
          let s := ClientCourse.start c (Datagram.frame (hello username).json)
          let t := s.run send acts
          t.client.sent = 1 + t.answers.countP Except.isOk ∧
          t.answers = (Act.calls acts).map (Call.answer username) ∧
          (∀ x : Call, x.answer username = .ok () ↔ (x.told username).size ≤ 65507) ∧
          t.wire.map Datagram.decode = (hello username :: Act.said username acts).map .ok ∧
          t.wire.map Except.ok =
            (hello username :: Act.said username acts).map Datagram.encode ∧
          (∀ m ∈ hello username :: Act.said username acts, m.source = username) ∧
          t.polled ++ t.client.inbox = Act.heard acts ∧
          t.SameMail (s.run send (acts.filter (·.call?.isNone))) ∧
          ∀ before x after, acts = before ++ .call x :: after →
            65507 < (x.told username).size →
              let r := s.run send before
              r.act send (.call x) = { r with answers := r.answers ++ [x.answer username] } ∧
              t.SameButAnswers (s.run send (before ++ after)) ∧
              ∃ rest, t.answers = r.answers ++ x.answer username :: rest ∧
                (s.run send (before ++ after)).answers = r.answers ++ rest) := by
  refine ⟨fun send' name => connect_eq_panic, ?_, ?_, ?_⟩
  · rintro rfl send'
    exact connect_of_empty send' server
  · intro hz hn hlong send'
    exact connect_of_not_fits send' server hz hn (Message.not_fits_iff.mpr hlong)
  · intro hz hn hshort
    have hfits : (hello username).fits = true := Message.fits_iff.mpr hshort
    refine ⟨_, connect_of_fits hs hz hn hfits, rfl, fun acts => ?_⟩
    intro s t
    have hbrings : ∀ acts, s.Brings acts (s.run send acts) := ClientCourse.brings_run hs hn
    have hanswers : t.answers = (Act.calls acts).map (Call.answer username) :=
      (hbrings acts).answers
    have hwire : t.wire =
        (hello username :: Act.said username acts).map fun m => Datagram.frame m.json :=
      (hbrings acts).wire
    have hsaid : ∀ m ∈ hello username :: Act.said username acts,
        m.Valid ∧ m.fits = true ∧ m.source = username := by
      refine List.forall_mem_cons.mpr ⟨⟨valid_hello hn, hfits, rfl⟩, fun m hm => ?_⟩
      obtain ⟨x, _, rfl, hx⟩ := source_said hm
      exact ⟨valid_told hn x, hx, source_told x⟩
    refine ⟨?_, hanswers, fun x => answer_eq_ok, ?_, ?_, fun m hm => (hsaid m hm).2.2,
      (hbrings acts).inbox, ClientCourse.SameMail.run ⟨rfl, rfl⟩ acts, ?_⟩
    · rw [hanswers, countP_answers]
      exact (hbrings acts).sent
    · rw [hwire, List.map_map]
      refine List.map_congr_left fun m hm => ?_
      exact Datagram.decode_of_encode (Message.encode_of_fits (hsaid m hm).2.1) (hsaid m hm).1
    · rw [hwire, List.map_map]
      exact List.map_congr_left fun m hm => (Message.encode_of_fits (hsaid m hm).2.1).symm
    · intro before x after hacts hlong r
      subst hacts
      have hx : (x.told username).fits = false := Message.not_fits_iff.mpr hlong
      have hr := hbrings before
      have hname : r.client.username = username := hr.username
      have hcall : r.act send (.call x) =
          { r with answers := r.answers ++ [x.answer r.client.username] } :=
        ClientCourse.act_of_not_fits (hname ▸ hn) (hname ▸ hx)
      rw [hname] at hcall
      refine ⟨hcall, ?_, (Act.calls after).map (Call.answer username), ?_, ?_⟩
      · exact ClientCourse.run_without (s := s) hs hn hx before after
      · exact ClientCourse.answers_run_append (s := s) hs hn before (.call x :: after)
      · exact ClientCourse.answers_run_append (s := s) hs hn before after

section Visit

def welcome : Message := ⟨.chat, "ann", Message.everyone, .text "hi"⟩

def tirade : String := String.ofList (List.replicate 65507 'a')

theorem not_fits_tirade : ((Call.chat tirade).told "a").fits = false := by
  rw [Message.not_fits_iff, Message.size_eq_width]
  change 65507 < (Datagram.letterChat 65507).width
  rw [Datagram.width_letterChat]
  decide

/-- The client is welcomed twice while it speaks, and speaks too long in between. -/
def visited : List Act :=
  [.call (.chat "hi"), .push (Datagram.frame welcome.json), .call (.chat tirade), .poll, .push [1],
    .push (Datagram.frame welcome.json), .call .disconnect]

/-- The client speaks, is welcomed twice, speaks too long once and leaves: three of its four
messages have gone out. Without a name, or with a zero character in it, nobody comes at all. -/
theorem client_courses_visit :
    connect Surroundings.calm.send ⟨.v4 10 0 0 9, 9⟩ "" =
        .error (.error (.protocol (.invalid .emptySource))) ∧
      connect Surroundings.calm.send ⟨.v4 10 0 0 9, 9⟩ "a\x00b" =
        .error (.panic ⟨"a\x00b-reader"⟩) ∧
      ∃ c d, connect Surroundings.calm.send ⟨.v4 10 0 0 9, 9⟩ "a" = .ok (c, d) ∧
        let t := (ClientCourse.start c d).run Surroundings.calm.send visited
        t.client.sent = 3 ∧
        t.wire.map Datagram.decode =
          [.ok (hello "a"), .ok ((Call.chat "hi").told "a"), .ok (Call.disconnect.told "a")] ∧
        t.answers = [.ok (), (Call.chat tirade).answer "a", .ok ()] ∧
        t.polled ++ t.client.inbox = [welcome, welcome] := by
  have hsend : Surroundings.calm.send ⟨.v4 10 0 0 9, 9⟩ = .ok () := rfl
  obtain ⟨_, hempty, _⟩ := client_courses hsend ""
  obtain ⟨hpanic, _⟩ := client_courses hsend "a\x00b"
  obtain ⟨_, _, _, hconnect⟩ := client_courses hsend "a"
  obtain ⟨c, hc, _, hrun⟩ := hconnect (by decide) (by decide) (by decide +kernel)
  obtain ⟨hsent, hanswers, hok, hwire, _, _, hmail, _⟩ := hrun visited
  have hchat : ((Call.chat "hi").told "a").fits = true := by decide +kernel
  have hbye : (Call.disconnect.told "a").fits = true := by decide +kernel
  have hmade : Act.calls visited = [.chat "hi", .chat tirade, .disconnect] := rfl
  have hsaid : Act.said "a" visited = [(Call.chat "hi").told "a", Call.disconnect.told "a"] := by
    simp [Act.said, hmade, hchat, hbye, not_fits_tirade]
  have hcalls : (Act.calls visited).map (Call.answer "a") =
      [.ok (), (Call.chat tirade).answer "a", .ok ()] := by
    simp [hmade, Call.answer, hchat, hbye]
  have hheard : Act.heard visited = [welcome, welcome] := by decide +kernel
  refine ⟨hempty rfl _, (hpanic _ _).mpr ⟨by decide, by decide⟩, c, _, hc, ?_, ?_,
    hanswers.trans hcalls, hmail.trans hheard⟩
  · rw [hsent, hanswers, countP_answers, hsaid]
    rfl
  · rw [hwire, hsaid]
    rfl

/-- The zero character in a name is no reason to refuse its registration, which a datagram can hold
and which could be sent, and yet there is no client and nothing is answered. -/
theorem zeroName_cannot_connect :
    let send := Surroundings.calm.send
    let server : Address := ⟨.v4 10 0 0 9, 9⟩
    (hello "a\x00b").Valid ∧ (hello "a\x00b").size ≤ 65507 ∧ send server = .ok () ∧
      connect send server "a\x00b" = .error (.panic ⟨"a\x00b-reader"⟩) := by
  intro send server
  exact ⟨valid_hello (by decide), by decide +kernel, rfl, connect_of_zero (by decide) send server⟩

end Visit

end ChatClient

end ChatRelay
