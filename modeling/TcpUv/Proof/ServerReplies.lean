import TcpUv.Proof.ServerRules
import TcpUv.Proof.NodeWire

/-!
# What the server replies

A message a connection delivers is answered on that connection, in order, and the answer
is a function of the message, the server's name and the connection's address
(`Reads.filterMap_serve`). Two results rest on it. The first is about the name: `start`
sets it after the loop thread runs, and an answer given before that has an empty field
(`responsesDecode_iff`). The second is about whole runs: what is written on a connection is
a function of the bytes received on it, whatever the others receive (`server_replies`).
-/

set_option autoImplicit false

namespace TcpUv

open Lib

/-- The answer of a server of this name to a message from this address. -/
def ServerApp.answer (name addr : Str) : Message → Option Message
  | .handshake myVersion _ _ =>
      if myVersion = textV01 then some (.handshakeResponse textV01 name addr) else none
  | .ping text => some (.pingResponse (textRespFrom ++ name ++ textTo ++ text))
  | _ => none

section

variable (uv : Uv) (c : ClientId) (name : Str)

theorem ServerApp.myPeerAddr_react (m : Message) (k : Client) :
    (react uv c name m k).myPeerAddr = k.myPeerAddr := by
  rcases react_cases uv c name m k with hi | ⟨m', hs⟩
  · exact hi.myPeerAddr
  · exact hs.myPeerAddr

/-- A reading of a history by its messages: the machinery leaves it alone, as does a message
    handed over, and a message sent on an open connection adds one entry. -/
structure Reads {β : Type} (f : Act → Option β) (g : Message → β) : Prop where
  idle : ∀ a : Act, a.isIdle = true → f a = none
  handed : ∀ m, f (.messageReceived m) = none
  send : ∀ (m : Message) (res : Int) (k : Client), k.IsOpen →
    (k.send m res).acts.filterMap f = k.acts.filterMap f ++ [g m]

theorem reads_sent : Reads Act.sentMessage id where
  idle a ha := by cases a <;> simp [Act.isIdle, Act.sentMessage] at ha ⊢
  handed _ := rfl
  send m res k _ := (Client.sends_send m res k).sent

theorem reads_written : Reads Act.writtenFrame frame where
  idle a ha := by cases a <;> simp [Act.isIdle, Act.writtenFrame] at ha ⊢
  handed _ := rfl
  send _ _ _ h := Client.written_send h

namespace Reads

variable {β : Type} {f : Act → Option β} {g : Message → β} (hf : Reads f g)

include hf

theorem filterMap_react (m : Message) {k : Client} (h : k.IsOpen) :
    (ServerApp.react uv c name m k).acts.filterMap f =
      k.acts.filterMap f ++ ((ServerApp.answer name k.myPeerAddr m).map g).toList := by
  have hnone : ∀ {k' : Client}, k.Idle k' → k'.acts.filterMap f = k.acts.filterMap f ++ [] :=
    fun hi => (hi.filterMap_acts hf.idle).trans (List.append_nil _).symm
  cases m with
  | handshake myVersion yourAddr myAddr =>
    unfold ServerApp.react ServerApp.answer
    dsimp only
    by_cases hv : myVersion = textV01
    · rw [if_neg (not_not.mpr hv), if_pos hv]
      exact hf.send _ _ k h
    · rw [if_pos hv, if_neg hv]
      exact hnone (.shut k)
  | ping text => exact hf.send _ _ k h
  | _ => exact hnone (.log rfl k)

/-- One answer a message, in the order of the messages. -/
theorem filterMap_digest (cs : List (Str × Option Message)) : ∀ k : Client,
    (k.digest (ServerApp.react uv c name) cs).acts.filterMap f = k.acts.filterMap f ++
      ((cs.filterMap Prod.snd).filterMap (ServerApp.answer name k.myPeerAddr)).map g := by
  induction cs with
  | nil => intro k; exact (List.append_nil _).symm
  | cons cut cs ih =>
    intro k
    obtain ⟨rest, om⟩ := cut
    cases om with
    | none => exact ih (k.setReceiveBuffer rest)
    | some m =>
      have hcons : ((rest, some m) :: cs).filterMap Prod.snd = m :: cs.filterMap Prod.snd :=
        List.filterMap_cons_some (f := Prod.snd) (a := (rest, some m)) rfl
      -- the app finds the connection in `Received`, whatever it was before
      have hopen : ((k.setReceiveBuffer rest).handOver m).IsOpen :=
        ⟨by simp [Client.handOver, Client.setState, Client.log],
          by simp [Client.handOver, Client.setState, Client.log]⟩
      have hover : ((k.setReceiveBuffer rest).handOver m).acts.filterMap f =
          k.acts.filterMap f := by
        simp [Client.handOver, Client.setState, Client.log, Client.setReceiveBuffer,
          hf.handed, hf.idle (.state .received) rfl]
      rw [hcons]
      apply (ih _).trans
      rw [hf.filterMap_react uv c name m hopen, ServerApp.myPeerAddr_react, hover,
        List.append_assoc]
      congr 1
      show ((ServerApp.answer name k.myPeerAddr m).map g).toList ++ _ = _
      cases hm : ServerApp.answer name k.myPeerAddr m with
      | none => rw [List.filterMap_cons_none hm]; rfl
      | some m' => rw [List.filterMap_cons_some hm]; rfl

theorem filterMap_serve (cb : Callback) (k : Client) :
    (k.serve uv c name cb).acts.filterMap f = k.acts.filterMap f ++
      ((cb.delivers k).filterMap (ServerApp.answer name k.myPeerAddr)).map g := by
  rcases k.serve_cases uv c name cb with ⟨nread, base, rfl, hpos, hserve⟩ | ⟨hno, hi⟩
  · rw [hserve, Callback.delivers_data _ hpos]
    exact hf.filterMap_digest uv c name _ _
  · rw [hi.filterMap_acts hf.idle, Callback.delivers_none hno]
    exact (List.append_nil _).symm

end Reads

/-- **What a callback sends**: the answers to what it delivers. -/
theorem Client.sent_serve (cb : Callback) (k : Client) : (k.serve uv c name cb).sent =
    k.sent ++ (cb.delivers k).filterMap (ServerApp.answer name k.myPeerAddr) :=
  (reads_sent.filterMap_serve uv c name cb k).trans (by rw [List.map_id]; rfl)

/-- **What a callback writes**: the frames of these answers. -/
theorem Client.written_serve (cb : Callback) (k : Client) : (k.serve uv c name cb).written =
    k.written ++ ((cb.delivers k).filterMap (ServerApp.answer name k.myPeerAddr)).map frame :=
  reads_written.filterMap_serve uv c name cb k

end

/-! ## Handshakes during start-up -/

/-- A handshake of the version the server speaks. -/
def Message.IsGreeting : Message → Prop
  | .handshake myVersion _ _ => myVersion = textV01
  | _ => False

/-- Every response to a handshake decodes as itself, all three fields. -/
def ResponsesDecode (w : World ServerApp) : Prop :=
  ∀ c v a y, .handshakeResponse v a y ∈ (w.clients c).sent →
    parseLine (serialize (.handshakeResponse v a y)) = .ok (some (.handshakeResponse v a y))

/-- No handshake of its version is delivered to the server while it has no name. -/
def NamedWhenGreeted (s : ServerRun) : ServerEvent → Prop
  | .client c cb => ∀ m ∈ cb.delivers (s.world.clients c), m.IsGreeting → s.world.app.myName ≠ []
  | _ => True

/-- A response decodes exactly if its fields are words. -/
theorem decodes_iff (v a y : Str) :
    parseLine (serialize (.handshakeResponse v a y)) = .ok (some (.handshakeResponse v a y)) ↔
      IsWord v ∧ IsWord a ∧ IsWord y := by
  have hfields : (Message.handshakeResponse v a y).WF ↔ IsWord v ∧ IsWord a ∧ IsWord y := by
    simp [Message.WF, Message.fields]
  exact ⟨fun h => hfields.mp (wf_of_parseLine h), fun h => parseLine_serialize (hfields.mpr h)⟩

/-- The texts of the server: its name, once it has one, and the addresses of its connections. -/
structure ServerWords (w : World ServerApp) : Prop where
  name : w.app.myName = [] ∨ IsWord w.app.myName
  addr : ∀ c < w.next, IsWord (w.clients c).myPeerAddr

section

variable {uv : Uv} {s : ServerRun}

theorem isWord_newcomer (hip : uv.IPv4) (c : ClientId) :
    IsWord ((ServerApp.newcomer uv c).readNow uv c).myPeerAddr := by
  rw [(ServerApp.idle_newcomer uv c).myPeerAddr]
  exact isWord_endpointText (remoteHost_ok uv (hip c 1)).1.2 _

theorem Client.sent_retire (held : Bool) (k : Client) : (k.retire held).sent = k.sent := by
  cases held <;>
    simp [Client.sent, Client.retire, Client.log, Client.setState, Act.sentMessage]

theorem Client.sent_destructor (k : Client) : (k.log .destructor).sent = k.sent := by
  simp [Client.sent, Client.log, Act.sentMessage]

theorem ServerApp.sent_newcomer (uv : Uv) (c : ClientId) :
    ((newcomer uv c).readNow uv c).sent = [] :=
  (idle_newcomer uv c).sent

/-- The texts stay words. -/
theorem ServerMove.words (hip : uv.IPv4) {w' : World ServerApp} {e : ServerEvent}
    (hm : ServerMove uv s w' e) (hname : e = .setName → IsWord w'.app.myName)
    (h : ServerWords s.world) : ServerWords w' := by
  cases hm with
  | aside _ hclients _ hnext hsame =>
    refine ⟨?_, ?_⟩
    · by_cases he : e = .setName
      · exact Or.inr (hname he)
      · rw [hsame he]
        exact h.name
    · rw [hclients, hnext]
      exact h.addr
  | accepted hclients _ hnext hsame =>
    refine ⟨hsame.symm ▸ h.name, fun d hd => ?_⟩
    rw [hnext] at hd
    rw [hclients]
    split
    · exact isWord_newcomer hip _
    · rename_i hne
      have hlt := Nat.lt_of_le_of_ne (Nat.lt_succ_iff.mp hd) hne
      split
      · exact h.addr d hlt
      · exact h.addr d hlt
  | @served c cb _ _ _ hclients happ hnext =>
    refine ⟨happ.symm ▸ h.name, fun d hd => ?_⟩
    rw [hnext] at hd
    rw [hclients]
    split
    · rename_i heq
      rw [Client.myPeerAddr_serve, ← heq]
      exact h.addr d hd
    · exact h.addr d hd
  | closed _ _ hclients _ hnext hsame =>
    refine ⟨hsame.symm ▸ h.name, fun d hd => ?_⟩
    rw [hnext] at hd
    rw [hclients]
    split
    · rename_i heq
      rw [Client.myPeerAddr_retire, ← heq]
      exact h.addr d hd
    · exact h.addr d hd

/-- **What one event sends**: the answers to what a callback delivers, on its connection. Apart
    from that a connection can only be created, and has then sent nothing. -/
theorem ServerMove.sent {w' : World ServerApp} {e : ServerEvent} (hm : ServerMove uv s w' e) :
    ((∀ c cb, e ≠ .client c cb) ∧
      ∀ c, (w'.clients c).sent = (s.world.clients c).sent ∨ (w'.clients c).sent = []) ∨
    ∃ c cb, e = .client c cb ∧ c < s.world.next ∧
      (w'.clients c).sent = (s.world.clients c).sent ++ (cb.delivers (s.world.clients c)).filterMap
        (ServerApp.answer s.world.app.myName (s.world.clients c).myPeerAddr) ∧
      ∀ d ≠ c, (w'.clients d).sent = (s.world.clients d).sent := by
  cases hm with
  | aside hevent hclients => exact Or.inl ⟨hevent, fun c => Or.inl (by rw [hclients])⟩
  | accepted hclients =>
    refine Or.inl ⟨fun _ _ he => (by cases he), fun c => ?_⟩
    rw [hclients]
    split
    · exact Or.inr (ServerApp.sent_newcomer uv _)
    · split
      · exact Or.inl (Client.sent_destructor _)
      · exact Or.inl rfl
  | @served c cb _ hc _ hclients =>
    refine Or.inr ⟨c, cb, rfl, hc, ?_, fun d hd => ?_⟩
    · rw [hclients, if_pos rfl, Client.sent_serve]
    · rw [hclients, if_neg hd]
  | @closed c hc _ hclients =>
    refine Or.inr ⟨c, .closed, rfl, hc, ?_, fun d hd => ?_⟩
    · rw [hclients, if_pos rfl, Client.sent_retire]
      exact (List.append_nil _).symm
    · rw [hclients, if_neg hd]

/-- **One event**: the responses it sends decode exactly if it finds the server named. -/
theorem responsesDecode_step (h : ServerSane s.world) (hwords : ServerWords s.world)
    (hdec : ResponsesDecode s.world) {e : ServerEvent} (ha : (serverSystem uv).allowed s e) :
    ResponsesDecode ((serverSystem uv).step s e).world ↔ NamedWhenGreeted s e := by
  have hm := serverStep_move h ha
  change ServerMove uv s ((serverSystem uv).step s e).world e at hm
  generalize ((serverSystem uv).step s e).world = w' at hm
  rcases hm.sent with ⟨hevent, hsent⟩ | ⟨c, cb, rfl, hc, hself, hothers⟩
  · refine iff_of_true (fun c v a y hmem => ?_) ?_
    · rcases hsent c with hsame | hnone
      · exact hdec c v a y (hsame ▸ hmem)
      · rw [hnone] at hmem
        cases hmem
    · cases e with
      | client c cb => exact absurd rfl (hevent c cb)
      | _ => trivial
  · constructor
    · intro hdec' m hm hgreets hnone
      cases m with
      | handshake v y a =>
        have hanswer : Message.handshakeResponse textV01 [] (s.world.clients c).myPeerAddr ∈
            (w'.clients c).sent := by
          rw [hself]
          refine List.mem_append_right _ (List.mem_filterMap.mpr ⟨_, hm, ?_⟩)
          have hv : v = textV01 := hgreets
          rw [ServerApp.answer, if_pos hv, hnone]
        have hwords' := (decodes_iff _ _ _).mp (hdec' c _ _ _ hanswer)
        exact hwords'.2.1.1 rfl
      | _ => exact hgreets
    · intro hnamed d v a y hmem
      by_cases hd : d = c
      · rw [hd, hself] at hmem
        rcases List.mem_append.mp hmem with hold | hnew
        · exact hdec c v a y hold
        · obtain ⟨m, hm, hanswer⟩ := List.mem_filterMap.mp hnew
          cases m with
          | handshake v' y' a' =>
            rw [ServerApp.answer] at hanswer
            split at hanswer
            · rename_i hv
              obtain ⟨rfl, rfl, rfl⟩ := Message.handshakeResponse.inj (Option.some.inj hanswer)
              have hname := hwords.name.resolve_left (hnamed _ hm hv)
              exact (decodes_iff _ _ _).mpr ⟨by decide, hname, hwords.addr c hc⟩
            · cases hanswer
          | _ => cases hanswer
      · rw [hothers d hd] at hmem
        exact hdec d v a y hmem

/-- Setting the name is the one event that changes it. -/
theorem serverWords_step (hip : uv.IPv4) (h : ServerSane s.world) (hwords : ServerWords s.world)
    {e : ServerEvent} (ha : (serverSystem uv).allowed s e) :
    ServerWords ((serverSystem uv).step s e).world := by
  refine (serverStep_move h ha).words hip ?_ hwords
  rintro rfl
  obtain ⟨-, port, hport⟩ := ha
  unfold serverStep
  rw [hport]
  exact isWord_listenName port

theorem responsesDecode_along (hip : uv.IPv4) : ∀ {es : List ServerEvent} {s : ServerRun},
    ServerSane s.world → ServerWords s.world → ResponsesDecode s.world →
    (serverSystem uv).Valid s es →
    ((serverSystem uv).Along (fun s e => ResponsesDecode ((serverSystem uv).step s e).world) s es ↔
      (serverSystem uv).Along NamedWhenGreeted s es) := by
  intro es
  induction es with
  | nil => intro s _ _ _ _; exact Iff.rfl
  | cons e es ih =>
    intro s h hwords hdec hv
    have hstep := responsesDecode_step h hwords hdec hv.1
    have hnext := fun hdec' => ih (serverSane_step s e h hv.1) (serverWords_step hip h hwords hv.1)
      hdec' hv.2
    constructor
    · rintro ⟨hdec', hrest⟩
      exact ⟨hstep.mp hdec', (hnext hdec').mp hrest⟩
    · rintro ⟨hnamed, hrest⟩
      exact ⟨hstep.mpr hnamed, (hnext (hstep.mpr hnamed)).mpr hrest⟩

end

/-- **Handshakes during start-up**, over IPv4: every response decodes, after every event of a
    run, exactly if no handshake is delivered before the server has its name. -/
theorem responsesDecode_iff {uv : Uv} (hip : uv.IPv4) {es : List ServerEvent}
    (hv : (serverSystem uv).Valid ServerRun.init es) :
    (serverSystem uv).Along (fun s e => ResponsesDecode ((serverSystem uv).step s e).world)
        ServerRun.init es ↔
      (serverSystem uv).Along NamedWhenGreeted ServerRun.init es :=
  responsesDecode_along hip serverSane_init
    ⟨Or.inl rfl, fun _ hc => absurd hc (Nat.not_lt_zero _)⟩ (fun _ _ _ _ hm => by cases hm) hv

/-- A connection that greets a server which has returned from `start`. -/
theorem responsesDecode_named :
    (serverSystem Uv.cooperative).Along
      (fun s e => ResponsesDecode ((serverSystem Uv.cooperative).step s e).world) ServerRun.init
      [.listen { listenPort := 5000, listenPortRange := 1 }, .startUvLoop, .setName,
        .newConnection 0 0, .client 0 (.read 15 (some "HANDSH V01 a b\n".toList))] := by
  refine (responsesDecode_iff (fun _ _ => rfl) ?_).mpr ?_
  · decide
  · exact ⟨trivial, trivial, trivial, trivial, (fun _ _ _ => by decide), trivial⟩

/-- The loop thread answers before `start` has set the name. -/
theorem response_unparseable :
    (serverSystem Uv.cooperative).Valid ServerRun.init
      [.listen { listenPort := 5000, listenPortRange := 1 }, .startUvLoop, .newConnection 0 0,
        .client 0 (.read 15 (some "HANDSH V01 a b\n".toList)), .setName] ∧
    ¬ ResponsesDecode ((serverSystem Uv.cooperative).run ServerRun.init
      [.listen { listenPort := 5000, listenPortRange := 1 }, .startUvLoop, .newConnection 0 0,
        .client 0 (.read 15 (some "HANDSH V01 a b\n".toList)), .setName]).world := by
  refine ⟨by decide, fun h => ?_⟩
  have hsent := h 0 textV01 [] "127.0.0.1:35091".toList (by decide)
  exact absurd hsent (by decide)

/-! ## The replies on a connection -/

/-- The bytes a callback brings. -/
def Callback.bytes : Callback → Str
  | .read nread (some base) => if 0 < nread then base.take nread.toNat else []
  | _ => []

theorem Callback.bytes_data {nread : Int} {base : Str} (h : 0 < nread) :
    Callback.bytes (.read nread (some base)) = base.take nread.toNat := if_pos h

theorem Callback.bytes_none {cb : Callback}
    (h : ∀ nread base, cb = .read nread (some base) → ¬ 0 < nread) : cb.bytes = [] := by
  cases cb with
  | read nread buf =>
    cases buf with
    | none => rfl
    | some base => exact if_neg (h nread base rfl)
  | _ => rfl

/-- The bytes an event brings to a connection. -/
def ServerEvent.bytes (c : ClientId) : ServerEvent → Str
  | .client d cb => if d = c then cb.bytes else []
  | _ => []

/-- Everything a connection has received in a run. -/
def received (c : ClientId) (es : List ServerEvent) : Str := es.flatMap (ServerEvent.bytes c)

/-- What is assumed of a run and one of its connections. Nothing is assumed of the others, not
    even that their addresses differ: what the store holds plays no part. -/
structure ServedRun (uv : Uv) (c : ClientId) (es : List ServerEvent) : Prop where
  valid : (serverSystem uv).Valid ServerRun.init es
  writes : ∀ k, uv.write c k = 0
  named : (serverSystem uv).Along (fun s e => ∀ nread buf, e = .client c (.read nread buf) →
    s.world.app.myName ≠ []) ServerRun.init es
  speaks : ∀ m ∈ requests (received c es), m.IsRequest

/-- What was written on the connection is one answer for each request, in order, all of it on the
    connection's own socket. -/
def Answered (w : World ServerApp) (c : ClientId) (bytes : Str) : Prop :=
  (w.clients c).written.map some = (requests bytes).map (fun m =>
    (ServerApp.answer w.app.myName (w.clients c).myPeerAddr m).map frame) ∧
  ∀ stream fr, .uvWrite stream fr ∈ (w.clients c).acts → stream = some 1

/-! ### The socket of a connection -/

/-- An accepted connection holds its first handle until it closes it. -/
def Client.Bound (k : Client) : Prop := k.tcp.closing = false → k.myUvStream = some 1

/-- All that was written went to the first handle. -/
def Client.WritesOwn (k : Client) : Prop :=
  ∀ stream fr, .uvWrite stream fr ∈ k.acts → stream = some 1

namespace Client

variable {k : Client}

theorem Bound.shut (h : k.Bound) : k.shut.Bound := by
  unfold Client.shut
  cases hs : k.myUvStream with
  | none =>
    intro hopen
    have hsome := h hopen
    rw [hs] at hsome
    cases hsome
  | some hd => exact fun hopen => by cases hopen

theorem Bound.assert (site : Assertion) (b : Bool) (h : k.Bound) : (k.assert site b).Bound := by
  unfold Client.assert
  split
  · exact h
  · exact h

theorem Bound.read (res : Int) (h : k.Bound) : (k.read res).Bound := by
  have hstarted : ((k.assert .doRead (k.myState = .accepted || k.myState = .sent ||
      k.myState = .sending || k.myState = .receiving)).setState .receiving
        |>.uvReadStart res).Bound := by
    intro hopen
    rw [closing_uvReadStart] at hopen
    exact (h.assert _ _) hopen
  unfold Client.read
  dsimp only
  split
  · exact hstarted.shut
  · exact hstarted

theorem WritesOwn.idle {k' : Client} (hi : k.Idle k') (h : k.WritesOwn) : k'.WritesOwn :=
  fun stream fr hm => h stream fr ((hi.mem_acts rfl).mp hm)

/-- A write that libuv takes. -/
theorem own_send (m : Message) (hopen : k.IsOpen) (hs : k.myUvStream = some 1)
    (h : k.WritesOwn) :
    (k.send m 0).myUvStream = some 1 ∧ (k.send m 0).WritesOwn := by
  refine ⟨(send_agreed m hopen (by rw [hs]; rfl)).2.1.trans hs, fun stream fr hm => ?_⟩
  unfold send at hm
  rw [if_neg (not_or.mpr hopen), if_neg (by simp)] at hm
  simp only [uvWrite, setState, log, List.mem_append, List.mem_singleton, reduceCtorEq,
    or_false, Act.uvWrite.injEq] at hm
  rcases hm with hm | hm
  · exact h stream fr hm
  · exact hm.1.trans hs

variable {uv : Uv} {c : ClientId} {name : Str}

/-- The receive loop writes on the socket it reads from. -/
theorem own_digest (hwrite : ∀ k, uv.write c k = 0) (cs : List (Str × Option Message))
    (hspeaks : ∀ m ∈ cs.filterMap Prod.snd, m.IsRequest)
    (hs : k.myUvStream = some 1) (h : k.WritesOwn) :
    (k.digest (ServerApp.react uv c name) cs).myUvStream = some 1 ∧
      (k.digest (ServerApp.react uv c name) cs).WritesOwn := by
  refine digest_preserves (J := fun k => k.myUvStream = some 1 ∧ k.WritesOwn) (fun _ h => h) cs
    (fun {k} m hm h => ?_) ⟨hs, h⟩
  have hopen : (k.handOver m).IsOpen :=
    ⟨by simp [handOver, setState, log], by simp [handOver, setState, log]⟩
  have hown : (k.handOver m).WritesOwn := by
    intro stream fr hm'
    simp only [handOver, setState, log, List.mem_append, List.mem_singleton, reduceCtorEq,
      or_false] at hm'
    exact h.2 stream fr hm'
  have hnow : ∀ m' : Message, (sendNow uv c m' (k.handOver m)).myUvStream = some 1 ∧
      (sendNow uv c m' (k.handOver m)).WritesOwn := by
    intro m'
    unfold sendNow writeAnswer
    rw [hwrite]
    exact own_send m' hopen h.1 hown
  have hrequest := hspeaks m hm
  cases m with
  | handshake v y a =>
    have hv : v = textV01 := hrequest
    unfold ServerApp.react
    dsimp only
    rw [if_neg (not_not.mpr hv)]
    exact hnow _
  | ping text => exact hnow _
  | _ => exact absurd hrequest id

/-- **A callback and the socket**: it stays the connection's own, and so does what is written. -/
theorem own_serve (hwrite : ∀ k, uv.write c k = 0) {cb : Callback}
    (hspeaks : ∀ m ∈ cb.delivers k, m.IsRequest)
    (ha : cb.allowed k) (hb : k.Bound) (h : k.WritesOwn) :
    (k.serve uv c name cb).Bound ∧ (k.serve uv c name cb).WritesOwn := by
  cases cb with
  | connected status => exact ⟨hb, h⟩
  | read nread buf =>
    unfold serve
    dsimp only
    by_cases hpos : nread ≤ 0
    · rw [if_pos hpos]
      exact ⟨hb.shut, h.idle (.shut k)⟩
    · rw [if_neg hpos]
      cases buf with
      | none => exact ⟨hb, h⟩
      | some base =>
        rw [Callback.delivers_data _ (Int.not_le.mp hpos)] at hspeaks
        have hread : (k.readIn (ServerApp.react uv c name) nread base).myUvStream = some 1 ∧
            (k.readIn (ServerApp.react uv c name) nread base).WritesOwn :=
          own_digest hwrite _ hspeaks (hb ha.2.1) h
        exact ⟨fun _ => hread.1, hread.2⟩
  | wrote status =>
    have hassert : ({ k with tcp :=
        { k.tcp with writes := k.tcp.writes - 1 } } : Client).assertWrite.Bound :=
      Bound.assert _ _ hb
    have hidle := (Idle.bookkeeping (k := k)
      (t := { k.tcp with writes := k.tcp.writes - 1 }) rfl).trans (.assertWrite _)
    unfold serve
    dsimp only
    split
    · exact ⟨hassert.shut, h.idle (hidle.trans (.shut _))⟩
    · exact ⟨hassert, h.idle hidle⟩
  | closed => exact ⟨hb, h⟩
  | timer => exact ⟨hb, h⟩

/-! ### The buffer -/

theorem delivers_segments {cb : Callback} (hbuffer : '\n' ∉ k.myReceiveBuffer)
    (hclean : CleanLines (k.myReceiveBuffer ++ cb.bytes)) :
    cb.delivers k = requests (k.myReceiveBuffer ++ cb.bytes) := by
  by_cases hdata : ∃ nread base, cb = .read nread (some base) ∧ 0 < nread
  · obtain ⟨nread, base, rfl, hpos⟩ := hdata
    rw [Callback.bytes_data hpos] at hclean ⊢
    rw [Callback.delivers_data _ hpos]
    exact deliveries_segments hclean
  · have hno : ∀ nread base, cb = .read nread (some base) → ¬ 0 < nread :=
      fun nread base he hpos => hdata ⟨nread, base, he, hpos⟩
    rw [Callback.bytes_none hno, Callback.delivers_none hno, List.append_nil, requests, lines,
      segments_of_not_mem hbuffer]
    rfl

theorem buffer_serve {cb : Callback} (hbuffer : '\n' ∉ k.myReceiveBuffer)
    (hclean : CleanLines (k.myReceiveBuffer ++ cb.bytes)) :
    (k.serve uv c name cb).myReceiveBuffer =
      (segments '\n' (k.myReceiveBuffer ++ cb.bytes)).2 := by
  rcases k.serve_cases uv c name cb with ⟨nread, base, rfl, hpos, hserve⟩ | ⟨hno, hi⟩
  · rw [Callback.bytes_data hpos] at hclean ⊢
    rw [hserve]
    exact ((ServerApp.reaction_react uv c name).buffer_digest _ _).trans
      (cuts_segments _ (Nat.le_refl _) hclean).2.2
  · rw [hi.myReceiveBuffer, Callback.bytes_none hno, List.append_nil, segments_of_not_mem hbuffer]

end Client

/-! ### The run -/

/-- A stream on which the connection says what the server expects. -/
def Spoken (bytes : Str) : Prop :=
  CleanLines bytes ∧ ∀ m ∈ requests bytes, m.IsRequest

theorem lines_append (b b' : Str) :
    lines (b ++ b') = lines b ++ lines ((segments '\n' b).2 ++ b') := by
  unfold lines
  rw [segments_append]

theorem requests_append (b b' : Str) :
    requests (b ++ b') = requests b ++ requests ((segments '\n' b).2 ++ b') := by
  unfold requests
  rw [lines_append, List.filterMap_append]

/-- Before the second arrival, and what the second arrival completes. -/
theorem Spoken.split {b b' : Str} (h : Spoken (b ++ b')) :
    Spoken b ∧ Spoken ((segments '\n' b).2 ++ b') := by
  obtain ⟨hclean, hspeaks⟩ := h
  unfold CleanLines at hclean
  rw [lines_append] at hclean
  rw [requests_append] at hspeaks
  exact ⟨⟨fun l hl => hclean l (List.mem_append_left _ hl),
      fun m hm => hspeaks m (List.mem_append_left _ hm)⟩,
    ⟨fun l hl => hclean l (List.mem_append_right _ hl),
      fun m hm => hspeaks m (List.mem_append_right _ hm)⟩⟩

theorem received_snoc (c : ClientId) (es : List ServerEvent) (e : ServerEvent) :
    received c (es ++ [e]) = received c es ++ e.bytes c := by
  simp [received]

/-- A connection and the bytes it has received so far. -/
structure Replied (s : ServerRun) (c : ClientId) (bytes : Str) : Prop where
  buffer : (s.world.clients c).myReceiveBuffer = (segments '\n' bytes).2
  written : (s.world.clients c).written = ((requests bytes).filterMap
    (ServerApp.answer s.world.app.myName (s.world.clients c).myPeerAddr)).map frame
  own : (s.world.clients c).WritesOwn
  bound : c < s.world.next → (s.world.clients c).Bound
  unborn : s.world.next ≤ c → bytes = []
  silent : s.world.app.myName = [] → bytes = []

/-- The name is set once, and last. -/
def NamedLast (s : ServerRun) : Prop := s.startUp ≠ .returned → s.world.app.myName = []

section

variable {uv : Uv} {s : ServerRun} {c : ClientId}

theorem namedLast_step (h : ServerSane s.world) (hname : NamedLast s) {e : ServerEvent}
    (ha : (serverSystem uv).allowed s e) : NamedLast ((serverSystem uv).step s e) := by
  cases e with
  | listen params =>
    obtain ⟨-, hstart⟩ := ha
    intro _
    have happ := (doListenFrom_server uv (max (min params.listenPortRange.toInt 10) 1).toNat
      params.listenPort s.world).2.1
    exact (congrArg ServerApp.myName happ).trans (hname (by rw [hstart]; simp))
  | startUvLoop =>
    obtain ⟨-, port, hport⟩ := ha
    have hstep : (serverSystem uv).step s .startUvLoop =
        ⟨startUvLoop s.world, .looping port⟩ := by
      show serverStep uv s .startUvLoop = _
      unfold serverStep
      rw [hport]
    rw [hstep]
    exact fun _ => hname (by rw [hport]; simp)
  | setName =>
    obtain ⟨-, port, hport⟩ := ha
    have hstep : (serverSystem uv).step s .setName =
        ⟨ServerApp.setName port s.world, .returned⟩ := by
      show serverStep uv s .setName = _
      unfold serverStep
      rw [hport]
    rw [hstep]
    exact fun hne => absurd rfl hne
  | newConnection status acceptRes =>
    intro hne
    have hm := serverStep_move h ha
    cases hm with
    | aside _ _ _ _ hsame => exact (hsame (by simp)).trans (hname hne)
    | accepted _ _ _ hsame => exact hsame.trans (hname hne)
  | client c cb =>
    intro hne
    have hm := serverStep_move h ha
    cases hm with
    | aside hevent => exact absurd rfl (hevent c cb)
    | served _ _ _ _ happ => exact (congrArg ServerApp.myName happ).trans (hname hne)
    | closed _ _ _ _ _ hsame => exact hsame.trans (hname hne)

/-- The server still has no name where it is given one. -/
theorem unnamed_setName (hname : NamedLast s) (ha : (serverSystem uv).allowed s .setName) :
    s.world.app.myName = [] := by
  obtain ⟨-, port, hport⟩ := ha
  exact hname (by rw [hport]; simp)

theorem bound_newcomer (uv : Uv) (c : ClientId) : ((ServerApp.newcomer uv c).readNow uv c).Bound :=
  Client.Bound.read _ fun _ => rfl

/-- Nothing about the stream in either direction: what a destruction or the end of a close is. -/
structure Client.Mute (k k' : Client) : Prop where
  buffer : k'.myReceiveBuffer = k.myReceiveBuffer
  addr : k'.myPeerAddr = k.myPeerAddr
  stream : k'.myUvStream = k.myUvStream
  closing : k'.tcp.closing = k.tcp.closing
  acts : ∃ l, k'.acts = k.acts ++ l ∧ ∀ a ∈ l, a.writtenFrame = none

theorem Client.Mute.refl (k : Client) : k.Mute k :=
  ⟨rfl, rfl, rfl, rfl, [], (List.append_nil _).symm, by simp⟩

theorem Client.mute_destructor (k : Client) : k.Mute (k.log .destructor) :=
  ⟨rfl, rfl, rfl, rfl, [.destructor], rfl, by simp [Act.writtenFrame]⟩

theorem Client.mute_retire (held : Bool) (k : Client) : k.Mute (k.retire held) := by
  cases held with
  | true =>
    refine ⟨rfl, rfl, rfl, rfl,
      [.connectionClosed, .destructor, .deleteHandle, .state .closed], ?_, ?_⟩
    · simp [Client.retire, Client.log, Client.setState]
    · simp [Act.writtenFrame]
  | false =>
    refine ⟨rfl, rfl, rfl, rfl, [.connectionClosed, .deleteHandle, .state .closed], ?_, ?_⟩
    · simp [Client.retire, Client.log, Client.setState]
    · simp [Act.writtenFrame]

/-- An event that brings the connection nothing. -/
theorem Replied.mute {s' : ServerRun} {bytes : Str} (h : Replied s c bytes)
    (hq : (s.world.clients c).Mute (s'.world.clients c)) (hnext : s.world.next ≤ s'.world.next)
    (hc : c < s'.world.next → c < s.world.next)
    (hname : bytes = [] ∨ s'.world.app.myName = s.world.app.myName) : Replied s' c bytes := by
  obtain ⟨l, hl, hnone⟩ := hq.acts
  refine ⟨hq.buffer.trans h.buffer, ?_, fun stream fr hm => ?_, fun hlt hopen => ?_,
    fun hle => h.unborn (Nat.le_trans hnext hle), fun hempty => ?_⟩
  · have hwritten : (s'.world.clients c).written = (s.world.clients c).written := by
      unfold Client.written
      rw [hl, List.filterMap_append, List.filterMap_eq_nil_iff.mpr hnone, List.append_nil]
    rw [hwritten, hq.addr, h.written]
    rcases hname with rfl | hname
    · rfl
    · rw [hname]
  · rw [hl] at hm
    rcases List.mem_append.mp hm with hm | hm
    · exact h.own stream fr hm
    · cases hnone _ hm
  · exact hq.stream.trans (h.bound (hc hlt) (hq.closing.symm.trans hopen))
  · rcases hname with hbytes | hname
    · exact hbytes
    · exact h.silent (hname.symm.trans hempty)

/-- The same, of an event that creates no connection. -/
theorem Replied.rest {s' : ServerRun} {bytes : Str} (h : Replied s c bytes)
    (hq : (s.world.clients c).Mute (s'.world.clients c)) (hnext : s'.world.next = s.world.next)
    (hname : bytes = [] ∨ s'.world.app.myName = s.world.app.myName) : Replied s' c bytes :=
  h.mute hq (Nat.le_of_eq hnext.symm) (fun hlt => hnext ▸ hlt) hname

/-- The event that creates it. -/
theorem replied_newcomer {s' : ServerRun}
    (hclient : s'.world.clients c = (ServerApp.newcomer uv c).readNow uv c) :
    Replied s' c [] := by
  have hidle := ServerApp.idle_newcomer uv c
  refine ⟨?_, ?_, ?_, fun _ => ?_, fun _ => rfl, fun _ => rfl⟩
  · rw [hclient, hidle.myReceiveBuffer]
    rfl
  · rw [hclient, hidle.written]
    rfl
  · rw [hclient]
    apply Client.WritesOwn.idle hidle
    intro stream fr hm
    simp [ServerApp.newcomer, NetClientIn.new, Client.setUvStream, Client.setState] at hm
  · rw [hclient]
    exact bound_newcomer uv c

/-- One of its own callbacks. -/
theorem Replied.served {s' : ServerRun} {bytes : Str} (hwrite : ∀ k, uv.write c k = 0)
    {cb : Callback} (hcb : cb.allowed (s.world.clients c)) (hc : c < s.world.next)
    (hnamed : ∀ nread buf, cb = .read nread buf → s.world.app.myName ≠ [])
    (hspoken : Spoken (bytes ++ cb.bytes))
    (hclient : s'.world.clients c = (s.world.clients c).serve uv c s.world.app.myName cb)
    (happ : s'.world.app = s.world.app) (hnext : s'.world.next = s.world.next)
    (h : Replied s c bytes) : Replied s' c (bytes ++ cb.bytes) := by
  obtain ⟨-, hclean, hspeaks⟩ := hspoken.split
  have hresidue := residue_not_mem '\n' bytes
  rw [← h.buffer] at hclean hspeaks hresidue
  have hdel : cb.delivers (s.world.clients c) = _ := Client.delivers_segments hresidue hclean
  have hkept : ((s.world.clients c).serve uv c s.world.app.myName cb).Bound ∧
      ((s.world.clients c).serve uv c s.world.app.myName cb).WritesOwn :=
    Client.own_serve hwrite (by rw [hdel]; exact hspeaks) hcb (h.bound hc) h.own
  refine ⟨?_, ?_, ?_, fun _ => ?_, fun hle => ?_, fun hempty => ?_⟩
  · rw [hclient, Client.buffer_serve hresidue hclean, h.buffer, segments_append '\n' bytes]
  · rw [hclient, Client.myPeerAddr_serve, happ, Client.written_serve, hdel, h.written, h.buffer,
      requests_append bytes, List.filterMap_append, List.map_append]
  · rw [hclient]
    exact hkept.2
  · rw [hclient]
    exact hkept.1
  · rw [hnext] at hle
    exact absurd hc (Nat.not_lt.mpr hle)
  · rw [happ] at hempty
    rw [h.silent hempty]
    cases cb with
    | read nread buf => exact absurd hempty (hnamed nread buf rfl)
    | _ => rfl

/-- An event that is not a read of the connection brings it nothing. -/
theorem ServerEvent.bytes_elsewhere {e : ServerEvent} (he : ∀ cb, e ≠ .client c cb) :
    e.bytes c = [] := by
  cases e with
  | client d cb => exact if_neg fun hd => he cb (by rw [hd])
  | _ => rfl

/-- **One event**, on the connection or elsewhere. -/
theorem replied_step (hwrite : ∀ k, uv.write c k = 0) (h : ServerSane s.world)
    (hlast : NamedLast s) {e : ServerEvent} (ha : (serverSystem uv).allowed s e)
    (hnamed : ∀ nread buf, e = .client c (.read nread buf) → s.world.app.myName ≠ [])
    {bytes : Str} (hspoken : Spoken (bytes ++ e.bytes c)) (hr : Replied s c bytes) :
    Replied ((serverSystem uv).step s e) c (bytes ++ e.bytes c) := by
  have hm := serverStep_move h ha
  change ServerMove uv s ((serverSystem uv).step s e).world e at hm
  generalize (serverSystem uv).step s e = s' at hm
  cases hm with
  | @aside e hevent hclients _ hnext hsame =>
    rw [ServerEvent.bytes_elsewhere fun cb => hevent c cb, List.append_nil]
    refine hr.rest ?_ hnext ?_
    · rw [hclients]
      exact .refl _
    · by_cases he : e = .setName
      · subst he
        exact Or.inl (hr.silent (unnamed_setName hlast ha))
      · exact Or.inr (hsame he)
  | accepted hclients _ hnext hsame =>
    have hnone : ∀ status acceptRes, (ServerEvent.newConnection status acceptRes).bytes c = [] :=
      fun _ _ => rfl
    have hclient := hclients c
    rw [hnone, List.append_nil]
    by_cases hc : c = s.world.next
    · rw [hr.unborn (Nat.le_of_eq hc.symm)]
      rw [if_pos hc, ← hc] at hclient
      exact replied_newcomer hclient
    · rw [if_neg hc] at hclient
      apply hr.mute
      · rw [hclient]
        split
        · exact Client.mute_destructor _
        · exact .refl _
      · rw [hnext]
        exact Nat.le_succ _
      · intro hlt
        rw [hnext] at hlt
        exact Nat.lt_of_le_of_ne (Nat.lt_succ_iff.mp hlt) hc
      · exact Or.inr hsame
  | @served d cb _ hd hcb hclients happ hnext =>
    have hclient := hclients c
    by_cases hc : d = c
    · subst hc
      have hbytes : (ServerEvent.client d cb).bytes d = cb.bytes := if_pos rfl
      rw [if_pos rfl] at hclient
      rw [hbytes] at hspoken ⊢
      exact hr.served hwrite hcb hd (fun nread buf he => hnamed nread buf (by rw [he])) hspoken
        hclient happ hnext
    · rw [ServerEvent.bytes_elsewhere fun cb' he => hc (ServerEvent.client.inj he).1,
        List.append_nil]
      rw [if_neg (Ne.symm hc)] at hclient
      refine hr.rest ?_ hnext (Or.inr (congrArg ServerApp.myName happ))
      rw [hclient]
      exact .refl _
  | @closed d hd _ hclients _ hnext hsame =>
    have hnone : (ServerEvent.client d .closed).bytes c = [] := by
      rw [ServerEvent.bytes]
      split <;> rfl
    have hclient := hclients c
    rw [hnone, List.append_nil]
    refine hr.rest ?_ hnext (Or.inr hsame)
    rw [hclient]
    split
    · rename_i hc
      rw [hc]
      exact Client.mute_retire _ _
    · exact .refl _

/-- **Every state**: what the connection was written is what it received, answered. -/
theorem replied_run (hwrite : ∀ k, uv.write c k = 0) {es : List ServerEvent}
    (hv : (serverSystem uv).Valid ServerRun.init es)
    (hnamed : (serverSystem uv).Along (fun s e => ∀ nread buf, e = .client c (.read nread buf) →
      s.world.app.myName ≠ []) ServerRun.init es) (hspoken : Spoken (received c es)) :
    Replied ((serverSystem uv).run ServerRun.init es) c (received c es) := by
  -- the invariant speaks of a stream, so its premise does too
  suffices hrun : ServerSane ((serverSystem uv).run ServerRun.init es).world ∧
      NamedLast ((serverSystem uv).run ServerRun.init es) ∧ (Spoken (received c es) →
        Replied ((serverSystem uv).run ServerRun.init es) c (received c es)) from hrun.2.2 hspoken
  refine System.run_invariant_recorded (I := fun es s => ServerSane s.world ∧ NamedLast s ∧
      (Spoken (received c es) → Replied s c (received c es)))
    (fun es e h ha hn => ?_) ⟨serverSane_init, fun _ => rfl, fun _ => ?_⟩ hv hnamed
  · obtain ⟨hsane, hlast, hreplied⟩ := h
    refine ⟨serverSane_step _ e hsane ha, namedLast_step hsane hlast ha, fun hspoken => ?_⟩
    rw [received_snoc] at hspoken ⊢
    exact replied_step hwrite hsane hlast ha hn hspoken (hreplied hspoken.split.1)
  · refine ⟨rfl, rfl, fun _ _ hm => ?_, fun hlt => ?_, fun _ => rfl, fun _ => rfl⟩
    · cases hm
    · exact absurd hlt (Nat.not_lt_zero _)

end

/-- An answer to everything the server is told. -/
theorem ServerApp.answer_isSome {name addr : Str} {m : Message}
    (h : m.IsRequest) : (answer name addr m).isSome = true := by
  cases m with
  | handshake v y a =>
    have hv : v = textV01 := h
    rw [answer, if_pos hv]
    rfl
  | ping text => rfl
  | _ => exact absurd h id

theorem map_some_filterMap {α β : Type} {f : α → Option β} {l : List α}
    (h : ∀ a ∈ l, (f a).isSome = true) : (l.filterMap f).map some = l.map f := by
  induction l with
  | nil => rfl
  | cons a l ih =>
    obtain ⟨b, hb⟩ := Option.isSome_iff_exists.mp (h a (by simp))
    rw [List.filterMap_cons_some hb, List.map_cons, List.map_cons, hb,
      ih fun a' ha' => h a' (List.mem_cons_of_mem a ha')]

theorem Replied.answered {s : ServerRun} {c : ClientId} {bytes : Str} (h : Replied s c bytes)
    (hspeaks : ∀ m ∈ requests bytes, m.IsRequest) :
    Answered s.world c bytes := by
  refine ⟨?_, h.own⟩
  rw [h.written, List.map_filterMap]
  apply map_some_filterMap
  intro m hm
  rw [Option.isSome_map]
  exact ServerApp.answer_isSome (hspeaks m hm)

/-- **Each connection is answered exactly and in isolation**, whatever the others receive and
    however the events are interleaved: what is written on it is one answer for each of its
    requests, in order, and any other run in which a connection of that address receives the
    same bytes from a server of that name writes the same. -/
theorem server_replies {uv : Uv} {c : ClientId} {es : List ServerEvent} (h : ServedRun uv c es)
    (hclean : CleanLines (received c es)) :
    Answered ((serverSystem uv).run ServerRun.init es).world c (received c es) ∧
    ∀ (uv' : Uv) (c' : ClientId) (es' : List ServerEvent), ServedRun uv' c' es' →
      received c' es' = received c es →
      ((serverSystem uv').run ServerRun.init es').world.app.myName =
        ((serverSystem uv).run ServerRun.init es).world.app.myName →
      (((serverSystem uv').run ServerRun.init es').world.clients c').myPeerAddr =
        (((serverSystem uv).run ServerRun.init es).world.clients c).myPeerAddr →
      (((serverSystem uv').run ServerRun.init es').world.clients c').written =
        (((serverSystem uv).run ServerRun.init es).world.clients c).written := by
  have hreplied := replied_run h.writes h.valid h.named ⟨hclean, h.speaks⟩
  refine ⟨hreplied.answered h.speaks, fun uv' c' es' h' hbytes hname haddr => ?_⟩
  have hspoken' : Spoken (received c' es') := by
    rw [hbytes]
    exact ⟨hclean, h.speaks⟩
  have hreplied' := replied_run h'.writes h'.valid h'.named hspoken'
  rw [hreplied.written, hreplied'.written, hbytes, hname, haddr]

/-- Two connections, one of which sends a ping in two pieces and a handshake. -/
theorem server_replies_two :
    let es : List ServerEvent := [.listen { listenPort := 5000, listenPortRange := 1 },
      .startUvLoop, .setName, .newConnection 0 0, .newConnection 0 0,
      .client 1 (.read 3 (some "PIN".toList)), .client 0 (.read 7 (some "PING b\n".toList)),
      .client 1 (.read 19 (some "G a\nHANDSH V01 a b\n".toList))]
    Answered ((serverSystem Uv.cooperative).run ServerRun.init es).world 1 (received 1 es) := by
  intro es
  have hlines : lines (received 1 es) = ["PING a".toList, "HANDSH V01 a b".toList] := by decide
  have hrequests : requests (received 1 es) =
      [.ping "a".toList, .handshake textV01 "a".toList "b".toList] := by decide
  have hother : ∀ {P : Prop} {e : ServerEvent}, (∀ cb, e ≠ .client 1 cb) →
      ∀ nread buf, e = .client 1 (.read nread buf) → P := fun he nread buf h => absurd h (he _)
  have hserved : ServedRun Uv.cooperative 1 es := by
    refine ⟨by decide, fun _ => rfl, ?_, ?_⟩
    · exact ⟨hother (by simp), hother (by simp), hother (by simp), hother (by simp),
        hother (by simp), fun _ _ _ => by decide, hother (by simp), fun _ _ _ => by decide, trivial⟩
    · rw [hrequests]
      intro m hm
      rcases List.mem_cons.mp hm with rfl | hm
      · exact trivial
      · rw [List.mem_singleton.mp hm]
        exact rfl
  refine (server_replies hserved fun line hm => ?_).1
  rw [hlines] at hm
  rcases List.mem_cons.mp hm with rfl | hm
  · exact ⟨by decide, _, rfl⟩
  · rw [List.mem_singleton.mp hm]
    exact ⟨by decide, _, rfl⟩

/-- A line the parser throws on takes the process down, and the ping behind it unanswered. -/
theorem request_unanswered :
    let es : List ServerEvent := [.listen { listenPort := 5000, listenPortRange := 1 },
      .startUvLoop, .setName, .newConnection 0 0,
      .client 0 (.read 17 (some "OPEER x y\nPING a\n".toList))]
    ServedRun Uv.cooperative 0 es ∧
      ¬ Answered ((serverSystem Uv.cooperative).run ServerRun.init es).world 0 (received 0 es) := by
  intro es
  have hrequests : requests (received 0 es) = [.ping "a".toList] := by decide
  have hother : ∀ {P : Prop} {e : ServerEvent}, (∀ cb, e ≠ .client 0 cb) →
      ∀ nread buf, e = .client 0 (.read nread buf) → P := fun he nread buf h => absurd h (he _)
  refine ⟨⟨by decide, fun _ => rfl, ?_, ?_⟩, fun h => ?_⟩
  · exact ⟨hother (by simp), hother (by simp), hother (by simp), hother (by simp),
      fun _ _ _ => by decide, trivial⟩
  · rw [hrequests]
    intro m hm
    rw [List.mem_singleton.mp hm]
    exact trivial
  · have hwritten := congrArg List.length h.1
    rw [hrequests] at hwritten
    exact absurd hwritten (by decide)

end TcpUv
