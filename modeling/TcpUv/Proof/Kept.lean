import TcpUv.Proof.Elsewhere
import TcpUv.Proof.NodeTables
import TcpUv.Proof.Solo

/-!
# Connections that are kept

What a node does without closing a given connection, as frame lemmas: what happens on
*other* connections leaves this one as it is (`bystander_kept`), and serving what arrived on
the connection *itself* sends, gossips and dials, but moves nobody else's client and no
incoming entry (`Served`). Under a libuv that accepts what it is asked to do (`Uv.Accepts`)
neither closes it.
-/

set_option autoImplicit false

namespace TcpUv

open Lib NodeApp

/-! ## The property, and what it rests on -/

/-- The two entries that record a close. -/
def Act.closes : Act → Bool
  | .closeCall => true
  | .uvClose _ => true
  | _ => false

/-- The connection was never closed by this side. -/
def NeverClosed (k : Client) : Prop := ∀ a ∈ k.acts, a.closes = false

/-- What libuv answers: every write is accepted, and `uv_read_start` refuses a stream that
    is being read already. -/
structure Uv.Accepts (uv : Uv) (c : ClientId) : Prop where
  write : ∀ k, uv.write c k = 0
  readStart : ∀ k, uv.readStart c k = if k.tcp.reading then uvEAlready else 0

/-- Never closed, and not about to be. -/
structure Kept (k : Client) : Prop where
  acts : NeverClosed k
  isOpen : k.IsOpen
  live : k.tcp.closing = false

namespace Kept

variable {k k' : Client}

theorem attached (h : Kept k) : k.Attached := fun _ => h.live

/-- What a method appends to the history is not a close. -/
theorem append {l : List Act} (h : Kept k) (hacts : k'.acts = k.acts ++ l)
    (hl : ∀ a ∈ l, a.closes = false) (hopen : k'.IsOpen)
    (hlive : k'.tcp.closing = k.tcp.closing) : Kept k' where
  acts a ha := by
    rw [hacts] at ha
    rcases List.mem_append.mp ha with ha | ha
    · exact h.acts a ha
    · exact hl a ha
  isOpen := hopen
  live := hlive.trans h.live

theorem log {a : Act} (ha : a.closes = false) (h : Kept k) : Kept (k.log a) :=
  h.append (l := [a]) rfl (by simpa using ha) h.isOpen rfl

theorem setState {s : State} (hs : s ≠ .closing ∧ s ≠ .closed) (h : Kept k) :
    Kept (k.setState s) :=
  h.append (l := [.state s]) rfl (by simp [Act.closes]) hs rfl

theorem same (hs : k.SameConn k') (h : Kept k) : Kept k' :=
  h.append (l := []) (by rw [hs.acts, List.append_nil]) (fun _ h => nomatch h)
    ⟨by rw [hs.myState]; exact h.isOpen.1, by rw [hs.myState]; exact h.isOpen.2⟩ (by rw [hs.tcp])

theorem destroy (h : Kept k) : Kept (NodeApp.destroy k) := by
  unfold NodeApp.destroy
  split
  · exact log rfl ⟨h.acts, h.isOpen, h.live⟩
  · exact log rfl h

/-- A message that is written. -/
theorem send (m : Message) (h : Kept k) : Kept (k.send m 0) := by
  unfold Client.send
  rw [if_neg (not_or.mpr h.isOpen), if_neg (by simp)]
  refine h.append (l := [.sendMessage m, .state .sending, .uvWrite k.myUvStream (frame m)]) ?_
    (by simp [Act.closes]) ⟨(fun h => nomatch h), fun h => nomatch h⟩ (Client.closing_uvWrite _ _ _)
  simp [Client.setState, Client.log, Client.uvWrite]

/-- A read that is started. -/
theorem read (h : Kept k) : Kept (k.read 0) := by
  have hstart : ∀ {k : Client}, Kept k → Kept ((k.setState .receiving).uvReadStart 0) := by
    intro k h
    refine h.append (l := [.state .receiving, .uvReadStart k.myUvStream]) ?_ (by simp [Act.closes])
      ⟨(fun h => nomatch h), fun h => nomatch h⟩ (Client.closing_uvReadStart _ _)
    simp [Client.setState, Client.uvReadStart]
  unfold Client.read
  dsimp only
  rw [if_neg (by simp)]
  apply hstart
  unfold Client.assert
  split
  · exact h
  · exact log rfl h

end Kept

/-- What sending leaves alone, besides. -/
theorem Client.send_frame {k : Client} (h : k.IsOpen) (m : Message) :
    (k.send m 0).kind = k.kind ∧ (k.send m 0).myPeerAddr = k.myPeerAddr ∧
      (k.send m 0).tcp.reading = k.tcp.reading := by
  unfold Client.send
  rw [if_neg (not_or.mpr h), if_neg (by simp)]
  exact ⟨rfl, rfl, Client.reading_uvWrite _ _ _⟩

/-! ## What happens elsewhere -/

/-- The client, once it exists, is kept. -/
def KeptAt (c : ClientId) (w : NodeWorld) : Prop := c < w.next → Kept (w.clients c)

theorem kept_connect (uv : Uv) {c : ClientId} {w : NodeWorld} (h : Kept (w.clients c)) :
    Kept ((connect uv c w).1.clients c) := by
  rcases clients_connect uv c w with ⟨-, heq⟩ | ⟨-, b, heq⟩
  · rw [heq]
    exact h
  · have hstate := (h.log (a := .connectCall) rfl).setState (s := .connecting) (by simp)
    rw [heq]
    exact ⟨hstate.acts, hstate.isOpen, rfl⟩

theorem kept_peerClientOut (host : Str) (port : Int32) : Kept (PeerClientOut.new host port) :=
  ⟨(fun _ h => nomatch h), ⟨(fun h => nomatch h), fun h => nomatch h⟩, rfl⟩

/-- **Nothing that happens elsewhere closes a connection.** -/
theorem bystander_kept {uv : Uv} {c : ClientId} (huv : uv.Accepts c) : Bystander uv c Kept where
  dialled {w} host port hnew := kept_connect uv (by rw [hnew]; exact kept_peerClientOut host port)
  accepted a := by
    have hanswer : readAnswer uv c (NetClientIn.new a) = 0 := (huv.readStart _).trans rfl
    rw [hanswer]
    refine Kept.read ⟨fun act ha => ?_, ⟨(fun h => by cases h), fun h => by cases h⟩, rfl⟩
    rw [List.mem_singleton.mp ha]
    rfl
  destroy h := h.destroy

/-! ## What happens on the connection itself -/

/-- The incoming entries of the list of peers. -/
def inPeers (w : NodeWorld) : List PeerInfo := w.app.myPeers.filter fun p => !p.myOutFlag

/-- The methods a connection runs through while it serves what it received: nobody else's
    client moves, the incoming entries stay, and the connection is kept. -/
structure Served (c : ClientId) (w w' : NodeWorld) : Prop where
  next : w.next ≤ w'.next
  others : ∀ d, d ≠ c → d < w.next → w'.clients d = w.clients d
  inward : inPeers w' = inPeers w
  kind : (w'.clients c).kind = (w.clients c).kind
  myPeerAddr : (w'.clients c).myPeerAddr = (w.clients c).myPeerAddr
  reading : (w'.clients c).tcp.reading = (w.clients c).tcp.reading
  kept : Kept (w'.clients c)

namespace Served

variable {uv : Uv} {c : ClientId} {w w' w'' : NodeWorld}

theorem refl (h : Kept (w.clients c)) : Served c w w :=
  ⟨le_rfl, fun _ _ _ => rfl, rfl, rfl, rfl, rfl, h⟩

theorem trans (h : Served c w w') (h' : Served c w' w'') : Served c w w'' where
  next := h.next.trans h'.next
  others d hd hlt := (h'.others d hd (Nat.lt_of_lt_of_le hlt h.next)).trans (h.others d hd hlt)
  inward := h'.inward.trans h.inward
  kind := h'.kind.trans h.kind
  myPeerAddr := h'.myPeerAddr.trans h.myPeerAddr
  reading := h'.reading.trans h.reading
  kept := h'.kept

theorem modify {f : Client → Client} (hkind : (f (w.clients c)).kind = (w.clients c).kind)
    (haddr : (f (w.clients c)).myPeerAddr = (w.clients c).myPeerAddr)
    (hread : (f (w.clients c)).tcp.reading = (w.clients c).tcp.reading)
    (h : Kept (f (w.clients c))) : Served c w (w.modify c f) where
  next := le_rfl
  others d hd _ := World.clients_modify_ne w f hd
  inward := rfl
  kind := by rw [World.clients_modify_self]; exact hkind
  myPeerAddr := by rw [World.clients_modify_self]; exact haddr
  reading := by rw [World.clients_modify_self]; exact hread
  kept := by rw [World.clients_modify_self]; exact h

theorem sendMessage (huv : uv.Accepts c) (m : Message) (h : Kept (w.clients c)) :
    Served c w (sendMessage uv c m w).1 := by
  obtain ⟨hkind, haddr, hread⟩ := Client.send_frame h.isOpen m
  rw [sendMessage_eq uv h.attached, show writeAnswer uv c m (w.clients c) = 0 from huv.write _]
  exact modify hkind haddr hread (h.send m)

theorem sendOtherPeers (huv : uv.Accepts c) (h : Kept (w.clients c)) :
    Served c w (NodeApp.sendOtherPeers uv c w) :=
  gossip_preserves (I := Served c w)
    (fun e _ _ h' => h'.trans (sendMessage huv (.otherPeer e.myHost e.myPort) h'.kept)) (refl h)

theorem inPeers_tryCandidate (uv : Uv) (w : NodeWorld) (key : Str) :
    inPeers (tryCandidate uv w key) = inPeers w := by
  -- a round that gets to an attempt appends an outgoing entry
  have happended : ∀ i : PeerCandidateInfo, inPeers (connect uv w.next (appendOut i.myHost i.myPort
      (modifyCand key PeerCandidateInfo.tried w))).1 = inPeers w := by
    intro i
    unfold inPeers
    rw [app_connect]
    show (w.app.myPeers ++ [(⟨some w.next, true⟩ : PeerInfo)]).filter _ = _
    rw [List.filter_append]
    exact List.append_nil _
  have hround := round_tryCandidate uv w key
  generalize tryCandidate uv w key = w' at hround ⊢
  cases hround with
  | skipped => rfl
  | self => rfl
  | attempted i => exact happended i
  | failed i => exact happended i

/-- The connection pass. -/
theorem tryOutConnections (uv : Uv) (hc : c < w.next) (h : Kept (w.clients c)) :
    Served c w (NodeApp.tryOutConnections uv w) := by
  have hin : inPeers (NodeApp.tryOutConnections uv w) = inPeers w :=
    rounds_preserve (I := fun w' => inPeers w' = inPeers w)
      (fun key _ w' h => (inPeers_tryCandidate uv w' key).trans h) rfl
  have hclient := clients_tryOutConnections uv hc
  refine ⟨RobustNode.next_tryOutConnections uv w, fun d _ hlt => clients_tryOutConnections uv hlt,
    hin, ?_, ?_, ?_, ?_⟩
  · rw [hclient]
  · rw [hclient]
  · rw [hclient]
  · rw [hclient]
    exact h

/-- Learning of a candidate. -/
theorem candidate (host : Str) (port : Int32) (h : Served c w w') :
    Served c w { w' with app := w'.app.addOutPeerCandidate host port 1 } := by
  refine ⟨h.next, h.others, Eq.trans ?_ h.inward, h.kind, h.myPeerAddr, h.reading, h.kept⟩
  unfold inPeers addOutPeerCandidate
  dsimp only
  split <;> rfl

/-- Learning the canonical address of the peer. -/
theorem learnCanonical (uv : Uv) (hc : c < w.next) (host : Str) (port : Int32)
    (h : Kept (w.clients c)) : Served c w (NodeApp.learnCanonical uv c host port w) := by
  have hcanon : Served c w (w.modify c fun k =>
      { k with myCanonPeerAddr := endpointText host port }) :=
    modify rfl rfl rfl ⟨h.acts, h.isOpen, h.live⟩
  have hlearned := hcanon.candidate host port
  exact hlearned.trans (tryOutConnections uv (Nat.lt_of_lt_of_le hc hlearned.next) hlearned.kept)

end Served

/-- A message the node answers: a ping, and a handshake of a peer it finds in its list. -/
def answers (w : NodeWorld) (c : ClientId) : Message → Bool
  | .handshake _ _ _ => isPeerConnected w (w.clients c).myPeerAddr false
  | .ping _ => true
  | _ => false

/-- A message whose handling ends in an exception: a handshake with a port `stoi` does not
    take. -/
def throwsOn (w : NodeWorld) (c : ClientId) : Message → Bool
  | .handshake _ _ myAddr => isPeerConnected w (w.clients c).myPeerAddr false &&
      myAddr.take 1 = [':'] &&
        match stoi (myAddr.drop 1) with
        | .error _ => true
        | .ok _ => false
  | _ => false

/-- A handshake, if it is one, of the version the node speaks. -/
def Message.SpeaksV01 : Message → Prop
  | .handshake myVersion _ _ => myVersion = textV01
  | _ => True

/-- **One message served.** -/
theorem served_messageReceived {uv : Uv} {c : ClientId} {w : NodeWorld} (huv : uv.Accepts c)
    (hc : c < w.next) {m : Message} (hv : m.SpeaksV01) (h : Kept (w.clients c)) :
    Served c w (NodeApp.messageReceived uv c m w).world ∧
      (answers w c m = false → ((NodeApp.messageReceived uv c m w).world.clients c).myState =
        (w.clients c).myState) ∧
      (NodeApp.messageReceived uv c m w).threw = throwsOn w c m := by
  cases m with
  | handshake myVersion yourAddr myAddr =>
    have hversion : ¬ myVersion ≠ textV01 := not_not.mpr hv
    unfold NodeApp.messageReceived
    dsimp only
    rw [if_neg hversion]
    cases hconn : isPeerConnected w (w.clients c).myPeerAddr false with
    | false =>
      rw [if_pos rfl, throwsOn, hconn]
      exact ⟨Served.refl h, fun _ => rfl, rfl⟩
    | true =>
      have hresp := Served.sendMessage huv
        (.handshakeResponse textV01 w.app.myName (w.clients c).myPeerAddr) h
      rw [if_neg (by simp), answers, throwsOn, hconn]
      by_cases hport : myAddr.take 1 = [':']
      · rw [if_neg (not_not.mpr hport), hport]
        cases stoi (myAddr.drop 1) with
        | error e => exact ⟨hresp, (fun hno => by cases hno), rfl⟩
        | ok canonPort =>
          refine ⟨?_, (fun hno => by cases hno), rfl⟩
          have hgossip : ∀ w', Served c w w' → Served c w (NodeApp.sendOtherPeers uv c w') :=
            fun w' hw' => hw'.trans (Served.sendOtherPeers huv hw'.kept)
          apply hgossip _
          split
          · exact hresp.trans (Served.learnCanonical uv (Nat.lt_of_lt_of_le hc hresp.next) _ _
              hresp.kept)
          · exact hresp
      · rw [if_pos hport]
        refine ⟨hresp.trans (Served.sendOtherPeers huv hresp.kept), (fun hno => by cases hno), ?_⟩
        simp [hport, Outcome.threw]
  | handshakeResponse myVersion myAddr yourAddr => exact ⟨Served.refl h, fun _ => rfl, rfl⟩
  | ping text => exact ⟨Served.sendMessage huv _ h, (fun hno => by cases hno), rfl⟩
  | pingResponse text => exact ⟨Served.refl h, fun _ => rfl, rfl⟩
  | otherPeer host port =>
    have hadded := (Served.refl h).candidate host port
    have hclient := clients_tryOutConnections uv
      (w := { w with app := w.app.addOutPeerCandidate host port 1 }) hc
    exact ⟨hadded.trans (Served.tryOutConnections uv hc h),
      fun _ => congrArg Client.myState hclient, rfl⟩

end TcpUv
