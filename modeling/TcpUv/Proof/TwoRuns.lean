import TcpUv.Proof.CloseOnce
import TcpUv.Proof.Local

/-!
# Two runs side by side

A result about two runs of one connection relates their states event by event. What a relation
of clients has to survive for that is a `PairRule`: the writes to a field, the calls into libuv,
the close and the two ends of an attempt to connect. The rule then carries it through
`process()`, the receive loop and every callback, and `PairRule.run` through two runs that the
same events are delivered to.

Nothing asks the two libuvs to be the same, only that they answer alike on related clients.
-/

set_option autoImplicit false

namespace TcpUv

open Lib

/-! ## What a relation has to say -/

/-- An entry that names no handle. -/
def Act.isHandleless : Act → Bool
  | .uvWrite _ _ | .uvReadStart _ | .uvClose _ => false
  | _ => true

/-- The writes of the methods to a field of the object, or of libuv to its own. -/
inductive Edit where
  | log (a : Act)
  | setState (s : State)
  | setReceiveBuffer (b : Str)
  | setCanonPeerAddr (a : Str)
  | setSendCounter (n : Int)
  | setPeerSendCounter (n : Int)
  | newTimer
  | startTimer
  | setConnecting (b : Bool)
  | writeDone
  | closeDone

namespace Edit

def on : Edit → Client → Client
  | .log a, k => k.log a
  | .setState s, k => k.setState s
  | .setReceiveBuffer b, k => k.setReceiveBuffer b
  | .setCanonPeerAddr a, k => { k with myCanonPeerAddr := a }
  | .setSendCounter n, k => { k with mySendCounter := n }
  | .setPeerSendCounter n, k => { k with peerSendCounter := n }
  | .newTimer, k => { k with myTimer := true }
  | .startTimer, k => { k with timerActive := true }
  | .setConnecting b, k => { k with tcp := { k.tcp with connecting := b } }
  | .writeDone, k => { k with tcp := { k.tcp with writes := k.tcp.writes - 1 } }
  | .closeDone, k => { k with tcp := { k.tcp with closed := true } }

/-- Only a peer has the second counter, and no handle is written down this way. -/
def Fits (k : Client) : Edit → Prop
  | .log a => a.isHandleless = true
  | .setPeerSendCounter n => n ≠ 0 → k.kind = .peerClientOut
  | _ => True

end Edit

namespace Client

/-- Two clients the methods cannot tell apart. -/
structure Agree (k k' : Client) : Prop where
  kind : k'.kind = k.kind
  myState : k'.myState = k.myState
  myPeerAddr : k'.myPeerAddr = k.myPeerAddr
  myReceiveBuffer : k'.myReceiveBuffer = k.myReceiveBuffer
  myPingToSend : k'.myPingToSend = k.myPingToSend
  mySendCounter : k'.mySendCounter = k.mySendCounter
  peerSendCounter : k'.peerSendCounter = k.peerSendCounter

end Client

/-- A relation between a client under one libuv and a client under another that the methods
    preserve. -/
structure PairRule (uv uv' : Uv) (c : ClientId) (R : Client → Client → Prop) : Prop where
  agree : ∀ {k k' : Client}, R k k' → k.Agree k'
  attached : ∀ {k k' : Client}, R k k' → k.Attached ∧ k'.Attached
  write : ∀ {k k' : Client}, R k k' → uv.write c k = uv'.write c k'
  readStart : ∀ {k k' : Client}, R k k' → uv.readStart c k = uv'.readStart c k'
  tcpConnect : ∀ {k k' : Client}, R k k' → uv.tcpConnect c k = uv'.tcpConnect c k'
  edit : ∀ {k k' : Client} (e : Edit), e.Fits k → R k k' → R (e.on k) (e.on k')
  uvWrite : ∀ {k k' : Client} (fr : Str) (res : Int), R k k' →
    R (k.uvWrite fr res) (k'.uvWrite fr res)
  uvReadStart : ∀ {k k' : Client} (res : Int), R k k' → R (k.uvReadStart res) (k'.uvReadStart res)
  shut : ∀ {k k' : Client}, R k k' → R k.shut k'.shut
  dialled : ∀ {k k' : Client}, R k k' → R k.dialled k'.dialled
  establish : ∀ {k k' : Client}, R k k' → R (k.establish uv c) (k'.establish uv' c)

namespace PairRule

variable {uv uv' : Uv} {c : ClientId} {R : Client → Client → Prop} (hR : PairRule uv uv' c R)

include hR

/-! ### The methods -/

section

variable {k k' : Client}

theorem assert (site : Assertion) (b : Bool) (h : R k k') :
    R (k.assert site b) (k'.assert site b) := by
  unfold Client.assert
  split
  · exact h
  · exact hR.edit (.log _) rfl h

theorem send (m : Message) (res : Int) (h : R k k') : R (k.send m res) (k'.send m res) := by
  have hlogged := hR.edit (.log (.sendMessage m)) rfl h
  have hwritten := hR.uvWrite (frame m) res (hR.edit (.setState .sending) trivial hlogged)
  unfold Client.send
  rw [(hR.agree h).myState]
  split
  · exact hlogged
  · split
    · exact hR.shut hwritten
    · exact hwritten

theorem sendNow (m : Message) (h : R k k') : R (k.sendNow uv c m) (k'.sendNow uv' c m) := by
  have hanswer : writeAnswer uv c m k = writeAnswer uv' c m k' :=
    hR.write (hR.edit (.setState .sending) trivial (hR.edit (.log (.sendMessage m)) rfl h))
  unfold Client.sendNow
  rw [hanswer]
  exact hR.send m _ h

theorem readNow (h : R k k') : R (k.readNow uv c) (k'.readNow uv' c) := by
  have hstate : k'.myState = k.myState := (hR.agree h).myState
  have hreceiving := hR.edit (.setState .receiving) trivial (hR.assert .doRead
    (k.myState = .accepted || k.myState = .sent || k.myState = .sending ||
      k.myState = .receiving) h)
  -- libuv is asked in related states, so it answers the same
  have hanswer : readAnswer uv c k = readAnswer uv' c k' := by
    unfold readAnswer
    rw [hstate]
    exact hR.readStart hreceiving
  have hstarted := hR.uvReadStart (readAnswer uv' c k') hreceiving
  unfold Client.readNow Client.read
  dsimp only
  rw [hanswer, hstate]
  split
  · exact hR.shut hstarted
  · exact hstarted

theorem call (a : AppCall) (h : R k k') : R (k.call a) (k'.call a) := by
  cases a with
  | reply m res => exact hR.send m res h
  | close => exact hR.shut h
  | setCanonPeerAddr a => exact hR.edit (.setCanonPeerAddr a) trivial h

theorem calls (cs : List AppCall) : ∀ {k k' : Client}, R k k' → R (k.calls cs) (k'.calls cs) := by
  induction cs with
  | nil => intro k k' h; exact h
  | cons a cs ih => intro k k' h; exact ih (hR.call a h)

theorem advance (name : Str) (h : R k k') : R (k.advance uv c name) (k'.advance uv' c name) := by
  obtain ⟨-, hstate, haddr, -, hping, hcounter, -⟩ := hR.agree h
  rcases Client.state_cases k with hs | hs | hs | hs | hs
  · have hmsg : Message.handshake textV01 k'.myPeerAddr name =
        .handshake textV01 k.myPeerAddr name := by rw [haddr]
    rw [Client.advance_connected uv c name hs,
      Client.advance_connected uv' c name (hstate.trans hs), hmsg]
    exact hR.sendNow _ (hR.edit (.setSendCounter 0) trivial h)
  · rw [Client.advance_sending uv c name hs,
      Client.advance_sending uv' c name (hstate.trans hs), hcounter]
    exact hR.readNow (hR.edit (.setSendCounter (k.mySendCounter + 1)) trivial h)
  · rw [Client.advance_waiting uv c name hs,
      Client.advance_waiting uv' c name (by rw [hstate]; exact hs)]
    exact hR.readNow h
  · rw [Client.advance_received uv c name hs,
      Client.advance_received uv' c name (hstate.trans hs), haddr, hping, hcounter]
    split
    · exact hR.shut h
    · split
      · exact hR.sendNow _ h
      · exact h
  · rw [Client.advance_unhandled uv c name hs,
      Client.advance_unhandled uv' c name (by unfold Client.Unhandled; rw [hstate]; exact hs)]
    exact hR.edit (.log _) rfl h

theorem advancePeer (hk : k.kind = .peerClientOut) (hnew : k.myState ≠ .connected) (h : R k k') :
    R (k.advancePeer uv c) (k'.advancePeer uv' c) := by
  have hstate := (hR.agree h).myState
  have hcounter := (hR.agree h).peerSendCounter
  rcases Client.state_cases k with hs | hs | hs | hs | hs
  · exact absurd hs hnew
  · rw [Client.advancePeer_sending uv c hs, Client.advancePeer_sending uv' c (hstate.trans hs),
      hcounter]
    exact hR.readNow (hR.edit (.setPeerSendCounter (k.peerSendCounter + 1)) (fun _ => hk) h)
  · rw [Client.advancePeer_waiting uv c hs,
      Client.advancePeer_waiting uv' c (by rw [hstate]; exact hs)]
    exact hR.readNow h
  · rw [Client.advancePeer_received uv c hs, Client.advancePeer_received uv' c (hstate.trans hs)]
    exact h
  · rw [Client.advancePeer_unhandled uv c hs,
      Client.advancePeer_unhandled uv' c (by unfold Client.Unhandled; rw [hstate]; exact hs)]
    exact hR.edit (.log _) rfl h

end

/-! ### The callbacks -/

/-- Two worlds with a related connection, under the same script. -/
structure Paired (R : Client → Client → Prop) (c : ClientId) (name : Str) (w w' : World Script) :
    Prop where
  clients : R (w.clients c) (w'.clients c)
  app : w'.app = w.app
  myName : w.app.myName = name

section

variable {name : Str} {w w' : World Script}

omit hR in
theorem Paired.modify (h : Paired R c name w w') {f g : Client → Client}
    (hfg : R (f (w.clients c)) (g (w'.clients c))) :
    Paired R c name (w.modify c f) (w'.modify c g) where
  clients := by
    rw [World.clients_modify_self, World.clients_modify_self]
    exact hfg
  app := h.app
  myName := h.myName

theorem edited (e : Edit) (he : e.Fits (w.clients c)) (h : Paired R c name w w') :
    Paired R c name (w.modify c e.on) (w'.modify c e.on) :=
  h.modify (hR.edit e he h.clients)

theorem close (h : Paired R c name w w') :
    Paired R c name (TcpUv.close c w).1 (TcpUv.close c w').1 := by
  obtain ⟨ha, ha'⟩ := hR.attached h.clients
  rw [close_eq ha, close_eq ha']
  exact h.modify (hR.shut h.clients)

theorem sendMessage (m : Message) (h : Paired R c name w w') :
    Paired R c name (TcpUv.sendMessage uv c m w).1 (TcpUv.sendMessage uv' c m w').1 := by
  obtain ⟨ha, ha'⟩ := hR.attached h.clients
  rw [sendMessage_now uv m ha, sendMessage_now uv' m ha']
  exact h.modify (hR.sendNow m h.clients)

theorem scriptCalls (cs : List AppCall) (h : Paired R c name w w') :
    Paired R c name (Script.calls uv c cs w) (Script.calls uv' c cs w') := by
  obtain ⟨ha, ha'⟩ := hR.attached h.clients
  rw [script_calls_eq uv cs ha, script_calls_eq uv' cs ha']
  exact h.modify (hR.calls cs h.clients)

theorem messageReceived (h : Paired R c name w w') :
    Paired R c name (Script.messageReceived uv c w) (Script.messageReceived uv' c w') := by
  unfold Script.messageReceived
  rw [h.app]
  exact hR.scriptCalls _ ⟨h.clients, rfl, h.myName⟩

theorem sendOtherPeers (h : Paired R c name w w') :
    Paired R c name (Script.sendOtherPeers uv c w) (Script.sendOtherPeers uv' c w') := by
  unfold Script.sendOtherPeers
  rw [h.app]
  exact hR.scriptCalls _ ⟨h.clients, rfl, h.myName⟩

theorem onTimer (h : Paired R c name w w') :
    Paired R c name (TcpUv.onTimer uv c w) (TcpUv.onTimer uv' c w') := by
  have hagree := hR.agree h.clients
  unfold TcpUv.onTimer
  dsimp only
  rw [h.app, hagree.myPeerAddr, hagree.peerSendCounter]
  exact hR.sendOtherPeers (hR.sendMessage _ h)

/-- The end of what a peer says on a new connection. -/
theorem introduce (h : Paired R c name w w') :
    Paired R c name
      (Script.sendOtherPeers uv c (TcpUv.sendMessage uv c
        (.handshake textV01 (w.clients c).myPeerAddr (BaseApp.getName w.app)) w).1)
      (Script.sendOtherPeers uv' c (TcpUv.sendMessage uv' c
        (.handshake textV01 (w'.clients c).myPeerAddr (BaseApp.getName w'.app)) w').1) := by
  rw [h.app, (hR.agree h.clients).myPeerAddr]
  exact hR.sendOtherPeers (hR.sendMessage _ h)

theorem process_peerClientOut (hk : (w.clients c).kind = .peerClientOut)
    (h : Paired R c name w w') :
    Paired R c name (PeerClientOut.process uv c w) (PeerClientOut.process uv' c w') := by
  obtain ⟨ha, ha'⟩ := hR.attached h.clients
  have hstate := (hR.agree h.clients).myState
  by_cases hs : (w.clients c).myState = .connected
  · -- the ping goes out before the counter is reset, so the counter has to agree here
    have htimer := hR.onTimer (hR.edited .newTimer trivial h)
    have hstarted := hR.edited .startTimer trivial
      (hR.edited (.setPeerSendCounter 0) (fun hne => absurd rfl hne) htimer)
    rw [World.modify_modify, World.modify_modify] at hstarted
    unfold PeerClientOut.process
    rw [hstate, hs]
    exact hR.introduce hstarted
  · rw [process_advancePeer uv ha hs, process_advancePeer uv' ha' (by rw [hstate]; exact hs)]
    exact h.modify (hR.advancePeer hk hs h.clients)

theorem process (h : Paired R c name w w') :
    Paired R c name (TcpUv.process uv c w) (TcpUv.process uv' c w') := by
  obtain ⟨ha, ha'⟩ := hR.attached h.clients
  unfold TcpUv.process
  rw [(hR.agree h.clients).kind]
  cases hk : (w.clients c).kind with
  | netClientIn => exact h
  | netClientOut =>
    have hname : BaseApp.getName w.app = name := h.myName
    have hname' : BaseApp.getName w'.app = name := by rw [h.app]; exact hname
    dsimp only
    rw [process_advance uv ha hname, process_advance uv' ha' hname']
    exact h.modify (hR.advance name h.clients)
  | peerClientOut => exact hR.process_peerClientOut hk h

/-- The loop cuts the same lines in both. Induction on the fuel. -/
theorem receiveLoop : ∀ (fuel : Nat) {w w' : World Script}, Paired R c name w w' →
    Paired R c name (TcpUv.receiveLoop uv c fuel w).world (TcpUv.receiveLoop uv' c fuel w').world ∧
      (TcpUv.receiveLoop uv c fuel w).threw = (TcpUv.receiveLoop uv' c fuel w').threw := by
  intro fuel
  induction fuel with
  | zero => intro w w' h; exact ⟨h, rfl⟩
  | succ fuel ih =>
    intro w w' h
    rw [TcpUv.receiveLoop, TcpUv.receiveLoop, (hR.agree h.clients).myReceiveBuffer]
    cases cutLine (w.clients c).myReceiveBuffer with
    | error e => exact ⟨h, rfl⟩
    | ok cut =>
      cases cut with
      | none => exact ⟨h, rfl⟩
      | some cut =>
        obtain ⟨line, rest⟩ := cut
        have hrest := hR.edited (.setReceiveBuffer rest) trivial h
        dsimp only
        cases parseLine line with
        | error e => exact ⟨hrest, rfl⟩
        | ok om =>
          cases om with
          | none => exact ih hrest
          | some m =>
            have hgot := hR.edit (.log (.messageReceived m)) rfl
              (hR.edit (.setState .received) trivial hrest.clients)
            exact ih (hR.messageReceived (hrest.modify hgot))

/-- The buffer served, then `process()`, in both or in neither. -/
theorem served (h : Paired R c name w w') :
    Paired R c name
      ((doProcessReceivedBuffer uv c w).andThen fun w =>
        .returns (TcpUv.process uv c w)).world
      ((doProcessReceivedBuffer uv' c w').andThen fun w =>
        .returns (TcpUv.process uv' c w)).world := by
  obtain ⟨hloop, hthrew⟩ := hR.receiveLoop (w.clients c).myReceiveBuffer.length h
  unfold doProcessReceivedBuffer
  rw [(hR.agree h.clients).myReceiveBuffer]
  cases ho : TcpUv.receiveLoop uv c (w.clients c).myReceiveBuffer.length w with
  | throws e w₁ =>
    rw [ho] at hloop hthrew
    cases ho' : TcpUv.receiveLoop uv' c (w.clients c).myReceiveBuffer.length w' with
    | throws e' w₁' => rw [ho'] at hloop; exact hloop
    | returns w₁' => rw [ho'] at hthrew; cases hthrew
  | returns w₁ =>
    rw [ho] at hloop hthrew
    cases ho' : TcpUv.receiveLoop uv' c (w.clients c).myReceiveBuffer.length w' with
    | throws e' w₁' => rw [ho'] at hthrew; cases hthrew
    | returns w₁' => rw [ho'] at hloop; exact hR.process hloop

theorem onRead (nread : Int) (buf : Option Str) (h : Paired R c name w w') :
    Paired R c name (TcpUv.onRead uv c nread buf w).world
      (TcpUv.onRead uv' c nread buf w').world := by
  by_cases hpos : 0 < nread
  · cases buf with
    | none =>
      rw [onRead_null uv hpos, onRead_null uv' hpos]
      exact hR.process h
    | some base =>
      rw [onRead_data uv hpos, onRead_data uv' hpos]
      refine hR.served (h.modify ?_)
      rw [(hR.agree h.clients).myReceiveBuffer]
      exact hR.edit (.setReceiveBuffer _) trivial h.clients
  · rw [onRead_ends uv hpos, onRead_ends uv' hpos]
    exact hR.close h

theorem onWrite (status : Int) (h : Paired R c name w w') :
    Paired R c name (TcpUv.onWrite uv c status w) (TcpUv.onWrite uv' c status w') := by
  have hassert : Paired R c name
      (w.modify c fun k => k.assert .onWrite
        (k.myState = .sending || k.myState = .receiving || k.myState = .received))
      (w'.modify c fun k => k.assert .onWrite
        (k.myState = .sending || k.myState = .receiving || k.myState = .received)) := by
    apply h.modify
    rw [(hR.agree h.clients).myState]
    exact hR.assert _ _ h.clients
  unfold TcpUv.onWrite
  dsimp only
  split
  · exact hR.close hassert
  · exact hR.process hassert

/-- The canonical address is what the two may learn differently. -/
theorem onConnect (status : Int) (h : Paired R c name w w') :
    Paired R c name (TcpUv.onConnect uv c status w) (TcpUv.onConnect uv' c status w') := by
  rw [onConnect_eq, onConnect_eq, (hR.agree h.clients).kind]
  split
  · exact h
  · exact hR.process (h.modify (hR.establish h.clients))

theorem onClose (h : Paired R c name w w') :
    Paired R c name (TcpUv.onClose c w) (TcpUv.onClose c w') :=
  hR.edited (.setState .closed) trivial (hR.edited (.log .deleteHandle) rfl
    (hR.edited (.log .connectionClosed) rfl h))

theorem callback (cb : Callback) (h : Paired R c name w w') :
    Paired R c name (TcpUv.callback uv c w cb).world (TcpUv.callback uv' c w' cb).world := by
  cases cb with
  | connected status => exact hR.onConnect status (hR.edited (.setConnecting false) trivial h)
  | read nread buf => exact hR.onRead nread buf h
  | wrote status => exact hR.onWrite status (hR.edited .writeDone trivial h)
  | closed => exact hR.onClose (hR.edited .closeDone trivial h)
  | timer => exact hR.onTimer h

end

/-! ### Events -/

/-- Between events: what is left of the two scripts plays no role. -/
structure Beside (R : Client → Client → Prop) (c : ClientId) (name : Str) (w w' : World Script) :
    Prop where
  clients : R (w.clients c) (w'.clients c)
  myName : w.app.myName = name
  myName' : w'.app.myName = name

section

variable {name : Str} {w w' : World Script}

omit hR in
theorem Paired.beside (h : Paired R c name w w') : Beside R c name w w' :=
  ⟨h.clients, h.myName, by rw [h.app]; exact h.myName⟩

/-- Two connections past the guard of `connect()`: what it writes has to be related, no more. -/
theorem connect (hg : ¬ (w.clients c).Refuses) (hg' : ¬ (w'.clients c).Refuses)
    (hname : w.app.myName = name) (hname' : w'.app.myName = name)
    (h : R (w.clients c).dialled (w'.clients c).dialled) :
    Beside R c name (TcpUv.connect uv c w).1 (TcpUv.connect uv' c w').1 := by
  rw [connect_dial uv hg, connect_dial uv' hg']
  refine ⟨?_, hname, hname'⟩
  rw [World.clients_modify_self, World.clients_modify_self, hR.tcpConnect h]
  unfold Client.dial
  dsimp only
  split
  · exact h
  · exact hR.edit (.setConnecting true) trivial h

/-- **One event**, delivered to both. -/
theorem step (e : OwnedEvent) (h : Beside R c name w w') :
    Beside R c name ((ownedSystem uv c).step w e) ((ownedSystem uv' c).step w' e) := by
  cases e with
  | event e =>
    cases e with
    | connect =>
      have hstate := (hR.agree h.clients).myState
      by_cases hg : (w.clients c).Refuses
      · show Beside R c name (TcpUv.connect uv c w).1 (TcpUv.connect uv' c w').1
        rw [connect_refused uv hg,
          connect_refused uv' (by unfold Client.Refuses; rw [hstate]; exact hg)]
        exact h
      · exact hR.connect hg (by unfold Client.Refuses; rw [hstate]; exact hg) h.myName h.myName'
          (hR.dialled h.clients)
    | callback cb reactions gossip =>
      -- a callback writes the script anew, so the two are the same again
      have hscript : Paired R c name (w.withScript reactions gossip)
          (w'.withScript reactions gossip) := by
        refine ⟨h.clients, ?_, h.myName⟩
        show (⟨w'.app.myName, reactions, gossip⟩ : Script) = ⟨w.app.myName, reactions, gossip⟩
        rw [h.myName, h.myName']
      obtain ⟨hclients, hname, hname'⟩ := (hR.callback cb hscript).beside
      refine ⟨?_, ?_, ?_⟩
      · show R ((TcpUv.callback uv c (w.withScript reactions gossip) cb).settle.clients c)
          ((TcpUv.callback uv' c (w'.withScript reactions gossip) cb).settle.clients c)
        rw [Outcome.clients_settle, Outcome.clients_settle]
        exact hclients
      · exact (congrArg Script.myName (Outcome.app_settle _)).trans hname
      · exact (congrArg Script.myName (Outcome.app_settle _)).trans hname'
  | calls cs =>
    obtain ⟨ha, ha'⟩ := hR.attached h.clients
    show Beside R c name (Script.calls uv c cs w) (Script.calls uv' c cs w')
    rw [script_calls_eq uv cs ha, script_calls_eq uv' cs ha']
    refine ⟨?_, h.myName, h.myName'⟩
    rw [World.clients_modify_self, World.clients_modify_self]
    exact hR.calls cs h.clients

/-- **Two runs of the same events.** -/
theorem run (es : List OwnedEvent) (h : Beside R c name w w') :
    Beside R c name ((ownedSystem uv c).run w es) ((ownedSystem uv' c).run w' es) :=
  System.run_related (fun _ _ e h => hR.step e h) h

end

end PairRule

end TcpUv
