import TcpUv.Proof.EveryConn
import TcpUv.Proof.Networks

/-!
# Nothing is left unheard

An accepted connection is read at once; an outgoing one only when its first write completes,
and whether libuv reads already is nowhere written down in the client. Still no connection goes deaf
(`Alert`): as long as it holds its stream it is read, or it has not got through yet, or the
completion of a write is due that starts the reading. That holds of every connection of every
program (`alert_programs`), whatever it is sent.

So a network does not stop with bytes on a wire (`network_progress`): a connection that has got
through and holds its stream can take them in, now or after that write has completed.
-/

set_option autoImplicit false

namespace TcpUv

open Lib (Network System)

/-! ## Reading, or about to -/

namespace Client

/-- A connection that is read as long as it holds its stream. -/
structure Reads (k : Client) : Prop where
  attached : k.Attached
  reading : k.myUvStream.isSome = true → k.tcp.reading = true

/-- A connection that is read, or is going to be. -/
inductive Alert (k : Client) : Prop where
  | reading (h : k.Reads)
  | connecting (attached : k.Attached) (out : k.kind ≠ .netClientIn)
      (state : k.myState = .connecting)
  | writing (attached : k.Attached) (out : k.kind ≠ .netClientIn) (state : k.myState = .sending)
      (due : 0 < k.tcp.writes)

variable {k k' : Client}

namespace Reads

theorem of_none (h : k.myUvStream = none) : k.Reads where
  attached hs := by rw [h] at hs; cases hs
  reading hs := by rw [h] at hs; cases hs

theorem shut (k : Client) : k.shut.Reads := of_none (myUvStream_shut k)

/-- A move that leaves the stream and libuv's view of it alone. -/
theorem aside (h : k.Reads) (hstream : k'.myUvStream = k.myUvStream)
    (hclosing : k'.tcp.closing = k.tcp.closing) (hreading : k'.tcp.reading = k.tcp.reading) :
    k'.Reads where
  attached hs := hclosing.trans (h.attached (hstream ▸ hs))
  reading hs := hreading.trans (h.reading (hstream ▸ hs))

/-- Started, or given up. -/
theorem read (h : k.Attached) (res : Int) : (k.read res).Reads := by
  unfold Client.read
  dsimp only
  split
  · exact shut _
  · rename_i hres
    have hstarted : ∀ k : Client, k.Attached → ((k.setState .receiving).uvReadStart res).Reads := by
      intro k hk
      refine ⟨attached_uvReadStart (k := k.setState .receiving) hk, fun hs => ?_⟩
      have hsome : k.myUvStream.isSome = true := hs
      simp [uvReadStart, setState, hsome, Int.not_lt.mp hres]
    exact hstarted _ (attached_assert (b := _) h)

theorem send (m : Message) (res : Int) (h : k.Reads) : (k.send m res).Reads := by
  unfold Client.send
  split
  · exact h.aside rfl rfl rfl
  · split
    · exact shut _
    · exact h.aside rfl (closing_uvWrite _ _ _) (reading_uvWrite _ _ _)

theorem methodRule : MethodRule Reads where
  attached h := h.attached
  same hs h := h.aside hs.myUvStream (congrArg UvTcp.closing hs.tcp) (congrArg UvTcp.reading hs.tcp)
  shut _ := shut _
  send m res h := h.send m res
  violated _ h := h.aside rfl rfl rfl
  read res h := read h.attached res
  handOver _ h := h.aside rfl rfl rfl

end Reads

namespace Alert

theorem attached (h : k.Alert) : k.Attached := by
  cases h with
  | reading h => exact h.attached
  | connecting hk | writing hk => exact hk

/-- A message on an open connection, whose write libuv will complete. -/
theorem of_send (ha : k.Attached) (hout : k.kind ≠ .netClientIn) (ho : k.IsOpen) (m : Message)
    (res : Int) : (k.send m res).Alert := by
  unfold Client.send
  rw [if_neg (not_or.mpr ho)]
  split
  · exact .reading (.shut _)
  · rename_i hres
    cases hs : k.myUvStream with
    | none => exact .reading (.of_none hs)
    | some hd =>
      refine .writing (attached_uvWrite ha) hout rfl ?_
      simp [uvWrite, setState, log, hs, not_not.mp hres]

/-- A move that leaves the connection as it was. -/
theorem aside (h : k.Alert) (hkind : k'.kind = k.kind) (hstate : k'.myState = k.myState)
    (hstream : k'.myUvStream = k.myUvStream) (htcp : k'.tcp = k.tcp) : k'.Alert := by
  have hattached : k.Attached → k'.Attached := fun ha hs =>
    (congrArg UvTcp.closing htcp).trans (ha (hstream ▸ hs))
  cases h with
  | reading h =>
    exact .reading (h.aside hstream (congrArg UvTcp.closing htcp) (congrArg UvTcp.reading htcp))
  | connecting ha hout hst => exact .connecting (hattached ha) (hkind ▸ hout) (hstate.trans hst)
  | writing ha hout hst hdue =>
    exact .writing (hattached ha) (hkind ▸ hout) (hstate.trans hst) (htcp ▸ hdue)

theorem publicRule : PublicRule Alert where
  attached h := h.attached
  same hs h := h.aside hs.kind hs.myState hs.myUvStream hs.tcp
  shut _ := .reading (.shut _)
  send m res h := by
    cases h with
    -- `sendMessage` does not stop a reading that was started
    | reading h => exact .reading (h.send m res)
    | connecting ha hout hst => exact of_send ha hout ⟨by simp [hst], by simp [hst]⟩ m res
    | writing ha hout hst => exact of_send ha hout ⟨by simp [hst], by simp [hst]⟩ m res
  violated _ h := h.aside rfl rfl rfl rfl

end Alert

end Client

/-! ## Its callbacks -/

section

variable {σ : Type} [App σ] (uv : Uv) {c : ClientId} {w : World σ}

/-- What the completion of a write starts: `process()` of a connection that is sending. -/
theorem process_sending (hout : (w.clients c).kind ≠ .netClientIn)
    (hst : (w.clients c).myState = .sending) : ∃ f : Client → Client,
      (∀ k : Client, k.SameConn (f k)) ∧
      process uv c w = (doRead uv c (w.modify c f)).1 := by
  unfold process
  cases hk : (w.clients c).kind with
  | netClientIn => exact absurd hk hout
  | netClientOut =>
    refine ⟨fun k => { k with mySendCounter := k.mySendCounter + 1 },
      fun _ => ⟨rfl, rfl, rfl, rfl, rfl⟩, ?_⟩
    unfold NetClientOut.process
    dsimp only
    rw [hst]
  | peerClientOut =>
    refine ⟨fun k => { k with peerSendCounter := k.peerSendCounter + 1 },
      fun _ => ⟨rfl, rfl, rfl, rfl, rfl⟩, ?_⟩
    unfold PeerClientOut.process
    dsimp only
    rw [hst]

/-- `process()` of a connection just established: it greets. -/
theorem alert_greets [ReachesConn σ] (hc : c < w.next) (ha : (w.clients c).Attached)
    (hout : (w.clients c).kind ≠ .netClientIn) (hst : (w.clients c).myState = .connected) :
    HoldsAt Client.Alert c (process uv c w) := by
  have hfirst : ∀ (f : Client → Client) (m : Message), (∀ k : Client, k.SameConn (f k)) →
      HoldsAt Client.Alert c (sendMessage uv c m (w.modify c f)).1 := by
    intro f m hf
    have hk := hf (w.clients c)
    have hattached : (f (w.clients c)).Attached := fun hs =>
      (congrArg UvTcp.closing hk.tcp).trans (ha (hk.myUvStream ▸ hs))
    rw [sendMessage_eq uv (by rw [World.clients_modify_self]; exact hattached)]
    refine ⟨hc, ?_⟩
    rw [World.clients_modify_self, World.clients_modify_self]
    refine .of_send hattached (hk.kind ▸ hout) ⟨?_, ?_⟩ m _
    · rw [hk.myState, hst]
      decide
    · rw [hk.myState, hst]
      decide
  have hJ := Client.Alert.publicRule
  unfold process
  cases hk : (w.clients c).kind with
  | netClientIn => exact absurd hk hout
  | netClientOut =>
    unfold NetClientOut.process
    dsimp only
    rw [hst]
    exact hfirst _ _ fun _ => ⟨rfl, rfl, rfl, rfl, rfl⟩
  | peerClientOut =>
    unfold PeerClientOut.process
    dsimp only
    rw [hst]
    have htimer : HoldsAt Client.Alert c
        (onTimer uv c (w.modify c fun k => { k with myTimer := true })) :=
      ReachesConn.sendOtherPeers hJ uv (hfirst _ _ fun _ => ⟨rfl, rfl, rfl, rfl, rfl⟩)
    have hstarted := hJ.field (f := fun k => { k with timerActive := true, peerSendCounter := 0 })
      (fun _ => ⟨rfl, rfl, rfl, rfl, rfl⟩) htimer
    exact ReachesConn.sendOtherPeers hJ uv (hJ.sendMessage uv _ hstarted)

omit [App σ] in
theorem HoldsAt.alert (h : HoldsAt Client.Reads c w) : HoldsAt Client.Alert c w :=
  ⟨h.1, .reading h.2⟩

/-- A write completes. -/
theorem alert_onWrite [ReachesConn σ] (status : Int) (hc : c < w.next)
    (h : (w.clients c).Reads ∨ (w.clients c).Attached ∧ (w.clients c).kind ≠ .netClientIn ∧
      ((w.clients c).myState = .connecting ∨ (w.clients c).myState = .sending)) :
    HoldsAt Client.Alert c (onWrite uv c status w) := by
  rcases h with hreads | ⟨ha, hout, hst⟩
  · exact (Client.Reads.methodRule.onWrite uv status ⟨hc, hreads⟩).alert
  unfold onWrite
  dsimp only
  generalize hw : (w.modify c fun k => k.assert .onWrite
    (k.myState = .sending || k.myState = .receiving || k.myState = .received)) = w'
  have hsame : (w'.clients c).Attached ∧ (w'.clients c).kind = (w.clients c).kind ∧
      (w'.clients c).myState = (w.clients c).myState := by
    rw [← hw, World.clients_modify_self]
    unfold Client.assert
    split <;> exact ⟨ha, rfl, rfl⟩
  have hc' : c < w'.next := by rw [← hw]; exact hc
  obtain ⟨hattached, hkind, hstate⟩ := hsame
  split
  · rw [close_eq hattached]
    refine ⟨hc', ?_⟩
    rw [World.clients_modify_self]
    exact .reading (.shut _)
  · rcases hst with hst | hst
    · -- too early: `process` has nothing to do in this state
      have hidle : process uv c w' = w'.modify c (·.log (.assertFailed .unhandledState)) := by
        unfold process
        cases hk : (w'.clients c).kind with
        | netClientIn => exact absurd (hkind.symm.trans hk) hout
        | netClientOut | peerClientOut =>
          simp only [NetClientOut.process, PeerClientOut.process, hstate.trans hst]
      rw [hidle]
      refine ⟨hc', ?_⟩
      rw [World.clients_modify_self]
      exact .connecting hattached (hkind ▸ hout) (hstate.trans hst)
    · obtain ⟨f, hf, hprocess⟩ := process_sending uv (w := w') (hkind ▸ hout) (hstate.trans hst)
      have hk := hf (w'.clients c)
      have ha' : (f (w'.clients c)).Attached := fun hs =>
        (congrArg UvTcp.closing hk.tcp).trans (hattached (hk.myUvStream ▸ hs))
      rw [hprocess, doRead_eq uv (by rw [World.clients_modify_self]; exact ha')]
      refine ⟨hc', ?_⟩
      rw [World.clients_modify_self, World.clients_modify_self]
      exact .reading (.read ha' _)

end

/-- **No callback makes a connection deaf.** -/
theorem Client.Alert.keptByCallbacks : KeptByCallbacks Client.Alert := by
  intro σ _ _ uv c w cb hcb h
  obtain ⟨hc, h⟩ := h
  cases cb with
  | connected status =>
    show HoldsAt Client.Alert c (onConnect uv c status (w.modify c fun k =>
      { k with tcp := { k.tcp with connecting := false } }))
    have ha := h.attached
    rw [onConnect_eq]
    split
    · refine ⟨hc, ?_⟩
      rw [World.clients_modify_self]
      cases h with
      | reading h => exact .reading (h.aside rfl rfl rfl)
      | connecting ha hout hst => exact .connecting ha hout hst
      | writing ha hout hst hdue => exact .writing ha hout hst hdue
    · rename_i hconn
      rw [World.clients_modify_self] at hconn
      -- the connection is established, and greets: its write is due
      refine alert_greets uv hc ?_ ?_ ?_
      all_goals
        rw [World.clients_modify_self, World.clients_modify_self]
        obtain ⟨canon, heq⟩ := Client.establish_eq uv c
          { w.clients c with tcp := { (w.clients c).tcp with connecting := false } }
        rw [heq]
      · exact ha
      · exact (not_or.mp hconn).1
      · rfl
  | read nread buf =>
    -- libuv reports data only on a stream it reads
    have hreads : (w.clients c).Reads := ⟨h.attached, fun _ => hcb.1⟩
    exact (Client.Reads.methodRule.onRead uv nread buf ⟨hc, hreads⟩).alert
  | wrote status =>
    refine alert_onWrite uv status hc ?_
    rw [World.clients_modify_self]
    cases h with
    | reading h => exact Or.inl (h.aside rfl rfl rfl)
    | connecting ha hout hst => exact Or.inr ⟨ha, hout, Or.inl hst⟩
    | writing ha hout hst => exact Or.inr ⟨ha, hout, Or.inr hst⟩
  | closed =>
    -- a handle that closes is no longer held
    have hnone : (w.clients c).myUvStream = none := by
      by_contra hs
      have hopen := h.attached (Option.isSome_iff_ne_none.mpr hs)
      exact absurd (hopen.symm.trans hcb.1) (by simp)
    refine Client.Alert.publicRule.onClose hc fun held => .reading (.of_none ?_)
    cases held <;> exact hnone
  | timer => exact Client.Alert.publicRule.onTimer uv ⟨hc, h⟩

theorem Client.Alert.kept : KeptConn Client.Alert where
  newborn h := by
    have hdial : ∀ (k : Client) (res : Int), k.kind ≠ .netClientIn → (k.dial res).Alert := by
      intro k res hout
      obtain ⟨b, hb⟩ := k.dial_eq res
      rw [hb]
      exact .connecting (fun _ => rfl) hout rfl
    cases h with
    | netClientOut host port pingToSend res => exact hdial _ res (by simp [NetClientOut.new])
    | peerClientOut host port res => exact hdial _ res (by simp [PeerClientOut.new])
    | netClientIn addr res => exact .reading (.read (fun _ => rfl) res)
  destroy {k} h := by
    have hs := NodeApp.sameConn_destroy k
    exact h.aside hs.kind hs.myState hs.myUvStream hs.tcp
  callback := keptByCallbacks

/-- **No connection goes deaf**, in any run of any program. -/
theorem alert_programs (p : Program) {es : List p.Event} (hv : p.system.Valid p.init es) :
    p.EachConn Client.Alert (p.system.run p.init es) :=
  fun c hc => Client.Alert.kept.run p hv c hc

theorem alert_programs_brokenOff :
    (((clientSystem .cooperative).run (World.init {}) brokenOff).clients 0).Alert :=
  alert_programs (.client .cooperative) valid_brokenOff 0 (by decide)

/-! ## The completion of a write -/

section

variable {σ : Type} [App σ] (uv : Uv) {c : ClientId} {w : World σ}

/-- Reading starts where libuv does not refuse to. -/
theorem Client.read_started {k : Client} (hs : k.myUvStream.isSome = true) {res : Int}
    (hres : 0 ≤ res) :
    (k.read res).myUvStream = k.myUvStream ∧ (k.read res).tcp.reading = true := by
  have hstarted : ∀ k : Client, k.myUvStream.isSome = true →
      ((k.setState .receiving).uvReadStart res).tcp.reading = true := by
    intro k hs
    simp [uvReadStart, setState, hs, hres]
  have hassert : ∀ b : Bool, (k.assert .doRead b).myUvStream = k.myUvStream := by
    intro b
    unfold assert
    split <;> rfl
  unfold Client.read
  dsimp only
  rw [if_neg (Int.not_lt.mpr hres)]
  exact ⟨hassert _, hstarted _ ((hassert _).symm ▸ hs)⟩

/-- libuv starts to read an open stream that is not read. -/
def Uv.StartsReading (uv : Uv) (c : ClientId) : Prop :=
  ∀ k : Client, k.tcp.closing = false → k.tcp.reading = false → 0 ≤ uv.readStart c k

/-- **The completion of a write starts the reading** of a connection that is sending. -/
theorem callback_wrote (huv : uv.StartsReading c) (ha : (w.clients c).Attached)
    (hout : (w.clients c).kind ≠ .netClientIn) (hst : (w.clients c).myState = .sending)
    (hs : (w.clients c).myUvStream.isSome = true) (hr : (w.clients c).tcp.reading = false) :
    ∃ f : Client → Client, callback uv c w (.wrote 0) = .returns (w.modify c f) ∧
      (f (w.clients c)).Reads ∧ (f (w.clients c)).myUvStream.isSome = true := by
  let dec : Client → Client := fun k => { k with tcp := { k.tcp with writes := k.tcp.writes - 1 } }
  let checked : Client → Client := fun k => k.assert .onWrite
    (k.myState = .sending || k.myState = .receiving || k.myState = .received)
  have hchecked : checked (dec (w.clients c)) = dec (w.clients c) := by
    simp [checked, dec, Client.assert, hst]
  obtain ⟨f, hf, hprocess⟩ := process_sending uv (c := c) (w := (w.modify c dec).modify c checked)
    (by rw [World.clients_modify_self, World.clients_modify_self, hchecked]; exact hout)
    (by rw [World.clients_modify_self, World.clients_modify_self, hchecked]; exact hst)
  -- in this state the assertion of `onWrite` holds, and `process()` only counts before it reads
  have hk := hf (dec (w.clients c))
  have hfst : (((w.modify c dec).modify c checked).modify c f).clients c =
      f (dec (w.clients c)) := by
    rw [World.clients_modify_self, World.clients_modify_self, World.clients_modify_self, hchecked]
  have hstream : (f (dec (w.clients c))).myUvStream.isSome = true := hk.myUvStream ▸ hs
  have hclosing : (f (dec (w.clients c))).tcp.closing = false :=
    (congrArg UvTcp.closing hk.tcp).trans (ha hs)
  have hreading : (f (dec (w.clients c))).tcp.reading = false :=
    (congrArg UvTcp.reading hk.tcp).trans hr
  have hattached : (f (dec (w.clients c))).Attached := fun _ => hclosing
  let res := readAnswer uv c (f (dec (w.clients c)))
  have hres : 0 ≤ res := by
    have htcp : ∀ b : Bool, ((f (dec (w.clients c))).assert .doRead b).tcp =
        (f (dec (w.clients c))).tcp := by
      intro b
      unfold Client.assert
      split <;> rfl
    refine huv _ ?_ ?_
    · exact (congrArg UvTcp.closing (htcp _)).trans hclosing
    · exact (congrArg UvTcp.reading (htcp _)).trans hreading
  refine ⟨fun k => (f (checked (dec k))).read res, ?_, ?_, ?_⟩
  · show Outcome.returns (onWrite uv c 0 (w.modify c dec)) = _
    have hwrite : onWrite uv c 0 (w.modify c dec) =
        process uv c ((w.modify c dec).modify c checked) := by
      unfold onWrite
      dsimp only
      rw [if_neg (by simp)]
    rw [hwrite, hprocess, doRead_eq uv (by rw [hfst]; exact hattached), hfst, World.modify_modify,
      World.modify_modify, World.modify_modify]
    rfl
  · dsimp only
    rw [hchecked]
    exact .read hattached res
  · dsimp only
    rw [hchecked, (Client.read_started hstream hres).1]
    exact hstream

end

/-! ## Delivering a callback -/

namespace ServerApp

theorem net_release (d : ClientId) (w : World ServerApp) : (release d w).net = w.net := by
  unfold release
  split <;> rfl

theorem net_connectionClosed (c : ClientId) (w : World ServerApp) :
    (connectionClosed c w).net = w.net := by
  unfold connectionClosed
  split
  · rfl
  · exact net_release _ _

theorem net_inConnectionReceived (c : ClientId) (w : World ServerApp) :
    (inConnectionReceived c w).net = w.net := by
  rw [inConnectionReceived_eq]
  split
  · rfl
  · exact net_release _ _

theorem robust_net (c : ClientId) (n : NetHandler) :
    Robust c (fun w : World ServerApp => w.net = n) :=
  ⟨fun _ h => h, fun h => (net_connectionClosed c _).trans h, fun _ h => h⟩

/-- What happens on a connection is no matter to the loop thread. -/
theorem robustApp_net (uv : Uv) (c : ClientId) (n : NetHandler) :
    RobustApp uv c (fun w : World ServerApp => w.net = n) where
  toRobust := robust_net c n
  sendOtherPeers h := h
  connected h _ := h
  buffer _ h := h
  message {w line m} _ h := by
    show (messageReceived uv c m (w.modify c (Client.handOver m))).world.net = n
    cases m with
    | handshake myVersion yourAddr myAddr =>
      unfold messageReceived
      dsimp only
      split
      · exact (robust_net c n).close h
      · exact (robust_net c n).sendMessage uv h
    | ping text => exact (robust_net c n).sendMessage uv h
    | _ => exact h

end ServerApp

/-- A server that has connections runs its loop. -/
def Looping (w : World ServerApp) : Prop := 0 < w.next → w.net.bgThread = true

theorem Looping.step {uv : Uv} {s : ServerRun} {e : ServerEvent}
    (ha : (serverSystem uv).allowed s e) (h : Looping s.world) :
    Looping ((serverSystem uv).step s e).world := by
  cases e with
  | listen params =>
    have hlisten : ∀ (n : Nat) (port : Int32) (w : World ServerApp),
        (doListenFrom uv n port w).1.net.bgThread = w.net.bgThread := by
      intro n
      induction n with
      | zero => intro port w; rfl
      | succ n ih =>
        intro port w
        rw [doListenFrom]
        split
        · rfl
        · exact ih _ w
    intro hnext
    obtain ⟨-, -, hcount⟩ := doListenFrom_server uv
      (max (min params.listenPortRange.toInt 10) 1).toNat params.listenPort s.world
    exact (hlisten _ _ _).trans (h (hcount ▸ hnext))
  | startUvLoop =>
    show Looping (serverStep uv s .startUvLoop).world
    unfold serverStep
    dsimp only
    split
    · exact fun _ => rfl
    · exact h
  | setName =>
    show Looping (serverStep uv s .setName).world
    unfold serverStep
    dsimp only
    split <;> exact h
  | newConnection status acceptRes =>
    have hbg : s.world.net.bgThread = true := ha.2.1
    intro _
    show (onNewConnection uv status acceptRes s.world).net.bgThread = true
    unfold onNewConnection
    split
    · exact hbg
    · split
      · exact hbg
      · refine (congrArg NetHandler.bgThread
          ((ServerApp.robust_net s.world.next s.world.net).doRead uv ?_)).trans hbg
        exact ServerApp.net_inConnectionReceived _ _
  | client c cb =>
    have hbg : s.world.net.bgThread = true := ha.2.1
    intro _
    have hnet := (ServerApp.robustApp_net uv c s.world.net).callback cb rfl
    show (callback uv c s.world cb).settle.net.bgThread = true
    cases ho : callback uv c s.world cb with
    | returns w' | throws e w' =>
      rw [ho] at hnet
      exact (congrArg NetHandler.bgThread hnet).trans hbg

namespace Program

/-- The event that delivers a callback. -/
def deliver : (p : Program) → ClientId → Callback → p.Event
  | .client _, c, cb => .client c cb
  | .server _, c, cb => .client c cb
  | .node _, c, cb => .client c cb

variable {p : Program} {c : ClientId} {cb : Callback}

@[simp] theorem callback_deliver : p.callback (p.deliver c cb) = some (c, cb) := by
  cases p <;> rfl

/-- A running process takes the callbacks its connections are due. -/
theorem allowed_deliver {es : List p.Event} (hv : p.system.Valid p.init es)
    (hrunning : p.terminated (p.system.run p.init es) = none)
    (hc : c < p.count (p.system.run p.init es))
    (hcb : cb.allowed (p.conn (p.system.run p.init es) c)) :
    p.system.allowed (p.system.run p.init es) (p.deliver c cb) := by
  cases p with
  | client uv => exact ⟨hrunning, hc, hcb⟩
  | node uv => exact ⟨hrunning, hc, hcb⟩
  | server uv =>
    have hloop := (System.run_invariant (M := serverSystem uv)
      (I := fun s => Looping s.world) (fun _ _ h ha => h.step ha)
      (fun hnext => absurd hnext (Nat.lt_irrefl 0)) hv)
    exact ⟨hrunning, hloop (Nat.zero_lt_of_lt hc), hc, hcb⟩

/-- The write of a sending connection that is not read yet completes. -/
theorem step_wrote {s : p.Process} (huv : p.uv.StartsReading c) (hrunning : p.terminated s = none)
    (hc : c < p.count s) (ha : (p.conn s c).Attached) (hout : (p.conn s c).kind ≠ .netClientIn)
    (hst : (p.conn s c).myState = .sending) (hs : (p.conn s c).myUvStream.isSome = true)
    (hr : (p.conn s c).tcp.reading = false) :
    let s' := p.system.step s (p.deliver c (.wrote 0))
    p.terminated s' = none ∧ c < p.count s' ∧ (p.conn s' c).Reads ∧
      (p.conn s' c).myUvStream.isSome = true := by
  intro s'
  have hclient : ∀ {f : Client → Client} {k : Client}, k = f (p.conn s c) →
      (f (p.conn s c)).Reads ∧ (f (p.conn s c)).myUvStream.isSome = true →
      k.Reads ∧ k.myUvStream.isSome = true := fun hk h => hk ▸ h
  cases p with
  | client uv =>
    obtain ⟨f, hcb, hf⟩ := callback_wrote (w := s) uv huv ha hout hst hs hr
    have hworld : s' = s.modify c f := congrArg Outcome.settle hcb
    rw [hworld]
    exact ⟨hrunning, hc, hclient (World.clients_modify_self s c f) hf⟩
  | server uv =>
    obtain ⟨f, hcb, hf⟩ := callback_wrote (w := s.world) uv huv ha hout hst hs hr
    have hworld : s'.world = s.world.modify c f := congrArg Outcome.settle hcb
    refine ⟨?_, ?_, ?_⟩
    · exact (congrArg World.terminated hworld).trans hrunning
    · show c < s'.world.next
      rw [hworld]
      exact hc
    · refine hclient ?_ hf
      show s'.world.clients c = _
      rw [hworld]
      exact World.clients_modify_self s.world c f
  | node uv =>
    obtain ⟨f, hcb, hf⟩ := callback_wrote (w := s) uv huv ha hout hst hs hr
    have hworld : s' = s.modify c f := congrArg Outcome.settle hcb
    rw [hworld]
    exact ⟨hrunning, hc, hclient (World.clients_modify_self s c f) hf⟩

end Program

/-! ## Bytes on a wire -/

section

variable {ι : Type} [DecidableEq ι] {prog : ι → Program}
  {link : ι → ClientId → Option (ι × ClientId)} {es : List (NetworkEvent prog)}

/-- A read callback that brings these bytes. -/
def Callback.brings (bytes : Str) : Callback := .read bytes.length (some bytes)

theorem takes_brings (p : Program) (c : ClientId) {bytes : Str} (hne : bytes ≠ []) :
    p.component.takes (p.deliver c (.brings bytes)) = some (c, bytes) := by
  have hpos : (0 : Int) < bytes.length := Int.natCast_pos.mpr (List.length_pos_iff.mpr hne)
  show ((p.callback (p.deliver c (.brings bytes))).bind _) = _
  rw [Program.callback_deliver]
  show ((Callback.brings bytes).chunk.map _) = _
  rw [Callback.brings, Callback.chunk, if_pos hpos]
  rfl

theorem takes_wrote (p : Program) (c : ClientId) (status : Int) :
    p.component.takes (p.deliver c (.wrote status)) = none := by
  show ((p.callback (p.deliver c (.wrote status))).bind _) = _
  rw [Program.callback_deliver]
  rfl

/-- A running process of a network takes the callbacks its connections are due. -/
theorem network_allowed (hv : (network prog link).system.Valid (networkInit prog) es) {i : ι}
    {c : ClientId} (hrunning : (prog i).terminated ((networkRun prog link es).node i) = none)
    (hc : c < (prog i).count ((networkRun prog link es).node i)) {cb : Callback}
    (hcb : cb.allowed ((prog i).conn ((networkRun prog link es).node i) c)) :
    (prog i).system.allowed ((networkRun prog link es).node i) ((prog i).deliver c cb) := by
  obtain ⟨hv, hrun⟩ := (network prog link).node_run i hv
  change (networkRun prog link es).node i = (prog i).system.run (prog i).init _ at hrun
  rw [hrun] at hrunning hc hcb ⊢
  exact Program.allowed_deliver hv hrunning hc hcb

theorem networkRun_snoc (e : NetworkEvent prog) :
    networkRun prog link (es ++ [e]) =
      (network prog link).system.step (networkRun prog link es) e :=
  System.run_append _ _ _ _

theorem valid_snoc {e : NetworkEvent prog}
    (hv : (network prog link).system.Valid (networkInit prog) es)
    (ha : (network prog link).system.allowed (networkRun prog link es) e) :
    (network prog link).system.Valid (networkInit prog) (es ++ [e]) :=
  (System.along_snoc _ _ _ _ _).mpr ⟨hv, ha⟩

/-- **A connection that is read** takes in what is on its wire. -/
theorem network_brings (hv : (network prog link).system.Valid (networkInit prog) es) {i : ι}
    {c : ClientId} (hrunning : (prog i).terminated ((networkRun prog link es).node i) = none)
    (hc : c < (prog i).count ((networkRun prog link es).node i))
    (hreads : ((prog i).conn ((networkRun prog link es).node i) c).Reads)
    (hs : ((prog i).conn ((networkRun prog link es).node i) c).myUvStream.isSome = true)
    {rest : Str} (hne : rest ≠ [])
    (hcarries : (network prog link).Carries (networkRun prog link es) i c
      ((networkRun prog link es).taken i c ++ rest)) :
    let es' := es ++ [⟨i, (prog i).deliver c (.brings rest)⟩]
    (network prog link).system.Valid (networkInit prog) es' ∧
      (networkRun prog link es').taken i c = (networkRun prog link es).taken i c ++ rest := by
  intro es'
  have htakes : ((network prog link).component i).takes ((prog i).deliver c (.brings rest)) =
      some (c, rest) := takes_brings (prog i) c hne
  have hbrings : (Callback.brings rest).allowed
      ((prog i).conn ((networkRun prog link es).node i) c) :=
    ⟨hreads.reading hs, hreads.attached hs, fun _ => ⟨rest, rfl, rfl⟩⟩
  refine ⟨valid_snoc hv ⟨network_allowed hv hrunning hc hbrings, fun x hx => ?_⟩, ?_⟩
  · obtain rfl := Option.some.inj (htakes.symm.trans hx)
    exact hcarries
  · rw [networkRun_snoc, Network.taken_self, htakes, Lib.absorb_self]

namespace Proper

/-- A connection is alert, and open while it holds its stream. -/
theorem alert (h : Proper prog link es) {i : ι} {c : ClientId}
    (hc : c < (prog i).count ((networkRun prog link es).node i)) :
    let k := (prog i).conn ((networkRun prog link es).node i) c
    k.Alert ∧ (k.myUvStream.isSome = true → k.tcp.closed = false) := by
  obtain ⟨hv, hrun⟩ := (network prog link).node_run i h.valid
  change (networkRun prog link es).node i = (prog i).system.run (prog i).init _ at hrun
  rw [hrun] at hc ⊢
  exact ⟨Client.Alert.kept.run (prog i) hv c hc,
    (CloseInv.connRule.kept.run (prog i) hv c hc).closed_eq_false⟩

/-- What is on a wire stays on it. -/
theorem carries_snoc (h : Proper prog link es) {e : NetworkEvent prog}
    (ha : (network prog link).system.allowed (networkRun prog link es) e) {i : ι} {c : ClientId}
    {l : Str} (hl : (network prog link).Carries (networkRun prog link es) i c l) :
    (network prog link).Carries (networkRun prog link (es ++ [e])) i c l := by
  have hcontract := contract prog link (Γ := .any) (L := fun _ _ => True) (fun _ _ _ => trivial)
    fun i => ⟨h.ipv4 i, fun c handle => remoteHost_ok (prog i).uv (h.ipv4 i c handle)⟩
  rw [networkRun_snoc]
  exact hcontract.carries_step h.fulfils_any.1 ha hl

/-- **A connection that is not read yet** is, once its write has completed; and what is on its wire
    still is. -/
theorem wrote (h : Proper prog link es) {i : ι} {c : ClientId} (huv : (prog i).uv.StartsReading c)
    (hc : c < (prog i).count ((networkRun prog link es).node i))
    (hs : ((prog i).conn ((networkRun prog link es).node i) c).myUvStream.isSome = true)
    (hst : ((prog i).conn ((networkRun prog link es).node i) c).myState ≠ .connecting)
    (hreads : ¬ ((prog i).conn ((networkRun prog link es).node i) c).Reads) :
    let es' := es ++ [⟨i, (prog i).deliver c (.wrote 0)⟩]
    let n' := networkRun prog link es'
    (network prog link).system.Valid (networkInit prog) es' ∧
      (prog i).terminated (n'.node i) = none ∧ c < (prog i).count (n'.node i) ∧
      ((prog i).conn (n'.node i) c).Reads ∧
      ((prog i).conn (n'.node i) c).myUvStream.isSome = true ∧
      n'.taken i c = (networkRun prog link es).taken i c ∧
      ∀ l, (network prog link).Carries (networkRun prog link es) i c l →
        (network prog link).Carries n' i c l := by
  intro es' n'
  have hrunning := (h.fulfils_any.1 i).running
  obtain ⟨halert, hopen⟩ := h.alert hc
  cases halert with
  | reading hr => exact absurd hr hreads
  | connecting _ _ hst' => exact absurd hst' hst
  | writing hattached hout hst' hdue =>
    -- not read, and not connecting: a write of it is due, whose completion starts the reading
    have hr : ((prog i).conn ((networkRun prog link es).node i) c).tcp.reading = false := by
      by_contra hr
      exact hreads ⟨hattached, fun _ => Bool.not_eq_false _ ▸ hr⟩
    have hwrote : (network prog link).system.allowed (networkRun prog link es)
        ⟨i, (prog i).deliver c (.wrote 0)⟩ := by
      refine ⟨network_allowed h.valid hrunning hc ⟨hdue, hopen hs, fun _ => Or.inr rfl⟩,
        fun x hx => ?_⟩
      exact absurd ((takes_wrote (prog i) c 0).symm.trans hx) (by simp)
    have hnode : n'.node i = (prog i).system.step ((networkRun prog link es).node i)
        ((prog i).deliver c (.wrote 0)) := by
      show (networkRun prog link es').node i = _
      rw [networkRun_snoc, Network.node_self]
      rfl
    have hstep := Program.step_wrote huv hrunning hc hattached hout hst' hs hr
    rw [← hnode] at hstep
    refine ⟨valid_snoc h.valid hwrote, hstep.1, hstep.2.1, hstep.2.2.1, hstep.2.2.2, ?_,
      fun l hl => h.carries_snoc hwrote hl⟩
    show (networkRun prog link es').taken i c = _
    rw [networkRun_snoc, Network.taken_self]
    exact congrArg (Lib.absorb _ · c) (takes_wrote (prog i) c 0)

end Proper

/-- **Nothing is left unheard**: a connection that has got through and holds its stream takes in
    what is on its wire, in one step, or in two: after the completion of the write that starts
    the reading. -/
theorem network_progress (h : Proper prog link es) {i : ι} {c : ClientId}
    (huv : (prog i).uv.StartsReading c)
    (hc : c < (prog i).count ((networkRun prog link es).node i)) {rest : Str} (hne : rest ≠ [])
    (hcarries : (network prog link).Carries (networkRun prog link es) i c
      ((networkRun prog link es).taken i c ++ rest)) :
    let k := (prog i).conn ((networkRun prog link es).node i) c
    k.myUvStream.isSome = true → k.myState ≠ .connecting →
      ∃ later : List (NetworkEvent prog),
        (later = [⟨i, (prog i).deliver c (.brings rest)⟩] ∨
          later = [⟨i, (prog i).deliver c (.wrote 0)⟩, ⟨i, (prog i).deliver c (.brings rest)⟩]) ∧
        (network prog link).system.Valid (networkInit prog) (es ++ later) ∧
        (networkRun prog link (es ++ later)).taken i c =
          (networkRun prog link es).taken i c ++ rest := by
  intro k hs hst
  by_cases hreads : k.Reads
  · exact ⟨_, Or.inl rfl,
      network_brings h.valid (h.fulfils_any.1 i).running hc hreads hs hne hcarries⟩
  · obtain ⟨hv', hrunning', hc', hreads', hs', htaken, hwires⟩ := h.wrote huv hc hs hst hreads
    rw [← htaken] at hcarries ⊢
    have hbrings := network_brings hv' hrunning' hc' hreads' hs' hne (hwires _ hcarries)
    rw [List.append_assoc] at hbrings
    exact ⟨_, Or.inr rfl, hbrings⟩

/-- A client that has its answer before its write has completed. -/
def earlyReply : List (NetworkEvent pair) :=
  [⟨true, ServerEvent.listen { listenPort := 5000, listenPortRange := 1 }⟩,
    ⟨true, ServerEvent.startUvLoop⟩,
    ⟨true, ServerEvent.setName⟩,
    ⟨false, ClientEvent.newClient textLocalhost 5000 1⟩,
    ⟨true, ServerEvent.newConnection 0 0⟩,
    ⟨false, ClientEvent.client 0 (.connected 0)⟩,
    ⟨true, ServerEvent.client 0 (.read 33 (some "HANDSH V01 localhost:5000 _NONE_\n".toList))⟩]

theorem proper_earlyReply : Proper pair joined earlyReply where
  ipv4 i := by cases i <;> exact fun _ _ => rfl
  valid := by decide
  decent := by decide
  short := by decide

theorem startsReading_cooperative (c : ClientId) : Uv.cooperative.StartsReading c := by
  intro k _ hr
  simp [Uv.cooperative, hr]

theorem network_progress_earlyReply : ∃ later : List (NetworkEvent pair),
    (network pair joined).system.Valid (networkInit pair) (earlyReply ++ later) ∧
      (networkRun pair joined (earlyReply ++ later)).taken false 0 =
        "HANDSHRESP V01 :5000 127.0.0.1:35091\n".toList := by
  have hcarries : (network pair joined).Carries (networkRun pair joined earlyReply) false 0
      ((networkRun pair joined earlyReply).taken false 0 ++
        "HANDSHRESP V01 :5000 127.0.0.1:35091\n".toList) := by decide
  obtain ⟨later, -, hv, htaken⟩ := network_progress proper_earlyReply (i := false) (c := 0)
    (startsReading_cooperative 0) (by decide) (by decide) hcarries (by decide) (by decide)
  exact ⟨later, hv, htaken⟩

end

end TcpUv
