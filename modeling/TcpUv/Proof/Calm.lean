import TcpUv.Proof.Conn
import TcpUv.Proof.Rules

/-!
# What a callback does that is not the last one

`RobustApp` carries an invariant through every callback, and pays for it: `close()` may run
into `onClose`, so the invariant has to survive the app's `connectionClosed`. On a client
that is `Attached` it never does, and every callback but the close callback is a sequence of
calm moves and calls into the app. `Calm` is such a move: the stream stays in order and the
destructor does not run.
-/

set_option autoImplicit false

namespace TcpUv

namespace Client

/-- A move of a client that is not destroyed by it. Its class and its address are what they are. -/
structure Calm (k k' : Client) : Prop where
  kind : k'.kind = k.kind
  myPeerAddr : k'.myPeerAddr = k.myPeerAddr
  attached : k.Attached → k'.Attached
  acts : ∃ l, k'.acts = k.acts ++ l ∧ .destructor ∉ l

/-- A client that can be called back. -/
structure Sound (k : Client) : Prop where
  attached : k.Attached
  alive : .destructor ∉ k.acts

namespace Calm

variable {k k' k'' : Client}

theorem sound (h : k.Calm k') (hs : k.Sound) : k'.Sound := by
  obtain ⟨l, hl, hnone⟩ := h.acts
  refine ⟨h.attached hs.attached, ?_⟩
  rw [hl, List.mem_append]
  exact fun hm => hm.elim hs.alive hnone

theorem refl (k : Client) : k.Calm k := ⟨rfl, rfl, id, [], (List.append_nil _).symm, by simp⟩

theorem trans (h : k.Calm k') (h' : k'.Calm k'') : k.Calm k'' := by
  obtain ⟨l, hl, hnone⟩ := h.acts
  obtain ⟨l', hl', hnone'⟩ := h'.acts
  refine ⟨h'.kind.trans h.kind, h'.myPeerAddr.trans h.myPeerAddr,
    fun ha => h'.attached (h.attached ha), l ++ l', ?_, ?_⟩
  · rw [hl', hl, List.append_assoc]
  · intro hm
    rcases List.mem_append.mp hm with hm | hm
    · exact hnone hm
    · exact hnone' hm

theorem log {a : Act} (ha : a ≠ .destructor) (k : Client) : k.Calm (k.log a) :=
  ⟨rfl, rfl, id, [a], rfl, by simpa using ha.symm⟩

theorem setState (s : State) (k : Client) : k.Calm (k.setState s) :=
  ⟨rfl, rfl, id, [.state s], rfl, by simp⟩

theorem assert (site : Assertion) (b : Bool) (k : Client) : k.Calm (k.assert site b) := by
  unfold Client.assert
  split
  · exact refl k
  · exact log (by simp) k

theorem uvWrite (fr : Str) (res : Int) (k : Client) : k.Calm (k.uvWrite fr res) :=
  ⟨rfl, rfl, attached_uvWrite, [.uvWrite k.myUvStream fr], rfl, by simp⟩

theorem shut (k : Client) : k.Calm k.shut := by
  refine ⟨kind_shut k, myPeerAddr_shut k, fun _ => attached_shut k, ?_⟩
  unfold Client.shut
  split
  · exact ⟨[.closeCall, .state .closing], by simp [Client.setState, Client.log], by simp⟩
  · rename_i hd _
    refine ⟨[.closeCall, .state .closing, .uvClose hd], ?_, by simp⟩
    simp [Client.setState, Client.log, Client.uvClose]

theorem send (m : Message) (res : Int) (k : Client) : k.Calm (k.send m res) := by
  have hlog : k.Calm (k.log (.sendMessage m)) := log (by simp) k
  have hwritten := (hlog.trans (setState .sending _)).trans (uvWrite (frame m) res _)
  unfold Client.send
  split
  · exact hlog
  · split
    · exact hwritten.trans (shut _)
    · exact hwritten

theorem read (res : Int) (k : Client) : k.Calm (k.read res) := by
  have hassert := assert .doRead (k.myState = .accepted || k.myState = .sent ||
    k.myState = .sending || k.myState = .receiving) k
  have hstarted : k.Calm (((k.assert .doRead (k.myState = .accepted || k.myState = .sent ||
      k.myState = .sending || k.myState = .receiving)).setState .receiving).uvReadStart res) :=
    (hassert.trans (setState .receiving _)).trans
      ⟨rfl, rfl, attached_uvReadStart, [.uvReadStart _], rfl, by simp⟩
  unfold Client.read
  dsimp only
  split
  · exact hstarted.trans (shut _)
  · exact hstarted

end Calm

end Client

/-! ## The rules -/

section

variable {σ : Type} [App σ] (uv : Uv)

/-- A property that holds of attached clients only, and that neither a calm move of the
    connection `c` nor the app it calls can break. -/
structure CalmApp (c : ClientId) (I : World σ → Prop) : Prop where
  attached : ∀ {w : World σ}, I w → (w.clients c).Attached
  move : ∀ {w : World σ} {f : Client → Client}, (w.clients c).Calm (f (w.clients c)) → I w →
    I (w.modify c f)
  sendOtherPeers : ∀ {w : World σ}, I w → I (App.sendOtherPeers uv c w)
  messageReceived : ∀ {w : World σ} (m : Message), I w → I (App.messageReceived uv c m w).world

namespace CalmApp

variable {uv} {c : ClientId} {I : World σ → Prop} (hI : CalmApp uv c I) {w : World σ}

include hI

theorem close (h : I w) : I (close c w).1 := by
  rw [close_eq (hI.attached h)]
  exact hI.move (.shut _) h

theorem sendMessage (m : Message) (h : I w) : I (sendMessage uv c m w).1 := by
  rw [sendMessage_eq uv (hI.attached h)]
  exact hI.move (.send _ _ _) h

theorem doRead (h : I w) : I (doRead uv c w).1 := by
  rw [doRead_eq uv (hI.attached h)]
  exact hI.move (.read _ _) h

/-- A move that leaves the stream and the history alone. -/
theorem still {f : Client → Client} (hkind : (f (w.clients c)).kind = (w.clients c).kind)
    (haddr : (f (w.clients c)).myPeerAddr = (w.clients c).myPeerAddr)
    (hstream : (f (w.clients c)).myUvStream = (w.clients c).myUvStream)
    (hclosing : (f (w.clients c)).tcp.closing = (w.clients c).tcp.closing)
    (hacts : (f (w.clients c)).acts = (w.clients c).acts) (h : I w) : I (w.modify c f) := by
  refine hI.move ⟨hkind, haddr, fun ha hs => ?_, [], ?_, by simp⟩ h
  · rw [hstream] at hs
    exact hclosing.trans (ha hs)
  · rw [hacts, List.append_nil]

theorem process_netClientOut (h : I w) : I (NetClientOut.process uv c w) := by
  unfold NetClientOut.process
  dsimp only
  split
  · exact hI.sendMessage _ (hI.still rfl rfl rfl rfl rfl h)
  · exact hI.doRead (hI.still rfl rfl rfl rfl rfl h)
  · exact hI.doRead h
  · exact hI.doRead h
  · split
    · exact hI.close h
    · split
      · exact hI.sendMessage _ h
      · exact h
  · exact hI.move (.log (by simp) _) h

theorem onTimer (h : I w) : I (onTimer uv c w) := hI.sendOtherPeers (hI.sendMessage _ h)

theorem process_peerClientOut (h : I w) : I (PeerClientOut.process uv c w) := by
  unfold PeerClientOut.process
  dsimp only
  split
  · have htimer : I (w.modify c fun k => { k with myTimer := true }) :=
      hI.still rfl rfl rfl rfl rfl h
    have hstarted := hI.still (f := fun k => { k with timerActive := true, peerSendCounter := 0 })
      rfl rfl rfl rfl rfl (hI.onTimer htimer)
    exact hI.sendOtherPeers (hI.sendMessage _ hstarted)
  · exact hI.doRead (hI.still rfl rfl rfl rfl rfl h)
  · exact hI.doRead h
  · exact hI.doRead h
  · exact h
  · exact hI.move (.log (by simp) _) h

theorem process (h : I w) : I (process uv c w) := by
  unfold TcpUv.process
  split
  · exact h
  · exact hI.process_netClientOut h
  · exact hI.process_peerClientOut h

theorem onConnect (status : Int) (h : I w) : I (onConnect uv c status w) := by
  unfold TcpUv.onConnect
  split
  · exact h
  · split
    · exact h
    · dsimp only
      apply hI.process
      apply hI.move (.setState _ _)
      split
      · exact hI.still rfl rfl rfl rfl rfl h
      · exact h

theorem onWrite (status : Int) (h : I w) : I (onWrite uv c status w) := by
  unfold TcpUv.onWrite
  have hassert : I (w.modify c fun k => k.assert .onWrite
      (k.myState = .sending || k.myState = .receiving || k.myState = .received)) :=
    hI.move (.assert _ _ _) h
  dsimp only
  split
  · exact hI.close hassert
  · exact hI.process hassert

/-- The receive loop, by cases of the turn it takes. -/
theorem receiveLoop : ∀ (fuel : Nat) {w : World σ}, I w → I (receiveLoop uv c fuel w).world := by
  intro fuel
  induction fuel with
  | zero => intro w h; exact h
  | succ fuel ih =>
    intro w h
    have hrest : ∀ rest, I (w.modify c (Client.setReceiveBuffer rest)) :=
      fun rest => hI.still rfl rfl rfl rfl rfl h
    have hgiven : ∀ rest m, I (App.messageReceived uv c m
        ((w.modify c (Client.setReceiveBuffer rest)).modify c (Client.handOver m))).world :=
      fun rest m => hI.messageReceived m (hI.move (f := Client.handOver m)
        ((Client.Calm.setState .received _).trans (.log (by simp) _)) (hrest rest))
    rw [receiveLoop_succ]
    have hturn := turnTaken_loopTurn uv c w
    generalize loopTurn uv c w = t at hturn ⊢
    cases hturn with
    | broken | done => exact h
    | malformed => exact hrest _
    | skipped => exact ih (hrest _)
    | @taken line rest m w' hcut hline hgot =>
      have hm := hgiven rest m
      rw [hgot] at hm
      exact ih hm
    | @refused line rest m e w' hcut hline hgot =>
      have hm := hgiven rest m
      rw [hgot] at hm
      exact hm

theorem onRead (nread : Int) (buf : Option Str) (h : I w) : I (onRead uv c nread buf w).world := by
  by_cases hpos : 0 < nread
  · cases buf with
    | none =>
      rw [onRead_null uv hpos]
      exact hI.process h
    | some base =>
      rw [onRead_data uv hpos]
      refine Outcome.world_andThen ?_ fun _ => hI.process
      exact hI.receiveLoop _ (hI.still rfl rfl rfl rfl rfl h)
  · rw [onRead_ends uv hpos]
    exact hI.close h

/-- **Every callback but the last preserves it.** -/
theorem callback {cb : Callback} (hcb : cb ≠ .closed) (h : I w) : I (callback uv c w cb).world := by
  cases cb with
  | connected status => exact hI.onConnect status (hI.still rfl rfl rfl rfl rfl h)
  | read nread buf => exact hI.onRead nread buf h
  | wrote status => exact hI.onWrite status (hI.still rfl rfl rfl rfl rfl h)
  | closed => exact absurd rfl hcb
  | timer => exact hI.onTimer h

end CalmApp

end

end TcpUv
