import TcpUv.Lib.Loop
import TcpUv.NetHandler
import TcpUv.Proof.Connect

/-!
# What the connection code can do to a world

Said once, for every invariant that follows. Between two places where something of note
happens — a message is sent, bytes are appended or cut, a message is handed over, the app
is called — a connection only moves its own machinery: its state, its stream, its
counters and timer, libuv's view of it, and history entries of no account. `Quiet` is
that relation on clients.

An invariant of worlds that survives quiet moves of a connection, the app's
`connectionClosed`, and the two kinds of message a connection sends on its own account
(`Greets`) is `Robust`; the rules then carry it through `close`, `sendMessage`, `doRead`,
`connect` and `process`. Gossip is the next layer
(`RobustProcess`), and what arrives from the network the last (`RobustApp`); the rule
`RobustApp.callback` says that such a property survives every callback.

A property that only survives some messages is `RobustAppWhen` the messages meet a
condition in the states they are handed over in; a callback of which they all do is one that
`meets` it.
-/

set_option autoImplicit false

namespace TcpUv

open Lib (Turn)

/-- History entries that record neither a message sent nor one handed over. -/
def Act.isQuiet : Act → Bool
  | .sendMessage _ => false
  | .messageReceived _ => false
  | _ => true

/-- A client that moved only its machinery. -/
structure Client.Quiet (k k' : Client) : Prop where
  kind : k'.kind = k.kind
  myPeerAddr : k'.myPeerAddr = k.myPeerAddr
  myCanonPeerAddr : k'.myCanonPeerAddr = k.myCanonPeerAddr
  myHost : k'.myHost = k.myHost
  myPort : k'.myPort = k.myPort
  myReceiveBuffer : k'.myReceiveBuffer = k.myReceiveBuffer
  acts : ∃ l, k'.acts = k.acts ++ l ∧ ∀ a ∈ l, a.isQuiet = true

namespace Client.Quiet

theorem trans {k k' k'' : Client} (h : k.Quiet k') (h' : k'.Quiet k'') : k.Quiet k'' := by
  obtain ⟨l, hl, hq⟩ := h.acts
  obtain ⟨l', hl', hq'⟩ := h'.acts
  refine ⟨h'.kind.trans h.kind, h'.myPeerAddr.trans h.myPeerAddr,
    h'.myCanonPeerAddr.trans h.myCanonPeerAddr, h'.myHost.trans h.myHost,
    h'.myPort.trans h.myPort, h'.myReceiveBuffer.trans h.myReceiveBuffer, l ++ l', ?_, ?_⟩
  · rw [hl', hl, List.append_assoc]
  · intro a ha
    rcases List.mem_append.mp ha with ha | ha
    · exact hq a ha
    · exact hq' a ha

/-- A move that writes no entry. -/
theorem silent {k k' : Client}
    (hk : k' = { k' with kind := k.kind, myPeerAddr := k.myPeerAddr,
                         myCanonPeerAddr := k.myCanonPeerAddr, myHost := k.myHost,
                         myPort := k.myPort, myReceiveBuffer := k.myReceiveBuffer,
                         acts := k.acts }) : k.Quiet k' := by
  rw [hk]
  exact ⟨rfl, rfl, rfl, rfl, rfl, rfl, [], by simp, by simp⟩

/-- A move that writes one entry. -/
theorem of_entry {k k' : Client} {a : Act} (ha : a.isQuiet = true)
    (hk : k' = { k' with kind := k.kind, myPeerAddr := k.myPeerAddr,
                         myCanonPeerAddr := k.myCanonPeerAddr, myHost := k.myHost,
                         myPort := k.myPort, myReceiveBuffer := k.myReceiveBuffer,
                         acts := k.acts ++ [a] }) : k.Quiet k' := by
  rw [hk]
  exact ⟨rfl, rfl, rfl, rfl, rfl, rfl, [a], rfl, by simpa using ha⟩

theorem log {a : Act} (ha : a.isQuiet = true) (k : Client) : k.Quiet (k.log a) :=
  of_entry ha rfl

theorem setState (s : State) (k : Client) : k.Quiet (k.setState s) :=
  of_entry (a := .state s) rfl rfl

theorem assert (site : Assertion) (b : Bool) (k : Client) : k.Quiet (k.assert site b) := by
  unfold Client.assert
  split
  · exact silent rfl
  · exact log rfl k

theorem uvWrite (fr : Str) (res : Int) (k : Client) : k.Quiet (k.uvWrite fr res) :=
  of_entry (a := .uvWrite k.myUvStream fr) rfl rfl

theorem uvReadStart (res : Int) (k : Client) : k.Quiet (k.uvReadStart res) :=
  of_entry (a := .uvReadStart k.myUvStream) rfl rfl

theorem uvClose (h : Handle) (k : Client) : k.Quiet (k.uvClose h) :=
  of_entry (a := .uvClose h) rfl rfl

end Client.Quiet

/-! ## Robust invariants -/

section

variable {σ : Type} [BaseApp σ]

/-- The messages a connection sends on its own account. -/
def Greets (c : ClientId) (w : World σ) (m : Message) : Prop :=
  m = .handshake textV01 (w.clients c).myPeerAddr (BaseApp.getName w.app) ∨
    ∃ n, m = .ping (pingText (BaseApp.getName w.app) (w.clients c).myPeerAddr n)

/-- A property the machinery of the connection `c` cannot break. -/
structure Robust (c : ClientId) (I : World σ → Prop) : Prop where
  quiet : ∀ {w : World σ} {f : Client → Client}, (∀ k : Client, k.Quiet (f k)) → I w → I (w.modify c f)
  connectionClosed : ∀ {w : World σ}, I w → I (BaseApp.connectionClosed c w)
  greets : ∀ {w : World σ} {m : Message}, Greets c w m → I w →
    I (w.modify c (·.log (.sendMessage m)))

namespace Robust

variable {c : ClientId} {I : World σ → Prop} (hI : Robust c I) (uv : Uv) {w : World σ}

include hI

theorem onClose (h : I w) : I (onClose c w) := by
  refine hI.quiet (.setState .closed) (hI.quiet (.log rfl) ?_)
  exact hI.connectionClosed (hI.quiet (.log rfl) h)

theorem close (h : I w) : I (close c w).1 := by
  have hcall : I (w.modify c fun k => (k.log .closeCall).setState .closing) :=
    hI.quiet (fun k => (Client.Quiet.log rfl k).trans (.setState .closing _)) h
  unfold TcpUv.close
  dsimp only
  split
  · exact hcall
  · have hnull := hI.quiet (f := fun k => { k with myUvStream := none })
      (fun _ => .silent rfl) hcall
    split
    · exact hI.onClose hnull
    · exact hI.quiet (.uvClose _) hnull

/-- The rule for `sendMessage`: the invariant has to survive the message itself. -/
theorem sendMessage {m : Message} (h : I (w.modify c (·.log (.sendMessage m)))) :
    I (sendMessage uv c m w).1 := by
  unfold TcpUv.sendMessage
  dsimp only
  split
  · exact h
  · have hwritten := hI.quiet (.uvWrite (frame m) (uv.write c
      (((w.modify c (·.log (.sendMessage m))).modify c (·.setState .sending)).clients c)))
      (hI.quiet (.setState .sending) h)
    split
    · exact hI.close hwritten
    · exact hwritten

theorem doRead (h : I w) : I (doRead uv c w).1 := by
  unfold TcpUv.doRead
  have hassert := hI.quiet (fun k => Client.Quiet.assert .doRead
    (k.myState = .accepted || k.myState = .sent || k.myState = .sending ||
      k.myState = .receiving) k) h
  have hstarted := fun res : Int =>
    hI.quiet (.uvReadStart res) (hI.quiet (.setState .receiving) hassert)
  dsimp only
  split
  · exact hI.close (hstarted _)
  · exact hstarted _

theorem connect (h : I w) : I (connect uv c w).1 := by
  rcases connect_cases uv c w with ⟨-, heq⟩ | ⟨-, res, heq⟩
  · rw [heq]
    exact h
  · rw [heq]
    refine hI.quiet (fun k => ?_) h
    obtain ⟨b, hb⟩ := k.dial_eq res
    rw [hb]
    exact (Client.Quiet.log (a := .connectCall) rfl k).trans
      ((Client.Quiet.setState .connecting _).trans (.silent rfl))

theorem process_netClientOut (h : I w) : I (NetClientOut.process uv c w) := by
  unfold NetClientOut.process
  have hcounter : ∀ n : Int → Int,
      I (w.modify c fun k => { k with mySendCounter := n k.mySendCounter }) := fun _ =>
    hI.quiet (fun _ => .silent rfl) h
  dsimp only
  split
  · exact hI.sendMessage uv (hI.greets (Or.inl rfl) (hcounter fun _ => 0))
  · exact hI.doRead uv (hcounter fun n => n + 1)
  · exact hI.doRead uv h
  · exact hI.doRead uv h
  · split
    · exact hI.close h
    · split
      · exact hI.sendMessage uv (hI.greets (Or.inr ⟨_, rfl⟩) h)
      · exact h
  · exact hI.quiet (.log rfl) h

end Robust

end

/-! ## With the app -/

section

variable {σ : Type} [App σ] (uv : Uv)

/-- A property that the gossip of the app cannot break either. -/
structure RobustProcess (c : ClientId) (I : World σ → Prop) : Prop extends Robust c I where
  sendOtherPeers : ∀ {w : World σ}, I w → I (App.sendOtherPeers uv c w)

/-- A property that neither the machinery of the connection `c` nor the app it calls can
    break, whatever arrives. -/
structure RobustApp (c : ClientId) (I : World σ → Prop) : Prop
    extends RobustProcess uv c I where
  /-- `onConnect` learns the canonical address -/
  connected : ∀ {w : World σ}, I w →
    (getRemoteAddressHostPort uv (uv.getpeername c (w.clients c).tcp.handle)).1 ≠
      (w.clients c).myHost →
    I (w.modify c fun k =>
      { k with myCanonPeerAddr :=
          (getRemoteAddressHostPort uv (uv.getpeername c (w.clients c).tcp.handle)).1 ++
            ':' :: stdToString k.myPort.toInt })
  /-- bytes are appended to the buffer, or a line is cut from it -/
  buffer : ∀ {w : World σ} (f : Client → Str), I w →
    I (w.modify c fun k => k.setReceiveBuffer (f k))
  /-- a line that parses is handed over -/
  message : ∀ {w : World σ} {line : Str} {m : Message}, parseLine line = .ok (some m) → I w →
    I (App.messageReceived uv c m (w.modify c (Client.handOver m))).world

namespace RobustProcess

variable {uv} {c : ClientId} {I : World σ → Prop} (hI : RobustProcess uv c I) {w : World σ}

include hI

theorem onTimer (h : I w) : I (onTimer uv c w) :=
  hI.sendOtherPeers (hI.sendMessage uv (hI.greets (Or.inr ⟨_, rfl⟩) h))

theorem process_peerClientOut (h : I w) : I (PeerClientOut.process uv c w) := by
  unfold PeerClientOut.process
  dsimp only
  split
  · have htimer := hI.quiet (f := fun k => { k with myTimer := true })
      (fun _ => .silent rfl) h
    have hstarted := hI.quiet (f := fun k => { k with timerActive := true, peerSendCounter := 0 })
      (fun _ => .silent rfl) (hI.onTimer htimer)
    exact hI.sendOtherPeers (hI.sendMessage uv (hI.greets (Or.inl rfl) hstarted))
  · exact hI.doRead uv (hI.quiet (fun _ => .silent rfl) h)
  · exact hI.doRead uv h
  · exact hI.doRead uv h
  · exact h
  · exact hI.quiet (.log rfl) h

theorem process (h : I w) : I (process uv c w) := by
  unfold TcpUv.process
  split
  · exact h
  · exact hI.process_netClientOut uv h
  · exact hI.process_peerClientOut h

end RobustProcess

/-! ### The receive loop, turn by turn -/

section

variable (c : ClientId)

/-- One turn of the loop of `doProcessReceivedBuffer`. -/
def loopTurn (w : World σ) : Turn (World σ) (Outcome σ) :=
  match cutLine (w.clients c).myReceiveBuffer with
  | .error e => .exit (.throws e w)
  | .ok none => .exit (.returns w)
  | .ok (some (msg1, rest)) =>
      let w := w.modify c (Client.setReceiveBuffer rest)
      match parseLine msg1 with
      | .error e => .exit (.throws e w)
      | .ok none => .again w
      | .ok (some msg) =>
          match App.messageReceived uv c msg (w.modify c (Client.handOver msg)) with
          | .returns w => .again w
          | .throws e w => .exit (.throws e w)

/-- What one turn can be. -/
inductive TurnTaken (w : World σ) : Turn (World σ) (Outcome σ) → Prop where
  /-- `substr` throws -/
  | broken {e : StdException} (hcut : cutLine (w.clients c).myReceiveBuffer = .error e) :
      TurnTaken w (.exit (.throws e w))
  /-- no terminator is seen -/
  | done (hcut : cutLine (w.clients c).myReceiveBuffer = .ok none) :
      TurnTaken w (.exit (.returns w))
  /-- the parser throws on the line -/
  | malformed {line rest : Str} {e : StdException}
      (hcut : cutLine (w.clients c).myReceiveBuffer = .ok (some (line, rest)))
      (hline : parseLine line = .error e) :
      TurnTaken w (.exit (.throws e (w.modify c (Client.setReceiveBuffer rest))))
  /-- the line is no message -/
  | skipped {line rest : Str}
      (hcut : cutLine (w.clients c).myReceiveBuffer = .ok (some (line, rest)))
      (hline : parseLine line = .ok none) :
      TurnTaken w (.again (w.modify c (Client.setReceiveBuffer rest)))
  /-- the app takes the message -/
  | taken {line rest : Str} {m : Message} {w' : World σ}
      (hcut : cutLine (w.clients c).myReceiveBuffer = .ok (some (line, rest)))
      (hline : parseLine line = .ok (some m))
      (hgot : App.messageReceived uv c m ((w.modify c (Client.setReceiveBuffer rest)).modify c
        (Client.handOver m)) = .returns w') :
      TurnTaken w (.again w')
  /-- the app throws on the message -/
  | refused {line rest : Str} {m : Message} {e : StdException} {w' : World σ}
      (hcut : cutLine (w.clients c).myReceiveBuffer = .ok (some (line, rest)))
      (hline : parseLine line = .ok (some m))
      (hgot : App.messageReceived uv c m ((w.modify c (Client.setReceiveBuffer rest)).modify c
        (Client.handOver m)) = .throws e w') :
      TurnTaken w (.exit (.throws e w'))

theorem turnTaken_loopTurn (w : World σ) : TurnTaken uv c w (loopTurn uv c w) := by
  unfold loopTurn
  cases hcut : cutLine (w.clients c).myReceiveBuffer with
  | error e => exact .broken hcut
  | ok cut =>
    cases cut with
    | none => exact .done hcut
    | some cut =>
      obtain ⟨line, rest⟩ := cut
      dsimp only
      cases hline : parseLine line with
      | error e => exact .malformed hcut hline
      | ok om =>
        cases om with
        | none => exact .skipped hcut hline
        | some m =>
          dsimp only
          cases hgot : App.messageReceived uv c m
              ((w.modify c (Client.setReceiveBuffer rest)).modify c (Client.handOver m)) with
          | returns w' => exact .taken hcut hline hgot
          | throws e w' => exact .refused hcut hline hgot

/-- The loop takes a turn, and goes on from where that leads. -/
theorem receiveLoop_succ (fuel : Nat) (w : World σ) :
    receiveLoop uv c (fuel + 1) w =
      match loopTurn uv c w with
      | .exit o => o
      | .again w' => receiveLoop uv c fuel w' := by
  rw [receiveLoop, loopTurn]
  cases cutLine (w.clients c).myReceiveBuffer with
  | error e => rfl
  | ok cut =>
    cases cut with
    | none => rfl
    | some cut =>
      dsimp only
      cases parseLine cut.1 with
      | error e => rfl
      | ok om =>
        cases om with
        | none => rfl
        | some m =>
          dsimp only
          cases App.messageReceived uv c m
              ((w.modify c (Client.setReceiveBuffer cut.2)).modify c (Client.handOver m)) with
          | returns w' => rfl
          | throws e w' => rfl

theorem receiveLoop_eq_run : ∀ (fuel : Nat) (w : World σ),
    receiveLoop uv c fuel w = Turn.run (loopTurn uv c) .returns fuel w := by
  intro fuel
  induction fuel with
  | zero => intro w; rfl
  | succ fuel ih =>
    intro w
    rw [receiveLoop_succ, Turn.run]
    cases loopTurn uv c w with
    | exit o => rfl
    | again w' => exact ih w'

/-! ### What `onRead` comes to -/

variable {c} {nread : Int}

theorem onRead_ends (h : ¬ 0 < nread) (buf : Option Str) (w : World σ) :
    onRead uv c nread buf w = .returns (close c w).1 := by
  unfold onRead
  split
  · rfl
  · rw [if_pos (by omega)]

theorem onRead_null (hpos : 0 < nread) (w : World σ) :
    onRead uv c nread none w = .returns (process uv c w) := by
  unfold onRead
  rw [if_neg (by omega), if_neg (by omega)]
  rfl

theorem onRead_data (hpos : 0 < nread) (base : Str) (w : World σ) :
    onRead uv c nread (some base) w =
      (doProcessReceivedBuffer uv c (w.modify c fun k =>
        k.setReceiveBuffer (k.myReceiveBuffer ++ base.take nread.toNat))).andThen fun w =>
          .returns (process uv c w) := by
  unfold onRead
  rw [if_neg (by omega), if_neg (by omega)]

/-- `onClose` under an app that lets connections go without a word. -/
theorem clients_onClose (happ : ∀ w : World σ, BaseApp.connectionClosed c w = w) (w : World σ) :
    (onClose c w).clients c =
      (((w.clients c).log .connectionClosed).log .deleteHandle).setState .closed := by
  rw [onClose, happ, World.clients_modify_self, World.clients_modify_self,
    World.clients_modify_self]

end

/-! ### Messages that meet a condition -/

section

variable (c : ClientId) (P : Message → World σ → Prop)

/-- Every message the receive loop hands over meets `P` where it is handed over. -/
def loopMeets : Nat → World σ → Prop
  | 0, _ => True
  | fuel + 1, w =>
      match cutLine (w.clients c).myReceiveBuffer with
      | .error _ => True
      | .ok none => True
      | .ok (some (msg1, rest)) =>
          let w := w.modify c (Client.setReceiveBuffer rest)
          match parseLine msg1 with
          | .error _ => True
          | .ok none => loopMeets fuel w
          | .ok (some msg) =>
              let w := w.modify c (Client.handOver msg)
              P msg w ∧
                match App.messageReceived uv c msg w with
                | .returns w => loopMeets fuel w
                | .throws _ _ => True

/-- … and so does every one a callback brings. -/
def Callback.meets (w : World σ) : Callback → Prop
  | .read nread (some base) =>
      let w := w.modify c fun k => k.setReceiveBuffer (k.myReceiveBuffer ++ base.take nread.toNat)
      0 < nread → loopMeets uv c P (w.clients c).myReceiveBuffer.length w
  | _ => True

instance decidableLoopMeets [∀ m w, Decidable (P m w)] : ∀ (fuel : Nat) (w : World σ),
    Decidable (loopMeets uv c P fuel w)
  | 0, _ => .isTrue trivial
  | fuel + 1, w =>
      match hcut : cutLine (w.clients c).myReceiveBuffer with
      | .error _ => .isTrue (by rw [loopMeets, hcut]; trivial)
      | .ok none => .isTrue (by rw [loopMeets, hcut]; trivial)
      | .ok (some (msg1, rest)) =>
          let w' := w.modify c (Client.setReceiveBuffer rest)
          match hline : parseLine msg1 with
          | .error _ => .isTrue (by rw [loopMeets, hcut]; dsimp only; rw [hline]; trivial)
          | .ok none =>
              have := decidableLoopMeets fuel w'
              decidable_of_iff (loopMeets uv c P fuel w')
                (by rw [loopMeets, hcut]; dsimp only; rw [hline])
          | .ok (some msg) =>
              match ho : App.messageReceived uv c msg (w'.modify c (Client.handOver msg)) with
              | .returns w'' =>
                  have := decidableLoopMeets fuel w''
                  decidable_of_iff (P msg (w'.modify c (Client.handOver msg)) ∧
                      loopMeets uv c P fuel w'')
                    (by rw [loopMeets, hcut]; dsimp only; rw [hline]; dsimp only [w'] at ho ⊢; rw [ho])
              | .throws _ _ =>
                  decidable_of_iff (P msg (w'.modify c (Client.handOver msg)))
                    (by rw [loopMeets, hcut]; dsimp only; rw [hline]; dsimp only [w'] at ho ⊢
                        rw [ho, and_true])

instance Callback.decidableMeets [∀ m w, Decidable (P m w)] (w : World σ) :
    ∀ cb : Callback, Decidable (cb.meets uv c P w)
  | .read nread (some base) => inferInstanceAs (Decidable (0 < nread → loopMeets uv c P
      ((w.modify c fun k =>
        k.setReceiveBuffer (k.myReceiveBuffer ++ base.take nread.toNat)).clients c).myReceiveBuffer.length
      (w.modify c fun k => k.setReceiveBuffer (k.myReceiveBuffer ++ base.take nread.toNat))))
  | .read _ none => .isTrue trivial
  | .connected _ => .isTrue trivial
  | .wrote _ => .isTrue trivial
  | .closed => .isTrue trivial
  | .timer => .isTrue trivial

variable {P}

theorem loopMeets_of_forall (h : ∀ m w, P m w) : ∀ (fuel : Nat) (w : World σ),
    loopMeets uv c P fuel w := by
  intro fuel
  induction fuel with
  | zero => intro w; trivial
  | succ fuel ih =>
    intro w
    rw [loopMeets]
    split
    · trivial
    · trivial
    · dsimp only
      split
      · trivial
      · exact ih _
      · refine ⟨h _ _, ?_⟩
        split
        · exact ih _
        · trivial

theorem Callback.meets_of_forall (h : ∀ m w, P m w) (w : World σ) (cb : Callback) :
    cb.meets uv c P w := by
  cases cb with
  | read nread buf =>
    cases buf with
    | none => trivial
    | some base => exact fun _ => loopMeets_of_forall uv c h _ _
  | connected => trivial
  | wrote => trivial
  | closed => trivial
  | timer => trivial

end

/-- `RobustApp`, of the messages that meet a condition. -/
structure RobustAppWhen (c : ClientId) (P : Message → World σ → Prop) (I : World σ → Prop) : Prop
    extends RobustProcess uv c I where
  connected : ∀ {w : World σ}, I w →
    (getRemoteAddressHostPort uv (uv.getpeername c (w.clients c).tcp.handle)).1 ≠
      (w.clients c).myHost →
    I (w.modify c fun k =>
      { k with myCanonPeerAddr :=
          (getRemoteAddressHostPort uv (uv.getpeername c (w.clients c).tcp.handle)).1 ++
            ':' :: stdToString k.myPort.toInt })
  buffer : ∀ {w : World σ} (f : Client → Str), I w →
    I (w.modify c fun k => k.setReceiveBuffer (f k))
  message : ∀ {w : World σ} {line : Str} {m : Message}, parseLine line = .ok (some m) →
    P m (w.modify c (Client.handOver m)) → I w →
    I (App.messageReceived uv c m (w.modify c (Client.handOver m))).world

namespace RobustAppWhen

variable {uv} {c : ClientId} {P : Message → World σ → Prop} {I : World σ → Prop}
  (hI : RobustAppWhen uv c P I) {w : World σ}

include hI

theorem onConnect (status : Int) (h : I w) : I (onConnect uv c status w) := by
  unfold TcpUv.onConnect
  split
  · exact h
  · split
    · exact h
    · dsimp only
      refine hI.process (hI.quiet (.setState .connected) ?_)
      split
      · rename_i hhost
        exact hI.connected h hhost
      · exact h

theorem onWrite (status : Int) (h : I w) : I (onWrite uv c status w) := by
  have hassert := hI.quiet (fun k => Client.Quiet.assert .onWrite
    (k.myState = .sending || k.myState = .receiving || k.myState = .received) k) h
  unfold TcpUv.onWrite
  dsimp only
  split
  · exact hI.close hassert
  · exact hI.process hassert

/-- The receive loop, by cases of the turn it takes. -/
theorem receiveLoop : ∀ (fuel : Nat) {w : World σ}, loopMeets uv c P fuel w → I w →
    I (receiveLoop uv c fuel w).world := by
  intro fuel
  induction fuel with
  | zero => intro w _ h; exact h
  | succ fuel ih =>
    intro w hmeets h
    rw [receiveLoop_succ]
    rw [loopMeets] at hmeets
    have hturn := turnTaken_loopTurn uv c w
    generalize loopTurn uv c w = t at hturn ⊢
    cases hturn with
    | broken | done => exact h
    | @malformed line rest => exact hI.buffer (fun _ => rest) h
    | @skipped line rest hcut hline =>
      simp only [hcut, hline] at hmeets
      exact ih hmeets (hI.buffer (fun _ => rest) h)
    | @taken line rest m w' hcut hline hgot =>
      simp only [hcut, hline, hgot] at hmeets
      have hreceived := hI.message hline hmeets.1 (hI.buffer (fun _ => rest) h)
      rw [hgot] at hreceived
      exact ih hmeets.2 hreceived
    | @refused line rest m e w' hcut hline hgot =>
      simp only [hcut, hline, hgot] at hmeets
      have hreceived := hI.message hline hmeets.1 (hI.buffer (fun _ => rest) h)
      rw [hgot] at hreceived
      exact hreceived

theorem onRead (nread : Int) (buf : Option Str) (hmeets : (Callback.read nread buf).meets uv c P w)
    (h : I w) : I (onRead uv c nread buf w).world := by
  by_cases hpos : 0 < nread
  · cases buf with
    | none =>
      rw [onRead_null uv hpos]
      exact hI.process h
    | some base =>
      rw [onRead_data uv hpos]
      refine Outcome.world_andThen ?_ fun _ => hI.process
      exact hI.receiveLoop _ (hmeets hpos)
        (hI.buffer (fun k => k.myReceiveBuffer ++ base.take nread.toNat) h)
  · rw [onRead_ends uv hpos]
    exact hI.close h

/-- **Every callback whose messages meet the condition preserves it.** -/
theorem callback (cb : Callback) (hmeets : cb.meets uv c P w) (h : I w) :
    I (callback uv c w cb).world := by
  have htcp : ∀ g : UvTcp → UvTcp, I (w.modify c fun k => { k with tcp := g k.tcp }) := fun g =>
    hI.quiet (fun _ => .silent rfl) h
  cases cb with
  | connected status => exact hI.onConnect status (htcp fun t => { t with connecting := false })
  | read nread buf => exact hI.onRead nread buf hmeets h
  | wrote status => exact hI.onWrite status (htcp fun t => { t with writes := t.writes - 1 })
  | closed => exact hI.onClose (htcp fun t => { t with closed := true })
  | timer => exact hI.onTimer h

end RobustAppWhen

namespace RobustApp

variable {uv} {c : ClientId} {I : World σ → Prop} (hI : RobustApp uv c I) {w : World σ}

include hI

/-- No condition is one that every message meets. -/
theorem anyMessage : RobustAppWhen uv c (fun _ _ => True) I where
  toRobustProcess := hI.toRobustProcess
  connected := hI.connected
  buffer := hI.buffer
  message hline _ h := hI.message hline h

/-- **Every callback preserves it.** -/
theorem callback (cb : Callback) (h : I w) : I (callback uv c w cb).world :=
  hI.anyMessage.callback cb (cb.meets_of_forall uv c (fun _ _ => trivial) w) h

end RobustApp

end

end TcpUv
