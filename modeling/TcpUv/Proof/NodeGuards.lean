import TcpUv.Proof.Candidates
import TcpUv.Proof.Local
import TcpUv.Proof.Wire

/-!
# A node that is told only so much

`NodeInvariant` asks a property to survive whatever arrives. A property about where a node's
knowledge comes from does not: it holds as long as the messages the node is handed meet a
condition, and the ports it listens on and the parameters it is started with meet theirs.
`GuardedNode` is the rule for such properties, and `GuardedNode.step` what it comes to for one
event.

What a callback hands over can be read off the buffer beforehand (`meets_of_delivers`), because
nothing a node does while it serves the messages touches the buffer.
-/

set_option autoImplicit false

namespace TcpUv

open Lib (Turn segments)
open NodeApp

/-! ## What a callback hands over -/

section

variable {σ : Type} [App σ] [KeepsInbox σ] (uv : Uv) {c : ClientId} {Q : Message → Prop}

theorem loopMeets_of_cuts : ∀ (fuel : Nat) {w : World σ}, c < w.next →
    (∀ m ∈ (cuts fuel (w.clients c).myReceiveBuffer).1.filterMap Prod.snd, Q m) →
    loopMeets uv c (fun m _ => Q m) fuel w := by
  intro fuel
  induction fuel with
  | zero => intro w _ _; trivial
  | succ fuel ih =>
    intro w hc hQ
    rw [loopMeets]
    rw [cuts] at hQ
    cases hcut : cutLine (w.clients c).myReceiveBuffer with
    | error e => trivial
    | ok cut =>
      cases cut with
      | none => trivial
      | some cut =>
        obtain ⟨line, rest⟩ := cut
        rw [hcut] at hQ
        dsimp only at hQ ⊢
        have hbuffer : ((w.modify c (Client.setReceiveBuffer rest)).clients c).myReceiveBuffer =
            rest := by
          rw [World.clients_modify_self]
          rfl
        cases hline : parseLine line with
        | error e => trivial
        | ok om =>
          rw [hline] at hQ
          dsimp only at hQ ⊢
          cases om with
          | none => exact ih hc (by rw [hbuffer]; exact hQ)
          | some m =>
            refine ⟨hQ m (by simp), ?_⟩
            -- the app leaves the rest of the buffer alone
            have hin : HasInbox c ((w.clients c).myReceiveBuffer, (w.clients c).delivered) w :=
              ⟨hc, rfl⟩
            have hgiven := (hin.cut rest).handOver m
            have hkept := KeepsInbox.messageReceived uv (wf_of_parseLine hline) hgiven
            cases hgot : App.messageReceived uv c m
                ((w.modify c (Client.setReceiveBuffer rest)).modify c (Client.handOver m)) with
            | throws e w' => trivial
            | returns w' =>
              rw [hgot] at hkept
              have hrest : (w'.clients c).myReceiveBuffer = rest := congrArg Prod.fst hkept.2
              refine ih hkept.1 ?_
              rw [hrest]
              exact fun m' hm' => hQ m' (by
                rw [List.filterMap_cons_some (f := Prod.snd) (a := (rest, some m)) rfl]
                exact List.mem_cons_of_mem m hm')

/-- What the buffer yields is what the app is handed. -/
theorem meets_of_delivers {w : World σ} (hc : c < w.next) {cb : Callback}
    (hQ : ∀ m ∈ cb.delivers (w.clients c), Q m) : cb.meets uv c (fun m _ => Q m) w := by
  cases cb with
  | read nread buf =>
    cases buf with
    | none => trivial
    | some base =>
      intro hpos
      rw [Callback.delivers_data base hpos] at hQ
      have hbuffer : ((w.modify c fun k => k.setReceiveBuffer (k.myReceiveBuffer ++
          base.take nread.toNat)).clients c).myReceiveBuffer =
            (w.clients c).buffered nread base := by
        rw [World.clients_modify_self]
        rfl
      refine loopMeets_of_cuts uv _ hc ?_
      rw [hbuffer]
      exact hQ
  | _ => trivial

end

/-! ## The rule -/

/-- The node has created a connection, or it is named after a port in `L`. -/
def StartedOn (L : Int32 → Prop) (w : NodeWorld) : Prop :=
  0 < w.next ∨ ∃ port, L port ∧ w.app.myName = ':' :: stdToString port.toInt

theorem StartedOn.tryCandidate {L : Int32 → Prop} {uv : Uv} {w : NodeWorld} {key : Str}
    (h : StartedOn L w) : StartedOn L (tryCandidate uv w key) :=
  h.imp (fun hnext => Nat.lt_of_lt_of_le hnext (next_tryCandidate uv w key))
    fun ⟨port, hport, hname⟩ => ⟨port, hport, (name_tryCandidate uv w key).trans hname⟩

/-- A property that no event breaks of a node that is handed messages in `Q` only, started with
    parameters in `P`, and listens on ports in `L`. -/
structure GuardedNode (uv : Uv) (Q : Message → Prop) (P : AppParams → Prop) (L : Int32 → Prop)
    (I : NodeWorld → Prop) : Prop where
  quiet : ∀ {w : NodeWorld} {c : ClientId} {f : Client → Client}, c < w.next →
    (∀ k : Client, k.Quiet (f k)) → I w → I (w.modify c f)
  connectionClosed : ∀ {w : NodeWorld} {c : ClientId}, c < w.next → I w →
    I (NodeApp.connectionClosed c w)
  greets : ∀ {w : NodeWorld} {c : ClientId} {m : Message}, c < w.next → Greets c w m → I w →
    I (w.modify c (·.log (.sendMessage m)))
  handshakeResponse : ∀ {w : NodeWorld} {c : ClientId}, c < w.next → I w →
    I (w.modify c (·.log (.sendMessage
      (.handshakeResponse textV01 w.app.myName (w.clients c).myPeerAddr))))
  pingResponse : ∀ {w : NodeWorld} {c : ClientId} {text : Str}, c < w.next → Q (.ping text) → I w →
    I (w.modify c (·.log (.sendMessage
      (.pingResponse (textRespFrom ++ w.app.myName ++ textTo ++ text)))))
  otherPeer : ∀ {w₀ w : NodeWorld} {c : ClientId} {e : Endpoint}, c < w.next → I w₀ →
    e ∈ getConnectedPeers uv w₀ → I w →
    I (w.modify c (·.log (.sendMessage (.otherPeer e.myHost e.myPort))))
  /-- a peer that has told its port in a handshake -/
  canonical : ∀ {w₀ w : NodeWorld} {c : ClientId} {v y a : Str} {port : Int32},
    Q (.handshake v y a) → a.take 1 = [':'] → stoi (a.drop 1) = .ok port → c < w₀.next →
    c < w.next → I w₀ →
    isPeerConnected w₀ (w₀.clients c).myPeerAddr false = true →
    (w.clients c).myPeerAddr = (w₀.clients c).myPeerAddr →
    Act.messageReceived (.handshake v y a) ∈ (w.clients c).acts → I w →
    I (w.modify c fun k => { k with
      myCanonPeerAddr := endpointText (Endpoint.ofString (w₀.clients c).myPeerAddr).myHost port })
  canonicalCandidate : ∀ {w₀ w : NodeWorld} {c : ClientId} {v y a : Str} {port : Int32},
    Q (.handshake v y a) → a.take 1 = [':'] → stoi (a.drop 1) = .ok port → c < w₀.next → I w₀ →
    isPeerConnected w₀ (w₀.clients c).myPeerAddr false = true → I w →
    I { w with
      app := w.app.addOutPeerCandidate (Endpoint.ofString (w₀.clients c).myPeerAddr).myHost port 1 }
  candidate : ∀ {w : NodeWorld} {host : Str} {port : Int32}, Q (.otherPeer host port) → I w →
    I { w with app := w.app.addOutPeerCandidate host port 1 }
  tryCandidate : ∀ {w : NodeWorld} {key : Str}, StartedOn L w → I w → I (tryCandidate uv w key)
  established : ∀ {w : NodeWorld} {c : ClientId}, c < w.next → (w.clients c).kind ≠ .netClientIn →
    I w → I (w.modify c (Client.establish uv c))
  buffer : ∀ {w : NodeWorld} {c : ClientId} (f : Client → Str), c < w.next → I w →
    I (w.modify c fun k => k.setReceiveBuffer (f k))
  handed : ∀ {w : NodeWorld} {c : ClientId} {m : Message}, c < w.next → Q m → I w →
    I (w.modify c (Client.handOver m))
  accepted : ∀ {w : NodeWorld}, w.net.listening = true → I w →
    I (NodeApp.inConnectionReceived w.next
      (w.create (NetClientIn.new (getRemoteAddress uv (uv.getpeername w.next 1)))))
  named : ∀ {w : NodeWorld} {port : Int32} (n : NetHandler), L port → I w →
    I { w with net := n, app := { w.app with myName := ':' :: stdToString port.toInt } }
  net : ∀ {w : NodeWorld} {n : NetHandler}, n.listening = w.net.listening → I w →
    I { w with net := n }
  started : ∀ {w : NodeWorld} {params : AppParams}, P params → I w →
    I { w with app := w.app.addStartCandidates params.extraPeers }

/-- What an event has to satisfy for the conditions of a rule, the messages apart. -/
def NodeEvent.Within (uv : Uv) (P : AppParams → Prop) (L : Int32 → Prop) (e : NodeEvent) : Prop :=
  e.StartsWith P ∧ ∀ port ∈ e.listensOn uv, L port

/-- The messages an event hands over are in `Q`. -/
def NodeEvent.Tells (Q : Message → Prop) (w : NodeWorld) : NodeEvent → Prop
  | .client c cb => ∀ m ∈ cb.delivers (w.clients c), Q m
  | _ => True

/-- A connection's machinery leaves its address, and what it did, alone. -/
theorem robust_given (c : ClientId) (addr : Str) (a : Act) : Robust c fun w : NodeWorld =>
    (w.clients c).myPeerAddr = addr ∧ a ∈ (w.clients c).acts where
  quiet {w f} hf h := by
    rw [World.clients_modify_self]
    obtain ⟨l, hl, -⟩ := (hf (w.clients c)).acts
    exact ⟨(hf _).myPeerAddr.trans h.1, hl ▸ List.mem_append_left l h.2⟩
  connectionClosed {w} h := by
    have hq := (connectionClosed_spec c w).1 c
    obtain ⟨l, hl, -⟩ := hq.acts
    exact ⟨hq.myPeerAddr.trans h.1, hl ▸ List.mem_append_left l h.2⟩
  greets _ h := by
    rw [World.clients_modify_self]
    exact ⟨h.1, List.mem_append_left _ h.2⟩

namespace GuardedNode

variable {uv : Uv} {Q : Message → Prop} {P : AppParams → Prop} {L : Int32 → Prop}
  {I : NodeWorld → Prop} (hI : GuardedNode uv Q P L I) {c : ClientId} {w : NodeWorld}

include hI

theorem robust (c : ClientId) : Robust c (fun w : NodeWorld => c < w.next ∧ I w) where
  quiet hf h := ⟨h.1, hI.quiet h.1 hf h.2⟩
  connectionClosed h :=
    ⟨by rw [show (BaseApp.connectionClosed c _ : NodeWorld).next = _ from
          next_connectionClosed c _]; exact h.1, hI.connectionClosed h.1 h.2⟩
  greets hm h := ⟨h.1, hI.greets h.1 hm h.2⟩

theorem tryOutConnections (hs : StartedOn L w) (h : I w) : I (tryOutConnections uv w) :=
  (rounds_preserve (I := fun w => StartedOn L w ∧ I w)
    (fun _ _ _ h => ⟨h.1.tryCandidate, hI.tryCandidate h.1 h.2⟩) ⟨hs, h⟩).2

theorem sendOtherPeers (h : c < w.next ∧ I w) :
    c < (sendOtherPeers uv c w).next ∧ I (sendOtherPeers uv c w) :=
  gossip_preserves (I := fun w' => c < w'.next ∧ I w')
    (fun _ he _ h' => (hI.robust c).sendMessage uv ⟨h'.1, hI.otherPeer h'.1 h.2 he h'.2⟩) h

theorem robustProcess (c : ClientId) :
    RobustProcess uv c (fun w : NodeWorld => c < w.next ∧ I w) where
  toRobust := hI.robust c
  sendOtherPeers h := hI.sendOtherPeers h

/-- **The handler of messages preserves it**, if the message meets the condition. -/
theorem messageReceived {m : Message} (hm : Q m)
    (hgiven : Act.messageReceived m ∈ (w.clients c).acts) (h : c < w.next ∧ I w) :
    c < (messageReceived uv c m w).world.next ∧ I (messageReceived uv c m w).world := by
  cases m with
  | handshake myVersion yourAddr myAddr =>
    unfold NodeApp.messageReceived
    dsimp only
    split
    · exact (hI.robust c).close h
    · split
      · exact h
      · rename_i hconn
        rw [Bool.not_eq_false] at hconn
        have hresp := (hI.robust c).sendMessage uv ⟨h.1, hI.handshakeResponse h.1 h.2⟩
        split
        · exact hI.sendOtherPeers hresp
        · rename_i hcolon
          have hcolon := not_not.mp hcolon
          cases hport : stoi (myAddr.drop 1) with
          | error e => exact hresp
          | ok canonPort =>
            apply hI.sendOtherPeers
            split
            · have hlogged : ((w.modify c (·.log (.sendMessage (.handshakeResponse textV01
                  w.app.myName (w.clients c).myPeerAddr)))).clients c).myPeerAddr =
                    (w.clients c).myPeerAddr ∧ Act.messageReceived
                      (.handshake myVersion yourAddr myAddr) ∈ ((w.modify c (·.log (.sendMessage
                        (.handshakeResponse textV01 w.app.myName
                          (w.clients c).myPeerAddr)))).clients c).acts := by
                rw [World.clients_modify_self]
                exact ⟨rfl, List.mem_append_left _ hgiven⟩
              obtain ⟨haddr, hgiven⟩ := (robust_given c _ _).sendMessage uv hlogged
              have hcanon := hI.canonical hm hcolon hport h.1 hresp.1 h.2 hconn haddr hgiven hresp.2
              have hcand := hI.canonicalCandidate hm hcolon hport h.1 h.2 hconn hcanon
              exact ⟨Nat.lt_of_lt_of_le hresp.1 (RobustNode.next_learnCanonical uv c _ _ _),
                hI.tryOutConnections (Or.inl (Nat.lt_of_le_of_lt (Nat.zero_le c) hresp.1)) hcand⟩
            · exact hresp
  | handshakeResponse myVersion myAddr yourAddr => exact h
  | ping text => exact (hI.robust c).sendMessage uv ⟨h.1, hI.pingResponse h.1 hm h.2⟩
  | pingResponse text => exact h
  | otherPeer host port =>
    exact ⟨Nat.lt_of_lt_of_le h.1 (RobustNode.next_tryOutConnections uv
        { w with app := w.app.addOutPeerCandidate host port 1 }),
      hI.tryOutConnections (Or.inl (Nat.lt_of_le_of_lt (Nat.zero_le c) h.1))
        (hI.candidate hm h.2)⟩

/-! ### Callbacks -/

/-- The receive loop, by cases of the turn it takes. -/
theorem receiveLoop : ∀ (fuel : Nat) {w : NodeWorld}, loopMeets uv c (fun m _ => Q m) fuel w →
    c < w.next ∧ I w → c < (receiveLoop uv c fuel w).world.next ∧
      I (receiveLoop uv c fuel w).world := by
  intro fuel
  induction fuel with
  | zero => intro w _ h; exact h
  | succ fuel ih =>
    intro w hmeets h
    have hcut : ∀ rest, c < (w.modify c (Client.setReceiveBuffer rest)).next ∧
        I (w.modify c (Client.setReceiveBuffer rest)) := fun rest =>
      ⟨h.1, hI.buffer (fun _ => rest) h.1 h.2⟩
    have hgiven : ∀ rest (m : Message), Q m →
        c < (NodeApp.messageReceived uv c m ((w.modify c (Client.setReceiveBuffer rest)).modify c
          (Client.handOver m))).world.next ∧
        I (NodeApp.messageReceived uv c m ((w.modify c (Client.setReceiveBuffer rest)).modify c
          (Client.handOver m))).world := fun rest m hm =>
      hI.messageReceived hm (by simp [Client.handOver, Client.log])
        ⟨(hcut rest).1, hI.handed (hcut rest).1 hm (hcut rest).2⟩
    rw [receiveLoop_succ]
    rw [loopMeets] at hmeets
    have hturn := turnTaken_loopTurn uv c w
    generalize loopTurn uv c w = t at hturn ⊢
    cases hturn with
    | broken | done => exact h
    | @malformed line rest => exact hcut rest
    | @skipped line rest hcutLine hline =>
      simp only [hcutLine, hline] at hmeets
      exact ih hmeets (hcut rest)
    | @taken line rest m w' hcutLine hline hgot =>
      simp only [hcutLine, hline, hgot] at hmeets
      have hreceived := hgiven rest m hmeets.1
      rw [show NodeApp.messageReceived uv c m _ = _ from hgot] at hreceived
      exact ih hmeets.2 hreceived
    | @refused line rest m e w' hcutLine hline hgot =>
      simp only [hcutLine, hline, hgot] at hmeets
      have hreceived := hgiven rest m hmeets.1
      rw [show NodeApp.messageReceived uv c m _ = _ from hgot] at hreceived
      exact hreceived

theorem onRead (nread : Int) (buf : Option Str)
    (hmeets : (Callback.read nread buf).meets uv c (fun m _ => Q m) w) (h : c < w.next ∧ I w) :
    c < (onRead uv c nread buf w).world.next ∧ I (onRead uv c nread buf w).world := by
  by_cases hpos : 0 < nread
  · cases buf with
    | none =>
      rw [onRead_null uv hpos]
      exact (hI.robustProcess c).process h
    | some base =>
      rw [onRead_data uv hpos]
      refine Outcome.world_andThen (I := fun w : NodeWorld => c < w.next ∧ I w) ?_ fun _ h =>
        (hI.robustProcess c).process h
      exact hI.receiveLoop _ (hmeets hpos)
        ⟨h.1, hI.buffer (fun k => k.myReceiveBuffer ++ base.take nread.toNat) h.1 h.2⟩
  · rw [onRead_ends uv hpos]
    exact (hI.robust c).close h

theorem onConnect (status : Int) (h : c < w.next ∧ I w) :
    c < (onConnect uv c status w).next ∧ I (onConnect uv c status w) := by
  rw [onConnect_eq]
  split
  · exact h
  · rename_i hconn
    exact (hI.robustProcess c).process ⟨h.1, hI.established h.1 (not_or.mp hconn).1 h.2⟩

theorem onWrite (status : Int) (h : c < w.next ∧ I w) :
    c < (onWrite uv c status w).next ∧ I (onWrite uv c status w) := by
  have hassert := (hI.robust c).quiet (fun k => Client.Quiet.assert .onWrite
    (k.myState = .sending || k.myState = .receiving || k.myState = .received) k) h
  unfold TcpUv.onWrite
  dsimp only
  split
  · exact (hI.robust c).close hassert
  · exact (hI.robustProcess c).process hassert

theorem callback (cb : Callback) (hmeets : cb.meets uv c (fun m _ => Q m) w)
    (h : c < w.next ∧ I w) : I (callback uv c w cb).world := by
  have htcp : ∀ g : UvTcp → UvTcp, c < w.next ∧ I (w.modify c fun k => { k with tcp := g k.tcp }) :=
    fun g => (hI.robust c).quiet (fun _ => .silent rfl) h
  cases cb with
  | connected status => exact (hI.onConnect status (htcp fun t => { t with connecting := false })).2
  | read nread buf => exact (hI.onRead nread buf hmeets h).2
  | wrote status => exact (hI.onWrite status (htcp fun t => { t with writes := t.writes - 1 })).2
  | closed => exact ((hI.robust c).onClose (htcp fun t => { t with closed := true })).2
  | timer => exact ((hI.robustProcess c).onTimer h).2

/-! ### Events -/

theorem listening {port : Int32} (hport : L port) (h : I w) : I (listening uv port w) :=
  hI.tryOutConnections (Or.inr ⟨port, hport, rfl⟩) (hI.named (w := w) _ hport h)

/-- **One event** of a node that is told only so much, and does not throw. -/
theorem step {e : NodeEvent} (ha : (nodeSystem uv).allowed w e) (he : e.Within uv P L)
    (ht : e.Tells Q w) (hret : ∀ c cb, e = .client c cb → (TcpUv.callback uv c w cb).threw = false)
    (h : I w) : I (nodeStep uv w e) := by
  cases e with
  | start params =>
    have hstarted := hI.started he.1 h
    have hport := he.2
    rw [nodeStep_start]
    unfold TcpUv.started
    unfold NodeEvent.listensOn at hport
    cases hfirst : firstPort uv params.listenPort params.listenPortRange with
    | none => exact hstarted
    | some port =>
      have hlistening := hI.listening (hport port hfirst) hstarted
      dsimp only
      split
      · exact hlistening
      · exact hI.net rfl hlistening
  | listenStarted port =>
    exact hI.tryOutConnections (Or.inr ⟨port, he.2 port rfl, rfl⟩)
      (hI.named w.net (he.2 port rfl) h)
  | newConnection status acceptRes =>
    show I (onNewConnection uv status acceptRes w)
    unfold onNewConnection
    split
    · exact h
    · split
      · exact h
      · exact ((hI.robust w.next).doRead uv ⟨Nat.lt_succ_self w.next, hI.accepted ha.2 h⟩).2
  | client c cb =>
    have hcb := hI.callback (c := c) cb (meets_of_delivers uv ha.2.1 ht) ⟨ha.2.1, h⟩
    show I (TcpUv.callback uv c w cb).settle
    cases ho : TcpUv.callback uv c w cb with
    | returns w' =>
      rw [ho] at hcb
      exact hcb
    | throws e w' =>
      have hthrew := hret c cb rfl
      rw [ho] at hthrew
      cases hthrew

/-! ### A handler that makes up for a message -/

/-- Where the rule does not admit a message, the handler may make up for it; then no callback
    breaks the property, whatever arrives. -/
theorem robustApp
    (hcanon : ∀ {w : NodeWorld} {c : ClientId} (f : Client → Str), c < w.next → I w →
      I (w.modify c fun k => { k with myCanonPeerAddr := f k }))
    (hother : ∀ {w : NodeWorld} {c : ClientId} {m : Message}, ¬ Q m → c < w.next → I w →
      c < (NodeApp.messageReceived uv c m (w.modify c (Client.handOver m))).world.next ∧
        I (NodeApp.messageReceived uv c m (w.modify c (Client.handOver m))).world)
    (c : ClientId) : RobustApp uv c (fun w : NodeWorld => c < w.next ∧ I w) where
  toRobustProcess := hI.robustProcess c
  connected h _ := ⟨h.1, hcanon _ h.1 h.2⟩
  buffer f h := ⟨h.1, hI.buffer f h.1 h.2⟩
  message {w _ m} _ h := by
    by_cases hm : Q m
    · exact hI.messageReceived hm (by simp [Client.handOver, Client.log])
        ⟨h.1, hI.handed h.1 hm h.2⟩
    · exact hother hm h.1 h.2

end GuardedNode

/-- **One event** of a node that is told anything. -/
theorem GuardedNode.step_any {uv : Uv} {Q : Message → Prop} {I : NodeWorld → Prop} {w : NodeWorld}
    {e : NodeEvent} (hI : GuardedNode uv Q (fun _ => True) (fun _ => True) I)
    (happ : ∀ c, RobustApp uv c fun w : NodeWorld => c < w.next ∧ I w)
    (hended : ∀ {w : NodeWorld} (t : Option StdException), I w → I { w with terminated := t })
    (ha : (nodeSystem uv).allowed w e) (h : I w) : I (nodeStep uv w e) := by
  have hwithin : e.Within uv (fun _ => True) fun _ => True := by
    refine ⟨?_, fun _ _ => trivial⟩
    cases e <;> trivial
  cases e with
  | client c cb =>
    have hcb := ((happ c).callback cb ⟨ha.2.1, h⟩).2
    show I (TcpUv.callback uv c w cb).settle
    cases ho : TcpUv.callback uv c w cb with
    | returns w' =>
      rw [ho] at hcb
      exact hcb
    | throws e w' =>
      rw [ho] at hcb
      exact hended _ hcb
  | _ => exact hI.step ha hwithin trivial (fun c cb he => by cases he) h

end TcpUv
