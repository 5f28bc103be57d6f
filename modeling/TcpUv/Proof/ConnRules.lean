import TcpUv.Programs
import TcpUv.Proof.ClientRules
import TcpUv.Proof.Elsewhere
import TcpUv.Proof.ServerRules
import Mathlib.Data.List.Dedup

/-!
# One rule for every connection

The three programs drive the same connection classes, and reach a connection through its public
members only: they send on it, close it, and set its canonical address. So a property of a
connection that survives these calls and the connection's own methods (`ConnRule`) holds of every
connection of every program, in every run (`KeptConn.run`).

That the programs do keep to the public members is `ReachesConn`. What a program does to a
connection besides is to destroy it when its last owner lets go.
-/

set_option autoImplicit false

namespace TcpUv

open Lib (Turn System)

/-! ## The rule -/

/-- A property that survives the public members of a connection. -/
structure PublicRule (J : Client → Prop) : Prop where
  attached : ∀ {k : Client}, J k → k.Attached
  same : ∀ {k k' : Client}, k.SameConn k' → J k → J k'
  shut : ∀ {k : Client}, J k → J k.shut
  send : ∀ {k : Client} (m : Message) (res : Int), J k → J (k.send m res)
  violated : ∀ {k : Client} (site : Assertion), J k → J (k.log (.assertFailed site))

/-- … and the connection's own methods … -/
structure MethodRule (J : Client → Prop) : Prop extends PublicRule J where
  read : ∀ {k : Client} (res : Int), J k → J (k.read res)
  handOver : ∀ {k : Client} (m : Message), J k → J (k.handOver m)

/-- … and what libuv does to it, and so its callbacks. -/
structure CallbackRule (J : Client → Prop) : Prop extends MethodRule J where
  /-- libuv's own bookkeeping -/
  bookkeeping : ∀ {k : Client} {t : UvTcp}, t.closing = k.tcp.closing → t.closed = k.tcp.closed →
    J k → J { k with tcp := t }
  /-- a successful connect callback -/
  established : ∀ {k : Client}, k.tcp.closing = false → J k → J (k.setState .connected)
  /-- `onClose`, under an app that destroys the client or does not -/
  retire : ∀ {k : Client} (held : Bool), Callback.closed.allowed k → J k → J (k.retire held)

/-- … and all that happens to it, from its creation on. -/
structure ConnRule (J : Client → Prop) : Prop extends CallbackRule J where
  netClientOut : ∀ (host : Str) (port pingToSend : Int32) (res : Int),
    J ((NetClientOut.new host port pingToSend).dial res)
  peerClientOut : ∀ (host : Str) (port : Int32) (res : Int),
    J ((PeerClientOut.new host port).dial res)
  netClientIn : ∀ addr : Str, J (NetClientIn.new addr)
  destroyed : ∀ {k : Client}, J k → J (k.log .destructor)

/-! ## What an app reaches -/

/-- The client, which exists, has the property. -/
def HoldsAt {σ : Type} (J : Client → Prop) (c : ClientId) (w : World σ) : Prop :=
  c < w.next ∧ J (w.clients c)

/-- An app that reaches the connection it is called about through its public members, and leaves
    it to its owners when it is closed. -/
class ReachesConn (σ : Type) [App σ] : Prop where
  messageReceived : ∀ {J : Client → Prop} (_ : PublicRule J) (uv : Uv) {c : ClientId} (m : Message)
    {w : World σ}, HoldsAt J c w → HoldsAt J c (App.messageReceived uv c m w).world
  sendOtherPeers : ∀ {J : Client → Prop} (_ : PublicRule J) (uv : Uv) {c : ClientId} {w : World σ},
    HoldsAt J c w → HoldsAt J c (App.sendOtherPeers uv c w)
  connectionClosed : ∀ (c : ClientId) (w : World σ),
    (BaseApp.connectionClosed c w).next = w.next ∧ ∃ held : Bool,
      Client.SameConn (if held then (w.clients c).log .destructor else w.clients c)
        ((BaseApp.connectionClosed c w).clients c)

namespace Client.SameConn

variable {k k' k'' : Client}

theorem refl (k : Client) : k.SameConn k := ⟨rfl, rfl, rfl, rfl, rfl⟩

theorem log (h : k.SameConn k') (a : Act) : (k.log a).SameConn (k'.log a) :=
  ⟨h.kind, h.myState, h.myUvStream, h.tcp, by simp only [Client.log, h.acts]⟩

theorem setState (h : k.SameConn k') (s : State) : (k.setState s).SameConn (k'.setState s) :=
  ⟨h.kind, rfl, h.myUvStream, h.tcp, by simp only [Client.setState, h.acts]⟩

end Client.SameConn

/-! ### The public members, over any app -/

namespace PublicRule

variable {J : Client → Prop} (hJ : PublicRule J) {σ : Type} {c : ClientId} {w : World σ}

include hJ

theorem field {f : Client → Client} (hf : ∀ k : Client, k.SameConn (f k)) (h : HoldsAt J c w) :
    HoldsAt J c (w.modify c f) := by
  refine ⟨h.1, ?_⟩
  rw [World.clients_modify_self]
  exact hJ.same (hf _) h.2

variable [BaseApp σ]

theorem close (h : HoldsAt J c w) : HoldsAt J c (close c w).1 := by
  rw [close_eq (hJ.attached h.2)]
  refine ⟨h.1, ?_⟩
  rw [World.clients_modify_self]
  exact hJ.shut h.2

theorem sendMessage (uv : Uv) (m : Message) (h : HoldsAt J c w) :
    HoldsAt J c (sendMessage uv c m w).1 := by
  rw [sendMessage_eq uv (hJ.attached h.2)]
  refine ⟨h.1, ?_⟩
  rw [World.clients_modify_self]
  exact hJ.send m _ h.2

end PublicRule

/-! ### The three apps -/

instance : ReachesConn ClientApp where
  messageReceived _ _ _ _ _ h := h
  sendOtherPeers _ _ _ _ h := h
  connectionClosed _ _ := ⟨rfl, false, .refl _⟩

instance : ReachesConn ServerApp where
  messageReceived {J} hJ uv c m w h := by
    show HoldsAt J c (ServerApp.messageReceived uv c m w).world
    cases m with
    | handshake myVersion yourAddr myAddr =>
      unfold ServerApp.messageReceived
      dsimp only
      split
      · exact hJ.close h
      · exact hJ.sendMessage uv _ h
    | ping text => exact hJ.sendMessage uv _ h
    | _ =>
      refine ⟨h.1, ?_⟩
      show J ((w.modify c (·.log (.assertFailed .unhandledMessage))).clients c)
      rw [World.clients_modify_self]
      exact hJ.violated _ h.2
  sendOtherPeers _ _ _ _ h := h
  connectionClosed c w := by
    obtain ⟨hnext, -, -⟩ := ServerApp.rest_connectionClosed c w
    refine ⟨hnext, ?_⟩
    show ∃ held : Bool, Client.SameConn _ ((ServerApp.connectionClosed c w).clients c)
    unfold ServerApp.connectionClosed
    cases w.app.myClients.entries.find? fun e => e.2 = c with
    | none => exact ⟨false, .refl _⟩
    | some e =>
      dsimp only
      rw [ServerApp.clients_release]
      split
      · exact ⟨true, .refl _⟩
      · exact ⟨false, .refl _⟩

namespace NodeApp

theorem sameConn_destroy (k : Client) : (k.log .destructor).SameConn (destroy k) := by
  unfold destroy
  split
  · exact ⟨rfl, rfl, rfl, rfl, rfl⟩
  · exact .refl _

/-- Each of the clients let go of is destroyed, once. -/
theorem clients_destroyed {ds : List ClientId} (hds : ds.Nodup) (c : ClientId) :
    ∀ w : NodeWorld, ((ds.foldl (fun w d => w.modify d destroy) w).clients c) =
      if c ∈ ds then destroy (w.clients c) else w.clients c := by
  induction ds with
  | nil => intro w; rfl
  | cons d ds ih =>
    intro w
    obtain ⟨hd, hds⟩ := List.nodup_cons.mp hds
    rw [List.foldl_cons, ih hds]
    by_cases hc : c = d
    · subst hc
      rw [if_neg hd, if_pos (by simp), World.clients_modify_self]
    · rw [World.clients_modify_ne _ _ hc]
      simp [hc]

end NodeApp

open NodeApp in
instance : ReachesConn NodeApp where
  messageReceived {J} hJ uv c m w h :=
    messageReceived_preserves (I := HoldsAt J c) hJ.close (fun m => hJ.sendMessage uv m)
      (fun _ h => hJ.field (fun _ => ⟨rfl, rfl, rfl, rfl, rfl⟩) h) (fun _ _ h => h)
      (fun {w} key h => ⟨Nat.lt_of_lt_of_le h.1 (next_tryCandidate uv w key),
        by rw [clients_tryCandidate uv h.1]; exact h.2⟩) m h
  sendOtherPeers {J} hJ uv c w h :=
    gossip_preserves (I := HoldsAt J c) (fun _ _ _ h => hJ.sendMessage uv _ h) h
  connectionClosed c w := by
    refine ⟨next_connectionClosed c w,
      decide (c ∈ (released w c (w.clients c).myPeerAddr).dedup), ?_⟩
    have hclients :=
      clients_destroyed (List.nodup_dedup (released w c (w.clients c).myPeerAddr)) c w
    have hclosed : (BaseApp.connectionClosed c w : NodeWorld).clients c = _ := hclients
    rw [hclosed]
    by_cases hc : c ∈ (released w c (w.clients c).myPeerAddr).dedup
    · simp only [hc, decide_true, if_true]
      exact sameConn_destroy _
    · simp only [hc, decide_false, if_false]
      exact .refl _

/-! ## The connection's own methods -/

namespace PublicRule

variable {J : Client → Prop} (hJ : PublicRule J)

include hJ

theorem assert {k : Client} (site : Assertion) (b : Bool) (h : J k) : J (k.assert site b) := by
  unfold Client.assert
  split
  · exact h
  · exact hJ.violated site h

section

variable {σ : Type} {c : ClientId} {w : World σ}

theorem unhandled (h : HoldsAt J c w) :
    HoldsAt J c (w.modify c (·.log (.assertFailed .unhandledState))) := by
  refine ⟨h.1, ?_⟩
  rw [World.clients_modify_self]
  exact hJ.violated _ h.2

variable [App σ] [ReachesConn σ] (uv : Uv)

theorem onTimer (h : HoldsAt J c w) : HoldsAt J c (onTimer uv c w) :=
  ReachesConn.sendOtherPeers hJ uv (hJ.sendMessage uv _ h)

omit [App σ] [ReachesConn σ] in
theorem asserted (h : HoldsAt J c w) : HoldsAt J c (w.modify c fun k => k.assert .onWrite
    (k.myState = .sending || k.myState = .receiving || k.myState = .received)) := by
  refine ⟨h.1, ?_⟩
  rw [World.clients_modify_self]
  exact hJ.assert _ _ h.2

/-- The close callback: the app may destroy the client before the handle is deleted. -/
theorem onClose (hc : c < w.next)
    (hretire : ∀ held : Bool, J ((w.clients c).retire held)) : HoldsAt J c
      (onClose c (w.modify c fun k => { k with tcp := { k.tcp with closed := true } })) := by
  obtain ⟨hnext, held, hsame⟩ := ReachesConn.connectionClosed c
    ((w.modify c fun k => { k with tcp := { k.tcp with closed := true } }).modify c
      (·.log .connectionClosed))
  rw [World.clients_modify_self, World.clients_modify_self] at hsame
  -- `held` says whether the app still held the client, and let go of it
  refine ⟨by rw [TcpUv.onClose, World.next_modify, World.next_modify, hnext]; exact hc, ?_⟩
  rw [TcpUv.onClose, World.clients_modify_self, World.clients_modify_self]
  refine hJ.same ?_ (hretire held)
  exact (hsame.log .deleteHandle).setState .closed

end

end PublicRule

namespace MethodRule

variable {J : Client → Prop} (hJ : MethodRule J)

include hJ

section

variable {σ : Type} {c : ClientId} {w : World σ}

theorem doRead [BaseApp σ] (uv : Uv) (h : HoldsAt J c w) : HoldsAt J c (doRead uv c w).1 := by
  rw [doRead_eq uv (hJ.attached h.2)]
  refine ⟨h.1, ?_⟩
  rw [World.clients_modify_self]
  exact hJ.read _ h.2

theorem process_netClientOut [BaseApp σ] (uv : Uv) (h : HoldsAt J c w) :
    HoldsAt J c (NetClientOut.process uv c w) := by
  have hcounter : ∀ n : Int → Int,
      HoldsAt J c (w.modify c fun k => { k with mySendCounter := n k.mySendCounter }) := fun _ =>
    hJ.field (fun _ => ⟨rfl, rfl, rfl, rfl, rfl⟩) h
  unfold NetClientOut.process
  dsimp only
  split
  · exact hJ.sendMessage uv _ (hcounter fun _ => 0)
  · exact hJ.doRead uv (hcounter fun n => n + 1)
  · exact hJ.doRead uv h
  · exact hJ.doRead uv h
  · split
    · exact hJ.close h
    · split
      · exact hJ.sendMessage uv _ h
      · exact h
  · exact hJ.unhandled h

variable [App σ] [ReachesConn σ] (uv : Uv)

theorem process_peerClientOut (h : HoldsAt J c w) :
    HoldsAt J c (PeerClientOut.process uv c w) := by
  unfold PeerClientOut.process
  dsimp only
  split
  · have htimer := hJ.onTimer uv (hJ.field (f := fun k => { k with myTimer := true })
      (fun _ => ⟨rfl, rfl, rfl, rfl, rfl⟩) h)
    have hstarted := hJ.field (f := fun k => { k with timerActive := true, peerSendCounter := 0 })
      (fun _ => ⟨rfl, rfl, rfl, rfl, rfl⟩) htimer
    exact ReachesConn.sendOtherPeers hJ.toPublicRule uv (hJ.sendMessage uv _ hstarted)
  · exact hJ.doRead uv (hJ.field (fun _ => ⟨rfl, rfl, rfl, rfl, rfl⟩) h)
  · exact hJ.doRead uv h
  · exact hJ.doRead uv h
  · exact h
  · exact hJ.unhandled h

theorem process (h : HoldsAt J c w) : HoldsAt J c (process uv c w) := by
  unfold TcpUv.process
  split
  · exact h
  · exact hJ.process_netClientOut uv h
  · exact hJ.process_peerClientOut uv h

/-- The receive loop, by cases of the turn it takes. -/
theorem receiveLoop : ∀ (fuel : Nat) {w : World σ}, HoldsAt J c w →
    HoldsAt J c (receiveLoop uv c fuel w).world := by
  intro fuel
  induction fuel with
  | zero => intro w h; exact h
  | succ fuel ih =>
    intro w h
    have hcut : ∀ rest, HoldsAt J c (w.modify c (Client.setReceiveBuffer rest)) := fun rest =>
      hJ.field (fun _ => ⟨rfl, rfl, rfl, rfl, rfl⟩) h
    have hgiven : ∀ rest m, HoldsAt J c (App.messageReceived uv c m
        ((w.modify c (Client.setReceiveBuffer rest)).modify c (Client.handOver m))).world := by
      intro rest m
      refine ReachesConn.messageReceived hJ.toPublicRule uv m ⟨h.1, ?_⟩
      rw [World.clients_modify_self]
      exact hJ.handOver m (hcut rest).2
    rw [receiveLoop_succ]
    have hturn := turnTaken_loopTurn uv c w
    generalize loopTurn uv c w = t at hturn ⊢
    cases hturn with
    | broken | done => exact h
    | @malformed line rest => exact hcut rest
    | @skipped line rest => exact ih (hcut rest)
    -- the handler may have closed the connection: the next turn finds the buffer all the same
    | @taken line rest m w' _ _ hgot =>
      have hreceived := hgiven rest m
      rw [hgot] at hreceived
      exact ih hreceived
    | @refused line rest m e w' _ _ hgot =>
      have hreceived := hgiven rest m
      rw [hgot] at hreceived
      exact hreceived

theorem onRead (nread : Int) (buf : Option Str) (h : HoldsAt J c w) :
    HoldsAt J c (onRead uv c nread buf w).world := by
  by_cases hpos : 0 < nread
  · cases buf with
    | none =>
      rw [onRead_null uv hpos]
      exact hJ.process uv h
    | some base =>
      rw [onRead_data uv hpos]
      refine Outcome.world_andThen (I := HoldsAt J c) ?_ fun _ => hJ.process uv
      exact hJ.receiveLoop uv _ (hJ.field (fun _ => ⟨rfl, rfl, rfl, rfl, rfl⟩) h)
  · rw [onRead_ends uv hpos]
    exact hJ.close h

theorem onWrite (status : Int) (h : HoldsAt J c w) : HoldsAt J c (onWrite uv c status w) := by
  unfold TcpUv.onWrite
  dsimp only
  split
  · exact hJ.close (hJ.asserted h)
  · exact hJ.process uv (hJ.asserted h)

end

end MethodRule

/-! ## Its callbacks -/

namespace CallbackRule

variable {J : Client → Prop} (hJ : CallbackRule J)

include hJ

section

variable {σ : Type} {c : ClientId} {w : World σ}

/-- libuv's own bookkeeping, at the beginning of a callback. -/
theorem counted {g : UvTcp → UvTcp}
    (hg : ∀ t, (g t).closing = t.closing ∧ (g t).closed = t.closed) (h : HoldsAt J c w) :
    HoldsAt J c (w.modify c fun k => { k with tcp := g k.tcp }) := by
  refine ⟨h.1, ?_⟩
  rw [World.clients_modify_self]
  exact hJ.bookkeeping (hg _).1 (hg _).2 h.2

variable [App σ] [ReachesConn σ] (uv : Uv)

theorem onConnect {status : Int} (hopen : status = 0 → (w.clients c).tcp.closing = false)
    (h : HoldsAt J c w) : HoldsAt J c (onConnect uv c status w) := by
  rw [onConnect_eq]
  split
  · exact h
  -- the canonical address is set before the state, and no rule looks at it
  · rename_i hconn
    obtain ⟨-, hst⟩ := not_or.mp hconn
    refine hJ.process uv ⟨h.1, ?_⟩
    obtain ⟨canon, heq⟩ := (w.clients c).establish_eq uv c
    rw [World.clients_modify_self, heq]
    have hcanon : J { w.clients c with myCanonPeerAddr := canon } :=
      hJ.same (k := w.clients c) ⟨rfl, rfl, rfl, rfl, rfl⟩ h.2
    exact hJ.established (hopen (not_not.mp hst)) hcanon

/-- **Every callback of the connection preserves it.** -/
theorem callback {cb : Callback} (ha : cb.allowed (w.clients c)) (h : HoldsAt J c w) :
    HoldsAt J c (callback uv c w cb).world := by
  cases cb with
  | connected status =>
    refine hJ.onConnect uv (fun hst => ?_)
      (hJ.counted (g := fun t => { t with connecting := false }) (fun _ => ⟨rfl, rfl⟩) h)
    rw [World.clients_modify_self]
    show (w.clients c).tcp.closing = false
    -- libuv cancels the connect of a handle that closes
    by_contra hclosing
    exact ha.2 (Bool.not_eq_false _ ▸ hclosing) hst
  | read nread buf => exact hJ.onRead uv nread buf h
  | wrote status =>
    exact hJ.onWrite uv status
      (hJ.counted (g := fun t => { t with writes := t.writes - 1 }) (fun _ => ⟨rfl, rfl⟩) h)
  | closed => exact hJ.onClose h.1 fun held => hJ.retire held ha h.2
  | timer => exact hJ.onTimer uv h

end

end CallbackRule

/-- What all callbacks of a connection preserve, under any app. -/
def KeptByCallbacks (J : Client → Prop) : Prop :=
  ∀ {σ : Type} [App σ] [ReachesConn σ] (uv : Uv) {c : ClientId} {w : World σ} {cb : Callback},
    cb.allowed (w.clients c) → HoldsAt J c w → HoldsAt J c (callback uv c w cb).world

theorem CallbackRule.kept {J : Client → Prop} (hJ : CallbackRule J) : KeptByCallbacks J :=
  fun uv _ _ _ ha h => hJ.callback uv ha h

/-! ## What an event does to the connections of a program -/

/-- A connection as it starts out: told to connect, or accepted and reading. -/
inductive Newborn : Client → Prop where
  | netClientOut (host : Str) (port pingToSend : Int32) (res : Int) :
      Newborn ((NetClientOut.new host port pingToSend).dial res)
  | peerClientOut (host : Str) (port : Int32) (res : Int) :
      Newborn ((PeerClientOut.new host port).dial res)
  | netClientIn (addr : Str) (res : Int) : Newborn ((NetClientIn.new addr).read res)

theorem bystander_newborn (uv : Uv) (c : ClientId) {J : Client → Prop}
    (hnew : ∀ {k : Client}, Newborn k → J k)
    (hdestroy : ∀ {k : Client}, J k → J (NodeApp.destroy k)) : Bystander uv c J where
  dialled {w host port} hk := by
    rcases connect_cases uv c w with ⟨hguard, -⟩ | ⟨-, res, heq⟩
    · rw [hk] at hguard
      exact absurd hguard (Client.not_refuses_of_state .notConnected rfl (by decide))
    · rw [heq, World.clients_modify_self, hk]
      exact hnew (.peerClientOut host port res)
  accepted a := hnew (.netClientIn a _)
  destroy := hdestroy

namespace Program

/-- What is known of a process between two events. -/
def Sane : (p : Program) → p.Process → Prop
  | .server _, s => ServerSane s.world
  | _, _ => True

variable {p : Program} {s : p.Process} {e : p.Event} {c : ClientId}

theorem sane_init (p : Program) : p.Sane p.init := by
  cases p with
  | server uv => exact serverSane_init
  | _ => trivial

theorem sane_step (hs : p.Sane s) (ha : p.system.allowed s e) : p.Sane (p.system.step s e) := by
  cases p with
  | server uv => exact serverSane_step s e hs ha
  | _ => trivial

/-- A callback is delivered to a connection that exists, and that is due it. -/
theorem allowed_callback {cb : Callback} (ha : p.system.allowed s e)
    (he : p.callback e = some (c, cb)) : c < p.count s ∧ cb.allowed (p.conn s c) := by
  cases p with
  | client uv =>
    cases e with
    | client d cb' =>
      obtain ⟨rfl, rfl⟩ := Prod.mk.inj (Option.some.inj he)
      exact ha.2
    | newClient => cases he
  | server uv =>
    cases e with
    | client d cb' =>
      obtain ⟨rfl, rfl⟩ := Prod.mk.inj (Option.some.inj he)
      exact ha.2.2
    | _ => cases he
  | node uv =>
    cases e with
    | client d cb' =>
      obtain ⟨rfl, rfl⟩ := Prod.mk.inj (Option.some.inj he)
      exact ha.2
    | _ => cases he

/-- A callback of the connection itself. -/
theorem conn_own {J : Client → Prop} (hJ : KeptByCallbacks J) {cb : Callback}
    (ha : p.system.allowed s e) (he : p.callback e = some (c, cb)) (h : J (p.conn s c)) :
    c < p.count (p.system.step s e) ∧ J (p.conn (p.system.step s e) c) := by
  obtain ⟨hc, hcb⟩ := allowed_callback ha he
  cases p with
  | client uv =>
    cases e with
    | client d cb' =>
      obtain ⟨rfl, rfl⟩ := Prod.mk.inj (Option.some.inj he)
      have hown := hJ (w := s) uv hcb ⟨hc, h⟩
      show _ < (TcpUv.callback uv _ s _).settle.next ∧
        J ((TcpUv.callback uv _ s _).settle.clients _)
      rw [Outcome.next_settle, Outcome.clients_settle]
      exact hown
    | newClient => cases he
  | server uv =>
    cases e with
    | client d cb' =>
      obtain ⟨rfl, rfl⟩ := Prod.mk.inj (Option.some.inj he)
      have hown := hJ (w := s.world) uv hcb ⟨hc, h⟩
      show _ < (TcpUv.callback uv _ s.world _).settle.next ∧
        J ((TcpUv.callback uv _ s.world _).settle.clients _)
      rw [Outcome.next_settle, Outcome.clients_settle]
      exact hown
    | _ => cases he
  | node uv =>
    cases e with
    | client d cb' =>
      obtain ⟨rfl, rfl⟩ := Prod.mk.inj (Option.some.inj he)
      have hown := hJ (w := s) uv hcb ⟨hc, h⟩
      show _ < (TcpUv.callback uv _ s _).settle.next ∧
        J ((TcpUv.callback uv _ s _).settle.clients _)
      rw [Outcome.next_settle, Outcome.clients_settle]
      exact hown
    | _ => cases he

/-- An event of another connection, or of none: the connection is as it was, or destroyed. -/
theorem conn_other {J : Client → Prop} (hdestroy : ∀ {k : Client}, J k → J (NodeApp.destroy k))
    (hs : p.Sane s) (ha : p.system.allowed s e) (he : ∀ cb, p.callback e ≠ some (c, cb))
    (hc : c < p.count s) (h : J (p.conn s c)) :
    c < p.count (p.system.step s e) ∧ J (p.conn (p.system.step s e) c) := by
  cases p with
  | client uv =>
    show c < (clientStep uv s e).next ∧ J ((clientStep uv s e).clients c)
    cases e with
    | newClient host port pingToSend =>
      obtain ⟨-, hold, hnext⟩ := newClient_spec uv host port pingToSend s
      show c < (ClientApp.newClient uv host port pingToSend s).next ∧
        J ((ClientApp.newClient uv host port pingToSend s).clients c)
      rw [hold c (Nat.ne_of_lt hc), hnext]
      exact ⟨Nat.lt_succ_of_lt hc, h⟩
    | client d cb =>
      have hcd : c ≠ d := fun hcd => he cb (by rw [hcd]; rfl)
      obtain ⟨hclient, hnext⟩ := clientStep_elsewhere uv hcd cb (w := s)
      rw [hclient, hnext]
      exact ⟨hc, h⟩
  | server uv =>
    have hm := serverStep_move hs ha
    show c < (serverStep uv s e).world.next ∧ J ((serverStep uv s e).world.clients c)
    generalize (serverStep uv s e).world = w' at hm ⊢
    cases hm with
    | aside _ hclients _ hnext =>
      rw [hclients, hnext]
      exact ⟨hc, h⟩
    | accepted hclients _ hnext =>
      rw [hclients, hnext, if_neg (show c ≠ s.world.next from Nat.ne_of_lt hc)]
      refine ⟨Nat.lt_succ_of_lt hc, ?_⟩
      split
      · -- an accepted client has no timer to release
        have hin : ¬ ((s.world.clients c).kind = .peerClientOut ∧
            (s.world.clients c).myTimer = true) := fun hk =>
          absurd ((hs.accepted c).kind.symm.trans hk.1) (by simp)
        have hgone := hdestroy h
        rw [NodeApp.destroy, if_neg (by exact hin)] at hgone
        exact hgone
      · exact h
    | @served d cb _ _ _ hclients _ hnext =>
      have hcd : c ≠ d := fun hcd => he cb (by rw [hcd]; rfl)
      rw [hclients, if_neg hcd, hnext]
      exact ⟨hc, h⟩
    | @closed d _ _ hclients _ hnext =>
      have hcd : c ≠ d := fun hcd => he .closed (by rw [hcd]; rfl)
      rw [hclients, if_neg hcd, hnext]
      exact ⟨hc, h⟩
  | node uv =>
    have hne : ∀ cb, e ≠ .client c cb := fun cb hcb => he cb (by rw [hcb]; rfl)
    exact (elsewhere_now (J := J) hdestroy).step hne ⟨hc, h⟩

/-- A connection that is new. -/
theorem conn_new {J : Client → Prop} (hnew : ∀ {k : Client}, Newborn k → J k)
    (hdestroy : ∀ {k : Client}, J k → J (NodeApp.destroy k)) (hs : p.Sane s)
    (ha : p.system.allowed s e) (hc : ¬ c < p.count s)
    (hc' : c < p.count (p.system.step s e)) : J (p.conn (p.system.step s e) c) := by
  have hlast : ∀ {n : ClientId}, p.count s = n → c < n + 1 → c = n := fun hn hlt =>
    Nat.le_antisymm (Nat.lt_succ_iff.mp hlt) (hn ▸ Nat.le_of_not_lt hc)
  cases p with
  | client uv =>
    change c < (clientStep uv s e).next at hc'
    show J ((clientStep uv s e).clients c)
    cases e with
    | newClient host port pingToSend =>
      obtain ⟨⟨res, hdial⟩, -, hnext⟩ := newClient_spec uv host port pingToSend s
      change c < (ClientApp.newClient uv host port pingToSend s).next at hc'
      obtain rfl := hlast (n := s.next) rfl (hnext ▸ hc')
      show J ((ClientApp.newClient uv host port pingToSend s).clients s.next)
      rw [hdial]
      exact hnew (.netClientOut host port pingToSend res)
    | client d cb =>
      have hcd : c ≠ d := fun hcd => hc (hcd ▸ ha.2.1)
      rw [(clientStep_elsewhere uv hcd cb (w := s)).2] at hc'
      exact absurd hc' hc
  | server uv =>
    have hm := serverStep_move hs ha
    change c < (serverStep uv s e).world.next at hc'
    show J ((serverStep uv s e).world.clients c)
    generalize (serverStep uv s e).world = w' at hm hc' ⊢
    cases hm with
    | accepted hclients _ hnext =>
      obtain rfl := hlast (n := s.world.next) rfl (hnext ▸ hc')
      rw [hclients, if_pos rfl]
      exact hnew (.netClientIn _ _)
    -- only an accepted connection is new
    | aside _ _ _ hnext | served _ _ _ _ _ hnext | closed _ _ _ _ hnext =>
      rw [hnext] at hc'
      exact absurd hc' hc
  | node uv =>
    have hne : ∀ cb, e ≠ .client c cb := by
      rintro cb rfl
      exact hc ha.2.1
    exact (bystander_newborn uv c hnew hdestroy).elsewhere.step hne (fun hc₀ => absurd hc₀ hc) hc'

end Program

/-! ## Every run -/

/-- A property of a connection that it starts out with, and that nothing breaks. -/
structure KeptConn (J : Client → Prop) : Prop where
  newborn : ∀ {k : Client}, Newborn k → J k
  destroy : ∀ {k : Client}, J k → J (NodeApp.destroy k)
  callback : KeptByCallbacks J

namespace KeptConn

variable {J : Client → Prop} (hJ : KeptConn J)

include hJ

/-- **One event of a program**: a connection has a callback of its own, is a bystander, or is
    new. -/
theorem step {p : Program} {s : p.Process} {e : p.Event} (hs : p.Sane s)
    (ha : p.system.allowed s e) (h : p.EachConn J s) : p.EachConn J (p.system.step s e) := by
  intro c hc'
  by_cases hc : c < p.count s
  · by_cases hown : ∃ cb, p.callback e = some (c, cb)
    · obtain ⟨cb, hcb⟩ := hown
      exact (Program.conn_own hJ.callback ha hcb (h c hc)).2
    · exact (Program.conn_other (J := J) hJ.destroy hs ha (fun cb hcb => hown ⟨cb, hcb⟩) hc
        (h c hc)).2
  · exact Program.conn_new hJ.newborn hJ.destroy hs ha hc hc'

/-- **Every connection of every program**, in every run. -/
theorem run (p : Program) {es : List p.Event} (hv : p.system.Valid p.init es) :
    p.EachConn J (p.system.run p.init es) := by
  have h₀ : p.EachConn J p.init := by
    cases p <;> exact fun c hc => absurd hc (Nat.not_lt_zero c)
  exact (System.run_invariant (I := fun s => p.Sane s ∧ p.EachConn J s)
    (fun _ _ h ha => ⟨Program.sane_step h.1 ha, hJ.step h.1 ha h.2⟩)
    ⟨p.sane_init, h₀⟩ hv).2

end KeptConn

theorem ConnRule.kept {J : Client → Prop} (hJ : ConnRule J) : KeptConn J where
  newborn h := by
    cases h with
    | netClientOut host port pingToSend res => exact hJ.netClientOut host port pingToSend res
    | peerClientOut host port res => exact hJ.peerClientOut host port res
    | netClientIn addr res => exact hJ.read res (hJ.netClientIn addr)
  destroy {k} h := hJ.same (NodeApp.sameConn_destroy k) (hJ.destroyed h)
  callback := hJ.toCallbackRule.kept

end TcpUv
