import TcpUv.Proof.ConnRules
import TcpUv.Proof.ServerReplies
import TcpUv.Proof.Wire

/-!
# What arrives at a program

One event of a program, seen from its inboxes. The bytes a callback brings go behind what the
connection had left over, and are cut and handed over like the stream they are part of
(`arrives`); every other inbox stands still. A callback whose lines all parse, and whose
messages the app takes, returns, and a callback that returns leaves the process running
(`terminated_step`).
-/

set_option autoImplicit false

namespace TcpUv

open Lib (segments segments_of_not_mem)

/-! ## What a callback brings -/

/-- What a network says is taken is what the callback brings. -/
theorem Callback.bytes_chunk {k : Client} {cb : Callback} (ha : cb.allowed k) :
    cb.bytes = cb.chunk.getD [] := by
  cases cb with
  | read nread buf =>
    cases buf with
    | none => rfl
    | some base =>
      unfold bytes chunk
      dsimp only
      split
      · rename_i hpos
        obtain ⟨base', hbase, hlen⟩ := ha.2.2 hpos
        obtain rfl := Option.some.inj hbase
        rw [← hlen, Int.toNat_natCast, List.take_length]
        rfl
      · rfl
  | _ => rfl

/-- An inbox, some bytes later. -/
def arrived (i : Str × List Message) (bytes : Str) : Str × List Message :=
  ((segments '\n' (i.1 ++ bytes)).2, i.2 ++ requests (i.1 ++ bytes))

theorem arrived_nil {i : Str × List Message} (h : '\n' ∉ i.1) : arrived i [] = i := by
  rw [arrived, requests, lines, List.append_nil, segments_of_not_mem h]
  exact Prod.ext rfl (List.append_nil _)

section

variable {σ : Type} [App σ] [KeepsInbox σ] (uv : Uv) {c : ClientId} {w : World σ}
  {i : Str × List Message}

/-- A callback that brings nothing leaves the inbox alone. -/
theorem callback_still {cb : Callback} (ha : cb.allowed (w.clients c))
    (hno : ∀ nread base, cb = .read nread (some base) → ¬ 0 < nread)
    (hin : HasInbox c i w) : ∃ w', callback uv c w cb = .returns w' ∧ HasInbox c i w' := by
  have hrobust := robustProcess_hasInbox (σ := σ) uv c i
  have htcp : ∀ g : UvTcp → UvTcp, HasInbox c i (w.modify c fun k => { k with tcp := g k.tcp }) :=
    fun g => hin.modify rfl
  cases cb with
  | connected status =>
    refine ⟨_, rfl, ?_⟩
    rw [onConnect_eq]
    have hcounted := htcp fun t => { t with connecting := false }
    split
    · exact hcounted
    · refine hrobust.process (hcounted.modify ?_)
      obtain ⟨canon, heq⟩ := Client.establish_eq uv c
        ((w.modify c fun k => { k with tcp := { k.tcp with connecting := false } }).clients c)
      rw [heq]
      exact (Client.Quiet.setState .connected _).inbox
  | read nread buf =>
    by_cases hpos : 0 < nread
    · obtain ⟨base, rfl, -⟩ := ha.2.2 hpos
      exact absurd hpos (hno nread base rfl)
    · refine ⟨_, onRead_ends uv hpos buf w, hrobust.toRobust.close hin⟩
  | wrote status =>
    have hassert := hrobust.quiet (fun k => Client.Quiet.assert .onWrite
      (k.myState = .sending || k.myState = .receiving || k.myState = .received) k)
      (htcp fun t => { t with writes := t.writes - 1 })
    refine ⟨_, rfl, ?_⟩
    unfold onWrite
    dsimp only
    split
    · exact hrobust.toRobust.close hassert
    · exact hrobust.process hassert
  | closed => exact ⟨_, rfl, hrobust.toRobust.onClose (htcp fun t => { t with closed := true })⟩
  | timer => exact ⟨_, rfl, hrobust.onTimer hin⟩

/-- **What a callback brings is cut and handed over**, if it can be. -/
theorem callback_arrives {cb : Callback} (ha : cb.allowed (w.clients c)) (hbuffer : '\n' ∉ i.1)
    (hclean : CleanLines (i.1 ++ cb.bytes))
    (happ : ∀ m ∈ requests (i.1 ++ cb.bytes), Takes (σ := σ) uv c m) (hin : HasInbox c i w) :
    ∃ w', callback uv c w cb = .returns w' ∧ HasInbox c (arrived i cb.bytes) w' := by
  by_cases hdata : ∃ nread base, cb = .read nread (some base) ∧ 0 < nread
  · obtain ⟨nread, base, rfl, hpos⟩ := hdata
    obtain ⟨base', hbase, hlen⟩ := ha.2.2 hpos
    obtain rfl := Option.some.inj hbase
    -- as many bytes as libuv says, and they are not none
    have hne : base ≠ [] := by
      rintro rfl
      exact absurd hlen (Int.ne_of_lt hpos)
    have hbytes : Callback.bytes (.read nread (some base)) = base := by
      rw [Callback.bytes_data hpos, ← hlen, Int.toNat_natCast, List.take_length]
    rw [hbytes] at hclean happ ⊢
    obtain ⟨buffer, ms⟩ := i
    subst hlen
    obtain ⟨w', hw', hin', -⟩ := onRead_eq (standing_true uv c) hne hin trivial hclean
      fun m hm => (happ m hm).takesIn _
    exact ⟨w', hw', hin'⟩
  · have hno : ∀ nread base, cb = .read nread (some base) → ¬ 0 < nread :=
      fun nread base he hpos => hdata ⟨nread, base, he, hpos⟩
    rw [Callback.bytes_none hno, arrived_nil hbuffer]
    exact callback_still uv ha hno hin

end

/-! ## The process -/

/-- An app that leaves it to the event loop to end the process. -/
class LeavesRunning (σ : Type) [App σ] : Prop where
  connectionClosed : ∀ (c : ClientId) (w : World σ),
    (BaseApp.connectionClosed c w).terminated = w.terminated
  sendOtherPeers : ∀ (uv : Uv) (c : ClientId) (w : World σ),
    (App.sendOtherPeers uv c w).terminated = w.terminated
  messageReceived : ∀ (uv : Uv) (c : ClientId) (m : Message) (w : World σ),
    (App.messageReceived uv c m w).world.terminated = w.terminated
  listenStarted : ∀ (uv : Uv) (port : Int32) (w : World σ),
    (App.listenStarted uv port w).terminated = w.terminated
  inConnectionReceived : ∀ (c : ClientId) (w : World σ),
    (App.inConnectionReceived c w).terminated = w.terminated

theorem terminated_connect {σ : Type} [BaseApp σ] (uv : Uv) (c : ClientId) (w : World σ) :
    (connect uv c w).1.terminated = w.terminated := by
  rcases connect_cases uv c w with ⟨-, heq⟩ | ⟨-, res, heq⟩
  · rw [heq]
  · rw [heq, World.terminated_modify]

section

variable {σ : Type} [App σ] [LeavesRunning σ] (uv : Uv) (t : Option StdException)

theorem robustApp_terminated (c : ClientId) :
    RobustApp uv c (fun w : World σ => w.terminated = t) where
  quiet _ h := h
  connectionClosed h := (LeavesRunning.connectionClosed c _).trans h
  greets _ h := h
  sendOtherPeers h := (LeavesRunning.sendOtherPeers uv c _).trans h
  connected h _ := h
  buffer _ h := h
  message _ h := (LeavesRunning.messageReceived uv c _ _).trans h

variable {t} {w : World σ}

theorem terminated_doListenFrom : ∀ (n : Nat) (port : Int32) {w : World σ}, w.terminated = t →
    (doListenFrom uv n port w).1.terminated = t := by
  intro n
  induction n with
  | zero => intro port w h; exact h
  | succ n ih =>
    intro port w h
    rw [doListenFrom]
    split
    · exact (LeavesRunning.listenStarted uv port _).trans h
    · exact ih (port + 1) h

theorem terminated_onNewConnection (status acceptRes : Int) (h : w.terminated = t) :
    (onNewConnection uv status acceptRes w).terminated = t := by
  unfold onNewConnection
  split
  · exact h
  · split
    · exact h
    · refine (robustApp_terminated uv t w.next).toRobust.doRead uv ?_
      exact (LeavesRunning.inConnectionReceived w.next _).trans h

/-- A callback that returns leaves the process running. -/
theorem terminated_callback {c : ClientId} {cb : Callback}
    (hret : (callback uv c w cb).threw = false) (h : w.terminated = t) :
    (callback uv c w cb).settle.terminated = t := by
  have hworld := (robustApp_terminated (σ := σ) uv t c).callback cb h
  cases ho : callback uv c w cb with
  | returns w' =>
    rw [ho] at hworld
    exact hworld
  | throws e w' =>
    rw [ho] at hret
    cases hret

end

instance : LeavesRunning ClientApp where
  connectionClosed _ _ := rfl
  sendOtherPeers _ _ _ := rfl
  messageReceived _ _ _ _ := rfl
  listenStarted _ _ _ := rfl
  inConnectionReceived _ _ := rfl

instance : LeavesRunning ServerApp where
  connectionClosed c w := (ServerApp.rest_connectionClosed c w).2.1
  sendOtherPeers _ _ _ := rfl
  messageReceived uv c m w := by
    have hrobust : Robust c (fun w' : World ServerApp => w'.terminated = w.terminated) :=
      ⟨fun _ h => h, fun h => (ServerApp.rest_connectionClosed c _).2.1.trans h, fun _ h => h⟩
    show (ServerApp.messageReceived uv c m w).world.terminated = w.terminated
    cases m with
    | handshake myVersion yourAddr myAddr =>
      unfold ServerApp.messageReceived
      dsimp only
      split
      · exact hrobust.close rfl
      · exact hrobust.sendMessage uv rfl
    | ping text => exact hrobust.sendMessage uv rfl
    | _ => rfl
  listenStarted _ _ _ := rfl
  inConnectionReceived c w := (ServerApp.rest_inConnectionReceived c w).2

namespace NodeApp

theorem terminated_connectionClosed (c : ClientId) (w : NodeWorld) :
    (connectionClosed c w).terminated = w.terminated := by
  have hfold : ∀ (ds : List ClientId) (w : NodeWorld),
      (ds.foldl (fun w d => w.modify d destroy) w).terminated = w.terminated := by
    intro ds
    induction ds with
    | nil => intro w; rfl
    | cons d ds ih => intro w; exact ih (w.modify d destroy)
  exact hfold _ w

theorem terminated_tryCandidate (uv : Uv) (w : NodeWorld) (key : Str) :
    (tryCandidate uv w key).terminated = w.terminated := by
  have hround := round_tryCandidate uv w key
  generalize tryCandidate uv w key = w' at hround ⊢
  cases hround with
  | skipped => rfl
  | self => rfl
  | attempted => exact terminated_connect uv w.next _
  | failed => exact terminated_connect uv w.next _

theorem terminated_tryOutConnections (uv : Uv) (w : NodeWorld) :
    (tryOutConnections uv w).terminated = w.terminated :=
  rounds_preserve (I := fun w' => w'.terminated = w.terminated)
    (fun key _ w' h => (terminated_tryCandidate uv w' key).trans h) rfl

theorem robust_terminated (c : ClientId) (t : Option StdException) :
    Robust c (fun w : NodeWorld => w.terminated = t) :=
  ⟨fun _ h => h, fun h => (terminated_connectionClosed c _).trans h, fun _ h => h⟩

end NodeApp

instance : LeavesRunning NodeApp where
  connectionClosed := NodeApp.terminated_connectionClosed
  sendOtherPeers uv c w :=
    NodeApp.gossip_preserves (I := fun w' => w'.terminated = w.terminated)
      (fun _ _ _ h => (NodeApp.robust_terminated c _).sendMessage uv h) rfl
  messageReceived uv c m w :=
    NodeApp.messageReceived_preserves (I := fun w' => w'.terminated = w.terminated)
      (fun h => (NodeApp.robust_terminated c _).close h)
      (fun _ h => (NodeApp.robust_terminated c _).sendMessage uv h) (fun _ h => h)
      (fun _ _ h => h) (fun key h => (NodeApp.terminated_tryCandidate uv _ key).trans h) m rfl
  listenStarted uv _ _ := NodeApp.terminated_tryOutConnections uv _
  inConnectionReceived _ _ := rfl

/-! ## A program -/

namespace Program

/-- The program's app takes the message and returns. -/
def Takes : Program → ClientId → Message → Prop
  | .client uv, c, m => TcpUv.Takes (σ := ClientApp) uv c m
  | .server uv, c, m => TcpUv.Takes (σ := ServerApp) uv c m
  | .node uv, c, m => TcpUv.Takes (σ := NodeApp) uv c m

/-- An exception leaves the callback. -/
def threw : (p : Program) → p.Process → ClientId → Callback → Bool
  | .client uv, w, c, cb => (TcpUv.callback uv c w cb).threw
  | .server uv, s, c, cb => (TcpUv.callback uv c s.world cb).threw
  | .node uv, w, c, cb => (TcpUv.callback uv c w cb).threw

variable {p : Program} {s : p.Process} {e : p.Event} {c : ClientId}

/-- **Only an exception ends a process.** -/
theorem terminated_step
    (hret : ∀ c cb, p.callback e = some (c, cb) → p.threw s c cb = false)
    (h : p.terminated s = none) : p.terminated (p.system.step s e) = none := by
  cases p with
  | client uv =>
    cases e with
    | newClient host port pingToSend => exact (terminated_connect uv s.next _).trans h
    | client c cb => exact terminated_callback uv (hret c cb rfl) h
  | server uv =>
    cases e with
    | listen params => exact terminated_doListenFrom uv _ _ h
    | startUvLoop =>
      show (serverStep uv s .startUvLoop).world.terminated = none
      unfold serverStep
      dsimp only
      split <;> exact h
    | setName =>
      show (serverStep uv s .setName).world.terminated = none
      unfold serverStep
      dsimp only
      split <;> exact h
    | newConnection status acceptRes => exact terminated_onNewConnection uv status acceptRes h
    | client c cb => exact terminated_callback uv (hret c cb rfl) h
  | node uv =>
    cases e with
    | start params =>
      have hlisten := terminated_doListenFrom uv
        (max (min params.listenPortRange.toInt 10) 1).toNat params.listenPort
        (w := { s with app := s.app.addStartCandidates params.extraPeers }) h
      show (NodeApp.start uv params s).terminated = none
      unfold NodeApp.start startWithListen
      dsimp only
      split
      · exact hlisten
      · exact hlisten
    | listenStarted port => exact (LeavesRunning.listenStarted uv port s).trans h
    | newConnection status acceptRes => exact terminated_onNewConnection uv status acceptRes h
    | client c cb => exact terminated_callback uv (hret c cb rfl) h

section

variable {i : Str × List Message} {cb : Callback} (ha : p.system.allowed s e)
  (he : p.callback e = some (c, cb)) (hbuffer : '\n' ∉ i.1)
  (hclean : CleanLines (i.1 ++ cb.bytes)) (happ : ∀ m ∈ requests (i.1 ++ cb.bytes), p.Takes c m)
  (hin : (p.conn s c).inbox = i)

include ha he hbuffer hclean happ hin

/-- **What a callback of a program brings** is cut and handed over. -/
theorem arrives : p.threw s c cb = false ∧
    (p.conn (p.system.step s e) c).inbox = arrived i cb.bytes := by
  obtain ⟨hc, hcb⟩ := allowed_callback ha he
  cases p with
  | client uv =>
    cases e with
    | client d cb' =>
      obtain ⟨rfl, rfl⟩ := Prod.mk.inj (Option.some.inj he)
      obtain ⟨w', hw', hin'⟩ := callback_arrives (w := s) uv hcb hbuffer hclean happ ⟨hc, hin⟩
      refine ⟨congrArg Outcome.threw hw', ?_⟩
      show ((TcpUv.callback uv _ s _).settle.clients _).inbox = _
      rw [hw']
      exact hin'.2
    | newClient => cases he
  | server uv =>
    cases e with
    | client d cb' =>
      obtain ⟨rfl, rfl⟩ := Prod.mk.inj (Option.some.inj he)
      obtain ⟨w', hw', hin'⟩ := callback_arrives (w := s.world) uv hcb hbuffer hclean happ ⟨hc, hin⟩
      refine ⟨congrArg Outcome.threw hw', ?_⟩
      show ((TcpUv.callback uv _ s.world _).settle.clients _).inbox = _
      rw [hw']
      exact hin'.2
    | _ => cases he
  | node uv =>
    cases e with
    | client d cb' =>
      obtain ⟨rfl, rfl⟩ := Prod.mk.inj (Option.some.inj he)
      obtain ⟨w', hw', hin'⟩ := callback_arrives (w := s) uv hcb hbuffer hclean happ ⟨hc, hin⟩
      refine ⟨congrArg Outcome.threw hw', ?_⟩
      show ((TcpUv.callback uv _ s _).settle.clients _).inbox = _
      rw [hw']
      exact hin'.2
    | _ => cases he

end

theorem inbox_destroy (k : Client) : (NodeApp.destroy k).inbox = k.inbox := by
  unfold NodeApp.destroy
  rw [Client.inbox_log rfl]
  split <;> rfl

theorem inbox_newborn {k : Client} (h : Newborn k) : k.inbox = ([], []) := by
  have hdial : ∀ {k : Client} (res : Int), k.inbox = ([], []) → (k.dial res).inbox = ([], []) := by
    intro k res hk
    obtain ⟨b, hb⟩ := k.dial_eq res
    rw [hb]
    exact ((Client.Quiet.log (a := .connectCall) rfl k).trans
      ((Client.Quiet.setState .connecting _).trans (.silent rfl))).inbox.trans hk
  cases h with
  | netClientOut host port pingToSend res => exact hdial res rfl
  | peerClientOut host port res => exact hdial res rfl
  | netClientIn addr res =>
    have hidle := Client.Idle.read res (NetClientIn.new addr)
    exact Prod.ext hidle.myReceiveBuffer hidle.delivered

end Program

end TcpUv
