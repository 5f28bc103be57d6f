import TcpUv.Proof.Solo
import TcpUv.Lib.Monitor

/-!
# Closing once

Many paths lead to `close()`: a read error, the end of the stream, a failed write, a failed
`uv_write` or `uv_read_start`, the app. It takes the stream away before it does anything with
it, so only the first of them closes the handle; libuv then reports once, and `onClose` tells
the app and deletes the handle. `closeMonitor` is this order as a monitor of the history, and
`CloseInv` ties its phases to the stream and to libuv's view of the handle.

The owner of the connection acts on it between callbacks too (`ownedSystem`). What it cannot
do is connect again while a close is pending: `connect()` turns down every state a connection
is in then, and the monitor has no such step.
-/

set_option autoImplicit false

namespace TcpUv

open Lib

/-! ## A connection and its owner -/

/-- What can happen to a connection whose owner acts on it between callbacks, too. -/
inductive OwnedEvent where
  | event (e : SoloEvent)
  /-- the owner closes it or writes on it -/
  | calls (cs : List AppCall)

def ownedStep (uv : Uv) (c : ClientId) (w : World Script) : OwnedEvent → World Script
  | .event e => soloStep uv c w e
  | .calls cs => Script.calls uv c cs w

/-- `soloSystem`, with an owner. -/
def ownedSystem (uv : Uv) (c : ClientId) : System (World Script) OwnedEvent where
  step := ownedStep uv c
  allowed w e :=
    match e with
    | .event e => (soloSystem uv c).allowed w e
    | .calls _ => w.terminated = none

instance decidableOwnedAllowed (uv : Uv) (c : ClientId) (w : World Script) :
    ∀ e, Decidable ((ownedSystem uv c).allowed w e)
  | .event e => inferInstanceAs (Decidable ((soloSystem uv c).allowed w e))
  | .calls _ => inferInstanceAs (Decidable (w.terminated = none))

/-! ## The property -/

def Act.isUvClose : Act → Bool
  | .uvClose _ => true
  | _ => false

/-- **Closed once**: in a piece of the history without a `connect()`, `uv_close` is issued, the
    handle deleted and `connectionClosed` called at most once each; and since the last `connect()`
    the state was `Closing` before `connectionClosed` is called. -/
def ClosedOnce (k : Client) : Prop :=
  ∀ before piece later, k.acts = before ++ piece ++ later → .connectCall ∉ piece →
    piece.countP Act.isUvClose ≤ 1 ∧
    piece.countP (· = .deleteHandle) ≤ 1 ∧
    piece.countP (· = .connectionClosed) ≤ 1 ∧
    ((before = [] ∨ ∃ b, before = b ++ [.connectCall]) →
      ∀ l l', piece = l ++ .connectionClosed :: l' → .state .closing ∈ l)

/-- How far the close of a connection has come. -/
inductive ClosePhase where
  | fresh
  /-- the state was `Closing` -/
  | shut
  | requested
  | reported
  | deleted
  deriving DecidableEq

def ClosePhase.next : ClosePhase → Act → Option ClosePhase
  | .requested, .connectCall => none
  | .reported, .connectCall => none
  | _, .connectCall => some .fresh
  | .fresh, .state .closing => some .shut
  | .shut, .uvClose _ => some .requested
  | .requested, .connectionClosed => some .reported
  | .reported, .deleteHandle => some .deleted
  | _, .uvClose _ => none
  | _, .connectionClosed => none
  | _, .deleteHandle => none
  | q, _ => some q

def closeMonitor : Monitor Act ClosePhase := ⟨ClosePhase.next⟩

/-- What each phase means for the connection itself. -/
def ClosePhase.Ok : ClosePhase → Client → Prop
  | .fresh, k => k.tcp.closing = false ∧ k.tcp.closed = false
  | .shut, k => k.tcp.closing = false ∧ k.tcp.closed = false ∧ k.myUvStream = none
  | .requested, k => k.tcp.closing = true ∧ k.tcp.closed = false ∧ k.myUvStream = none ∧ k.Refuses
  | .reported, _ => False
  | .deleted, k => k.tcp.closing = true ∧ k.tcp.closed = true ∧ k.myUvStream = none

def CloseInv (k : Client) : Prop :=
  ∃ q, closeMonitor.runFrom .fresh k.acts = some q ∧ q.Ok k

/-! ## Reading the property off the monitor -/

/-- The phases in the order a close goes through them. -/
def ClosePhase.rank : ClosePhase → Nat
  | .fresh => 0
  | .shut => 1
  | .requested => 2
  | .reported => 3
  | .deleted => 4

/-- Without a `connect()` a close only moves on. -/
theorem ClosePhase.rank_le_next {q q' : ClosePhase} {a : Act} (ha : a ≠ .connectCall)
    (hn : q.next a = some q') : q.rank ≤ q'.rank := by
  cases a with
  | connectCall => exact absurd rfl ha
  | state s =>
    cases s with
    | closing => cases q <;> (cases hn; decide)
    | _ => cases q <;> (cases hn; decide)
  | uvClose h =>
    cases q <;> cases hn
    decide
  | connectionClosed =>
    cases q <;> cases hn
    decide
  | deleteHandle =>
    cases q <;> cases hn
    decide
  | _ => cases q <;> (cases hn; decide)

theorem ClosePhase.next_fresh {q' : ClosePhase} {a : Act} (ha : a ≠ .state .closing)
    (hn : ClosePhase.fresh.next a = some q') : q' = .fresh ∧ a ≠ .connectionClosed := by
  cases a with
  | state s =>
    cases s with
    | closing => exact absurd rfl ha
    | _ => exact ⟨(Option.some.inj hn).symm, fun h => nomatch h⟩
  | uvClose h => cases hn
  | deleteHandle => cases hn
  | connectionClosed => cases hn
  | _ => exact ⟨(Option.some.inj hn).symm, fun h => nomatch h⟩

/-- An entry that takes a close past the rank `n` happens once. -/
theorem ClosePhase.once {p : Act → Bool} (n : Nat)
    (hp : ∀ q a q', p a = true → closeMonitor.next q a = some q' → q.rank < n ∧ n ≤ q'.rank)
    {piece : List Act} (hno : .connectCall ∉ piece) {q q' : ClosePhase}
    (hrun : closeMonitor.runFrom q piece = some q') : piece.countP p ≤ 1 := by
  refine (Monitor.once (M := closeMonitor) (B := fun q => q.rank < n) (X := (· = .connectCall))
    (fun q a q' ha hn => ?_) (fun q a q' hb ha hn => ?_) (fun a ha he => hno (he ▸ ha)) hrun).1
  · exact ⟨(hp q a q' ha hn).1, Nat.not_lt.mpr (hp q a q' ha hn).2⟩
  · exact Nat.not_lt.mpr ((Nat.not_lt.mp hb).trans (ClosePhase.rank_le_next ha hn))

/-- An accepted history closes once in the sense of the property. -/
theorem CloseInv.closedOnce {k : Client} (h : CloseInv k) : ClosedOnce k := by
  obtain ⟨q, hrun, -⟩ := h
  intro before piece later hacts hno
  rw [hacts, List.append_assoc] at hrun
  obtain ⟨q₁, hbefore, hrun⟩ := closeMonitor.runFrom_split hrun
  obtain ⟨q₂, hpiece, -⟩ := closeMonitor.runFrom_split hrun
  refine ⟨?_, ?_, ?_, fun hstart l l' hl => ?_⟩
  · refine ClosePhase.once 2 (fun q a q' ha hn => ?_) hno hpiece
    cases a with
    | uvClose h =>
      cases q <;> cases hn
      decide
    | _ => cases ha
  · refine ClosePhase.once 4 (fun q a q' ha hn => ?_) hno hpiece
    obtain rfl : a = .deleteHandle := of_decide_eq_true ha
    cases q <;> cases hn
    decide
  · refine ClosePhase.once 3 (fun q a q' ha hn => ?_) hno hpiece
    obtain rfl : a = .connectionClosed := of_decide_eq_true ha
    cases q <;> cases hn
    decide
  · -- the piece begins in the first phase, which only `Closing` leaves
    have hfresh : q₁ = .fresh := by
      rcases hstart with rfl | ⟨b, rfl⟩
      · exact (Option.some.inj hbefore).symm
      · obtain ⟨q₀, -, hlast⟩ := closeMonitor.runFrom_split hbefore
        cases q₀ <;> cases hlast <;> rfl
    subst hfresh
    by_contra hnot
    rw [hl, ← List.singleton_append, ← List.append_assoc] at hpiece
    obtain ⟨q₃, hpiece, -⟩ := closeMonitor.runFrom_split hpiece
    have hstays := Monitor.stays (M := closeMonitor) (P := (· = .fresh))
      (X := (· = .state .closing)) (R := (· ≠ .connectionClosed))
      (fun q a q' hq ha hn => ClosePhase.next_fresh ha (hq ▸ hn)) rfl (fun a ha he => ?_) hpiece
    · exact hstays.2 .connectionClosed (by simp) rfl
    · rcases List.mem_append.mp ha with ha | ha
      · exact hnot (he ▸ ha)
      · rw [List.mem_singleton.mp ha] at he
        cases he

/-! ## The invariant -/

/-- An entry that moves no close on, nor back. -/
def Act.isPlain : Act → Bool
  | .connectCall => false
  | .state .closing => false
  | .uvClose _ => false
  | .connectionClosed => false
  | .deleteHandle => false
  | _ => true

theorem ClosePhase.next_plain {q : ClosePhase} {a : Act} (ha : a.isPlain = true) :
    q.next a = some q := by
  cases a with
  | state s =>
    cases s with
    | closing => cases ha
    | _ => cases q <;> rfl
  | connectCall => cases ha
  | uvClose h => cases ha
  | connectionClosed => cases ha
  | deleteHandle => cases ha
  | _ => cases q <;> rfl

namespace CloseInv

variable {k k' : Client}

/-- The invariant, from what a method appends to the history. -/
theorem extend {q : ClosePhase} (q' : ClosePhase) {l : List Act}
    (hrun : closeMonitor.runFrom .fresh k.acts = some q) (hacts : k'.acts = k.acts ++ l)
    (hl : closeMonitor.runFrom q l = some q') (hok : q'.Ok k') : CloseInv k' :=
  ⟨q', by rw [hacts, closeMonitor.runFrom_append hrun]; exact hl, hok⟩

/-- A move that closes nothing, and after which the state is the same or one `connect()` turns
    down. -/
theorem plain (h : CloseInv k) {l : List Act} (hacts : k'.acts = k.acts ++ l)
    (hl : ∀ a ∈ l, a.isPlain = true) (hstream : k'.myUvStream = k.myUvStream)
    (hclosing : k'.tcp.closing = k.tcp.closing) (hclosed : k'.tcp.closed = k.tcp.closed)
    (hstate : k'.myState = k.myState ∨ k'.Refuses) : CloseInv k' := by
  obtain ⟨q, hrun, hok⟩ := h
  have hplain : ∀ l : List Act, (∀ a ∈ l, a.isPlain = true) →
      closeMonitor.runFrom q l = some q := by
    intro l
    induction l with
    | nil => intro _; rfl
    | cons a l ih =>
      intro hl
      have ha : closeMonitor.next q a = some q := ClosePhase.next_plain (hl a (by simp))
      rw [closeMonitor.runFrom_cons_some ha]
      exact ih fun b hb => hl b (List.mem_cons_of_mem a hb)
  refine extend q hrun hacts (hplain l hl) ?_
  cases q with
  | fresh => exact ⟨hclosing.trans hok.1, hclosed.trans hok.2⟩
  | shut => exact ⟨hclosing.trans hok.1, hclosed.trans hok.2.1, hstream.trans hok.2.2⟩
  | requested =>
    refine ⟨hclosing.trans hok.1, hclosed.trans hok.2.1, hstream.trans hok.2.2.1, ?_⟩
    rcases hstate with hstate | hstate
    · unfold Client.Refuses
      rw [hstate]
      exact hok.2.2.2
    · exact hstate
  | reported => exact hok
  | deleted => exact ⟨hclosing.trans hok.1, hclosed.trans hok.2.1, hstream.trans hok.2.2⟩

theorem attached (h : CloseInv k) : k.Attached := by
  obtain ⟨q, _, hok⟩ := h
  intro hs
  cases q with
  | fresh => exact hok.1
  | shut => exact hok.1
  | requested => rw [hok.2.2.1] at hs; cases hs
  | reported => exact absurd hok id
  | deleted => rw [hok.2.2] at hs; cases hs

theorem same (hs : k.SameConn k') (h : CloseInv k) : CloseInv k' :=
  h.plain (l := []) (by rw [hs.acts, List.append_nil]) (fun _ ha => nomatch ha) hs.myUvStream
    (by rw [hs.tcp]) (by rw [hs.tcp]) (Or.inl hs.myState)

/-- `close()`, whatever the state: only with a stream there is a handle to close. -/
theorem shut (h : CloseInv k) : CloseInv k.shut := by
  obtain ⟨q, hrun, hok⟩ := h
  unfold Client.shut
  cases hs : k.myUvStream with
  | none =>
    have hlog : ((k.log .closeCall).setState .closing).acts =
        k.acts ++ [.closeCall, .state .closing] := by
      simp [Client.setState, Client.log]
    dsimp only
    cases q with
    | fresh => exact extend .shut hrun hlog rfl ⟨hok.1, hok.2, hs⟩
    | shut => exact extend .shut hrun hlog rfl hok
    | requested =>
      exact extend .requested hrun hlog rfl
        ⟨hok.1, hok.2.1, hok.2.2.1, Client.refuses_of_state .closing rfl (by decide)⟩
    | reported => exact absurd hok id
    | deleted => exact extend .deleted hrun hlog rfl hok
  | some hd =>
    have hlog : ({ (k.log .closeCall).setState .closing with myUvStream := none }.uvClose hd).acts =
        k.acts ++ [.closeCall, .state .closing, .uvClose hd] := by
      simp [Client.setState, Client.log, Client.uvClose]
    dsimp only
    cases q with
    | fresh =>
      exact extend .requested hrun hlog rfl
        ⟨rfl, hok.2, rfl, Client.refuses_of_state .closing rfl (by decide)⟩
    | shut => exact absurd (hok.2.2.symm.trans hs) (by simp)
    | requested => exact absurd (hok.2.2.1.symm.trans hs) (by simp)
    | reported => exact absurd hok id
    | deleted => exact absurd (hok.2.2.symm.trans hs) (by simp)

theorem send (m : Message) (res : Int) (h : CloseInv k) : CloseInv (k.send m res) := by
  unfold Client.send
  split
  · exact h.plain (l := [.sendMessage m]) rfl (by simp [Act.isPlain]) rfl rfl rfl (Or.inl rfl)
  · have hwritten : CloseInv
        (((k.log (.sendMessage m)).setState .sending).uvWrite (frame m) res) := by
      refine h.plain (l := [.sendMessage m, .state .sending, .uvWrite k.myUvStream (frame m)]) ?_
        (by simp [Act.isPlain]) rfl (Client.closing_uvWrite _ _ _) (Client.closed_uvWrite _ _ _)
        (Or.inr ?_)
      · simp [Client.setState, Client.log, Client.uvWrite]
      · exact Client.refuses_of_state .sending rfl (by decide)
    split
    · exact hwritten.shut
    · exact hwritten

/-- A violated assertion closes nothing. -/
theorem assert (site : Assertion) (b : Bool) (h : CloseInv k) : CloseInv (k.assert site b) := by
  unfold Client.assert
  split
  · exact h
  · exact h.plain (l := [.assertFailed site]) rfl (by simp [Act.isPlain]) rfl rfl rfl (Or.inl rfl)

theorem read (res : Int) (h : CloseInv k) : CloseInv (k.read res) := by
  have hread : ∀ k : Client, CloseInv k →
      CloseInv ((k.setState .receiving).uvReadStart res) := by
    intro k h
    refine h.plain (l := [.state .receiving, .uvReadStart k.myUvStream]) ?_ (by simp [Act.isPlain])
      rfl (Client.closing_uvReadStart _ _) (Client.closed_uvReadStart _ _) (Or.inr ?_)
    · simp [Client.setState, Client.uvReadStart]
    · exact Client.refuses_of_state .receiving rfl (by decide)
  unfold Client.read
  dsimp only
  split
  · exact (hread _ (h.assert .doRead _)).shut
  · exact hread _ (h.assert .doRead _)

theorem rule : SoloRule CloseInv where
  attached h := h.attached
  same hs h := h.same hs
  shut _ h := h.shut
  send m res h := h.send m res
  read res _ h := h.read res

/-- What the app does, in any state. -/
theorem calls (cs : List AppCall) : ∀ {k : Client}, CloseInv k → CloseInv (k.calls cs) := by
  induction cs with
  | nil => intro k h; exact h
  | cons a cs ih =>
    intro k h
    apply ih
    cases a with
    | reply m res => exact h.send m res
    | close => exact h.shut
    | setCanonPeerAddr a =>
      have hsame : k.SameConn (k.call (.setCanonPeerAddr a)) := ⟨rfl, rfl, rfl, rfl, rfl⟩
      exact h.same hsame

/-- The receive loop, whatever the reactions. -/
theorem rounds (cs : List (Str × Option Message)) : ∀ {rs : List (List AppCall)} {k : Client},
    CloseInv k → CloseInv (k.rounds cs rs) := by
  induction cs with
  | nil => intro rs k h; exact h
  | cons cut cs ih =>
    intro rs k h
    obtain ⟨rest, om⟩ := cut
    have hbuffer : CloseInv (k.setReceiveBuffer rest) := same (k := k) ⟨rfl, rfl, rfl, rfl, rfl⟩ h
    cases om with
    | none => exact ih hbuffer
    | some m =>
      have hgot : CloseInv ((k.setReceiveBuffer rest).handOver m) := by
        refine hbuffer.plain (l := [.state .received, .messageReceived m]) ?_
          (by simp [Act.isPlain]) rfl rfl rfl (Or.inr ?_)
        · simp [Client.handOver, Client.setState, Client.log]
        · exact Client.refuses_of_state .received rfl (by decide)
      exact ih (calls _ hgot)

/-! ### One event -/

variable {uv : Uv} {c : ClientId} {w : World Script}

/-- `process()`, whatever the state. -/
theorem process (h : CloseInv (w.clients c)) : CloseInv ((process uv c w).clients c) :=
  rule.process (Or.inr fun _ hk => hk.plain (l := [.assertFailed .unhandledState]) rfl
    (by simp [Act.isPlain]) rfl rfl rfl (Or.inl rfl)) h

/-- libuv's own bookkeeping, as long as it leaves the close where it is. -/
theorem bookkeeping (g : UvTcp → UvTcp)
    (hg : ∀ t, (g t).closing = t.closing ∧ (g t).closed = t.closed) (h : CloseInv (w.clients c)) :
    CloseInv ((w.modify c fun k => { k with tcp := g k.tcp }).clients c) := by
  rw [World.clients_modify_self]
  exact h.plain (l := []) (List.append_nil _).symm (fun _ ha => nomatch ha) rfl (hg _).1 (hg _).2
    (Or.inl rfl)

/-- Past its guard, `connect()` finds no close pending. -/
theorem connect (h : CloseInv (w.clients c)) : CloseInv ((connect uv c w).1.clients c) := by
  rcases clients_connect uv c w with ⟨-, heq⟩ | ⟨hguard, b, heq⟩
  · rw [heq]
    exact h
  · obtain ⟨q, hrun, hok⟩ := h
    have hq : q.next .connectCall = some .fresh := by
      -- while libuv has not reported, the state is one the guard turns down
      cases q with
      | requested => exact absurd hok.2.2.2 hguard
      | reported => exact absurd hok id
      | _ => rfl
    rw [heq]
    refine extend .fresh hrun (w.clients c).acts_dialled ?_ ⟨rfl, rfl⟩
    rw [closeMonitor.runFrom_cons_some hq]
    rfl

theorem onConnect (status : Int) (h : CloseInv (w.clients c)) :
    CloseInv ((onConnect uv c status w).clients c) := by
  rw [onConnect_eq]
  split
  · exact h
  · apply process
    obtain ⟨canon, heq⟩ := (w.clients c).establish_eq uv c
    rw [World.clients_modify_self, heq]
    exact h.plain (l := [.state .connected]) rfl (by simp [Act.isPlain]) rfl rfl rfl
      (Or.inr (Client.refuses_of_state .connected rfl (by decide)))

theorem onWrite (status : Int) (h : CloseInv (w.clients c)) :
    CloseInv ((onWrite uv c status w).clients c) := by
  unfold TcpUv.onWrite
  dsimp only
  split
  · rw [close_eq (by rw [World.clients_modify_self]; exact (h.assert .onWrite _).attached),
      World.clients_modify_self, World.clients_modify_self]
    exact (h.assert .onWrite _).shut
  · apply process
    rw [World.clients_modify_self]
    exact h.assert .onWrite _

theorem onRead (nread : Int) (buf : Option Str) (h : CloseInv (w.clients c)) :
    CloseInv ((onRead uv c nread buf w).world.clients c) := by
  by_cases hpos : 0 < nread
  · cases buf with
    | none =>
      rw [onRead_null uv hpos]
      exact process h
    | some base =>
      have hgot : CloseInv ((w.clients c).setReceiveBuffer ((w.clients c).buffered nread base)) :=
        same (k := w.clients c) ⟨rfl, rfl, rfl, rfl, rfl⟩ h
      obtain ⟨w', hend, ⟨-, e, hread⟩ | ⟨-, hread⟩⟩ :=
        onRead_rounds uv (c := c) h.attached hpos base
      · rw [hread, Outcome.world_throws, hend]
        exact rounds _ hgot
      · rw [hread, Outcome.world_returns]
        exact process (by rw [hend]; exact rounds _ hgot)
  · rw [onRead_ends uv hpos, Outcome.world_returns, close_eq h.attached,
      World.clients_modify_self]
    exact h.shut

/-- The report: one for each `uv_close`. -/
theorem onClose (hcl : (w.clients c).tcp.closing = true) (hcd : (w.clients c).tcp.closed = true)
    (hq : closeMonitor.runFrom .fresh (w.clients c).acts = some .requested)
    (hs : (w.clients c).myUvStream = none) : CloseInv ((onClose c w).clients c) := by
  rw [clients_onClose (fun _ => rfl)]
  refine extend .deleted hq (l := [.connectionClosed, .deleteHandle, .state .closed]) ?_ rfl
    ⟨hcl, hcd, hs⟩
  simp [Client.setState, Client.log]

theorem callback (cb : Callback) (ha : cb.allowed (w.clients c)) (h : CloseInv (w.clients c)) :
    CloseInv ((callback uv c w cb).world.clients c) := by
  cases cb with
  | connected status =>
    exact onConnect status
      (bookkeeping (fun t => { t with connecting := false }) (fun _ => ⟨rfl, rfl⟩) h)
  | read nread buf => exact onRead nread buf h
  | wrote status =>
    exact onWrite status
      (bookkeeping (fun t => { t with writes := t.writes - 1 }) (fun _ => ⟨rfl, rfl⟩) h)
  | closed =>
    obtain ⟨hcl, hcd, -, -⟩ := ha
    obtain ⟨q, hrun, hok⟩ := h
    cases q with
    | fresh => exact absurd (hok.1.symm.trans hcl) (by simp)
    | shut => exact absurd (hok.1.symm.trans hcl) (by simp)
    | requested =>
      refine onClose ?_ ?_ ?_ ?_
      · rw [World.clients_modify_self]
        exact hcl
      · rw [World.clients_modify_self]
      · rw [World.clients_modify_self]
        exact hrun
      · rw [World.clients_modify_self]
        exact hok.2.2.1
    | reported => exact absurd hok id
    | deleted => exact absurd (hok.2.1.symm.trans hcd) (by simp)
  | timer => exact rule.onTimer uv h

/-- **One event.** -/
theorem step (uv : Uv) (w : World Script) (e : OwnedEvent) (h : CloseInv (w.clients c))
    (ha : (ownedSystem uv c).allowed w e) :
    CloseInv (((ownedSystem uv c).step w e).clients c) := by
  cases e with
  | event e =>
    cases e with
    | connect => exact h.connect
    | callback cb reactions gossip =>
      show CloseInv (((soloSystem uv c).step w (.callback cb reactions gossip)).clients c)
      rw [clients_step_callback]
      exact callback (w := w.withScript reactions gossip) cb ha.2 h
  | calls cs =>
    show CloseInv ((Script.calls uv c cs w).clients c)
    rw [clients_script_calls uv cs h.attached]
    exact calls cs h

theorem init (hw : SoloInit uv c w) : CloseInv (w.clients c) := by
  cases hw with
  | netClientOut w host port ping hc =>
    subst hc
    rw [World.clients_create_next]
    exact ⟨.fresh, rfl, rfl, rfl⟩
  | peerClientOut w host port hc =>
    subst hc
    rw [World.clients_create_next]
    exact ⟨.fresh, rfl, rfl, rfl⟩
  | netClientIn w hc =>
    subst hc
    obtain ⟨addr, res, hread⟩ := clients_onNewConnection uv w
    rw [hread]
    exact read res ⟨.fresh, rfl, rfl, rfl⟩

theorem run {w₀ : World Script} (hw : SoloInit uv c w₀) {es : List OwnedEvent}
    (hv : (ownedSystem uv c).Valid w₀ es) : CloseInv (((ownedSystem uv c).run w₀ es).clients c) :=
  System.run_invariant (I := fun w => CloseInv (w.clients c)) (step uv) (init hw) hv

end CloseInv

/-- **Closed once**, in every run. -/
theorem closed_once (uv : Uv) (c : ClientId) {w : World Script} (hw : SoloInit uv c w)
    {es : List OwnedEvent} (hv : (ownedSystem uv c).Valid w es) :
    ClosedOnce (((ownedSystem uv c).run w es).clients c) :=
  (CloseInv.run hw hv).closedOnce

/-- An outgoing connection that its owner closes twice and a failed write once more, and that is
    connected again after libuv has reported the close. -/
theorem closed_once_twice : ClosedOnce (((ownedSystem Uv.cooperative 0).run
    (World.create (World.init {}) (NetClientOut.new "h".toList 7000 3))
    [.event .connect, .event (.callback (.connected 0) [] []),
      .calls [.close, .close], .event (.callback (.wrote (-125)) [] []),
      .event (.callback .closed [] []), .calls [.reply (.ping ['x']) 0],
      .event .connect]).clients 0) :=
  closed_once Uv.cooperative 0 (.netClientOut _ _ _ _ rfl) (by decide)

end TcpUv
