import TcpUv.Proof.Solo
import TcpUv.Lib.Monitor

/-!
# Closing is final — except inside a read

Once `close()` was called, a connection should be quiet until a later `connect()`: no
message handed over, nothing written, no reading, the state `Closing` and then `Closed`.
The monitor `closingMonitor` says this about a client's history, and `ClosingInv` ties its
phase to the state, the stream and libuv's view.

The one way to break it is the receive loop: it does not look at the state between two
messages of one read, and sets it to `Received` for each. So the condition under which
closing *is* final is about reactions: in one read, only the reaction to the last message
may close (`closing_final`); `closing_not_final` is a read that shows the defect.
-/

set_option autoImplicit false

namespace TcpUv

open Lib

/-! ## The property -/

/-- What may still happen to a connection after `close()`. -/
def Act.afterClose : Act → Prop
  | .state s => s = .closing ∨ s = .closed
  | .messageReceived _ => False
  | .uvWrite _ _ => False
  | .uvReadStart _ => False
  | _ => True

/-- **Closing is final.** From a `close()` up to the next `connect()`, the state is
    `Closing` or `Closed` and does not go back, no message is handed over, and neither
    `uv_write` nor `uv_read_start` is called. -/
def ClosingFinal (k : Client) : Prop :=
  ∀ before after later, k.acts = before ++ .closeCall :: (after ++ later) →
    .connectCall ∉ after →
    (∀ a ∈ after, a.afterClose) ∧
      (∀ l l', after = l ++ .state .closed :: l' → .state .closing ∉ l') ∧
      (later = [] → k.myState = .closing ∨ k.myState = .closed)

inductive Phase where
  | live | closing | closed
  deriving DecidableEq

def Phase.next : Phase → Act → Option Phase
  | .live, .closeCall => some .closing
  | .live, _ => some .live
  | _, .connectCall => some .live
  | .closing, .state .closing => some .closing
  | _, .state .closed => some .closed
  | _, .state _ => none
  | _, .messageReceived _ => none
  | _, .uvWrite _ _ => none
  | _, .uvReadStart _ => none
  | q, _ => some q

def closingMonitor : Monitor Act Phase := ⟨Phase.next⟩

/-! ## The invariant -/

/-- What each phase means for the connection itself. -/
def PhaseOk : Phase → Client → Prop
  | .live, k => k.IsOpen ∧ k.tcp.closing = false ∧
      (k.myUvStream = none → k.tcp.reading = false ∧ k.tcp.connecting = false)
  | .closing, k => k.myState = .closing ∧ k.myUvStream = none ∧ k.tcp.reading = false ∧
      (k.tcp.connecting = true → k.tcp.closing = true)
  | .closed, k => k.myState = .closed ∧ k.myUvStream = none ∧ k.tcp.reading = false ∧
      k.tcp.closing = true ∧ k.tcp.closed = true

def ClosingInv (k : Client) : Prop :=
  ∃ q, closingMonitor.runFrom .live k.acts = some q ∧ PhaseOk q k

theorem Phase.next_shut {q q' : Phase} {a : Act} (hq : q = .closing ∨ q = .closed)
    (ha : ¬ a = .connectCall) (hn : q.next a = some q') :
    (q' = .closing ∨ q' = .closed) ∧ a.afterClose := by
  rcases hq with rfl | rfl
  · cases a with
    | state s =>
      cases s with
      | closing => exact ⟨Or.inl (Option.some.inj hn).symm, Or.inl rfl⟩
      | closed => exact ⟨Or.inr (Option.some.inj hn).symm, Or.inr rfl⟩
      | _ => cases hn
    | connectCall => exact absurd rfl ha
    | messageReceived m => cases hn
    | uvWrite st fr => cases hn
    | uvReadStart st => cases hn
    | _ => exact ⟨Or.inl (Option.some.inj hn).symm, trivial⟩
  · cases a with
    | state s =>
      cases s with
      | closed => exact ⟨Or.inr (Option.some.inj hn).symm, Or.inr rfl⟩
      | _ => cases hn
    | connectCall => exact absurd rfl ha
    | messageReceived m => cases hn
    | uvWrite st fr => cases hn
    | uvReadStart st => cases hn
    | _ => exact ⟨Or.inr (Option.some.inj hn).symm, trivial⟩

theorem Phase.next_closed {q' : Phase} {a : Act} (ha : ¬ a = .connectCall)
    (hn : Phase.closed.next a = some q') : q' = .closed ∧ a ≠ .state .closing := by
  cases a with
  | state s =>
    cases s with
    | closed => exact ⟨(Option.some.inj hn).symm, fun h => nomatch h⟩
    | _ => cases hn
  | connectCall => exact absurd rfl ha
  | messageReceived m => cases hn
  | uvWrite st fr => cases hn
  | uvReadStart st => cases hn
  | _ => exact ⟨(Option.some.inj hn).symm, fun h => nomatch h⟩

/-- An accepted history is final in the sense of the property. -/
theorem ClosingInv.final {k : Client} (h : ClosingInv k) : ClosingFinal k := by
  obtain ⟨q, hrun, hok⟩ := h
  intro before after later hacts hconn
  rw [hacts] at hrun
  obtain ⟨q₁, _, hrun⟩ := closingMonitor.runFrom_split hrun
  have hcall : ∃ q₂, q₁.next .closeCall = some q₂ ∧ (q₂ = .closing ∨ q₂ = .closed) := by
    cases q₁ with
    | live => exact ⟨_, rfl, Or.inl rfl⟩
    | closing => exact ⟨_, rfl, Or.inl rfl⟩
    | closed => exact ⟨_, rfl, Or.inr rfl⟩
  obtain ⟨q₂, hnext, hshut⟩ := hcall
  rw [closingMonitor.runFrom_cons_some hnext] at hrun
  obtain ⟨q₃, hrun, hlater⟩ := closingMonitor.runFrom_split hrun
  have hx : ∀ a ∈ after, ¬ a = .connectCall := fun a ha he => hconn (he ▸ ha)
  have hstep : ∀ q a q', (q = .closing ∨ q = .closed) → ¬ a = Act.connectCall →
      closingMonitor.next q a = some q' → (q' = .closing ∨ q' = .closed) ∧ a.afterClose :=
    fun _ _ _ hq ha hn => Phase.next_shut hq ha hn
  have hstays := Monitor.stays hstep hshut hx hrun
  refine ⟨hstays.2, ?_, ?_⟩
  · intro l l' hl hback
    rw [hl] at hrun
    obtain ⟨q₄, hq₄, hrun⟩ := closingMonitor.runFrom_split hrun
    have hq₄ := (Monitor.stays hstep hshut (fun a ha => hx a (by simp [hl, ha])) hq₄).1
    have hclosed : q₄.next (.state .closed) = some .closed := by
      rcases hq₄ with rfl | rfl <;> rfl
    rw [closingMonitor.runFrom_cons_some hclosed] at hrun
    have hend := Monitor.stays (M := closingMonitor) (P := (· = .closed))
      (X := (· = .connectCall)) (R := (· ≠ .state .closing))
      (fun q a q' hq ha hn => Phase.next_closed ha (hq ▸ hn)) rfl
      (fun a ha => hx a (by simp [hl, ha])) hrun
    exact hend.2 _ hback rfl
  · -- nothing after it: the phase the history ends in is the client's own
    intro hnil
    rw [hnil] at hlater
    cases hlater
    rcases hstays.1 with rfl | rfl
    · exact Or.inl hok.1
    · exact Or.inr hok.1

namespace ClosingInv

variable {k k' : Client}

/-- The invariant, from what a method appends to the history. -/
theorem extend {q : Phase} (q' : Phase) {l : List Act}
    (hrun : closingMonitor.runFrom .live k.acts = some q) (hacts : k'.acts = k.acts ++ l)
    (hl : closingMonitor.runFrom q l = some q') (hok : PhaseOk q' k') : ClosingInv k' :=
  ⟨q', by rw [hacts, closingMonitor.runFrom_append hrun]; exact hl, hok⟩

theorem attached (h : ClosingInv k) : k.Attached := by
  obtain ⟨q, _, hok⟩ := h
  intro hs
  cases q with
  | live => exact hok.2.1
  | closing => rw [hok.2.1] at hs; cases hs
  | closed => rw [hok.2.1] at hs; cases hs

/-- An open connection is in the phase of open connections. -/
theorem live (h : ClosingInv k) (hopen : k.IsOpen) :
    closingMonitor.runFrom .live k.acts = some .live ∧ PhaseOk .live k := by
  obtain ⟨q, hrun, hok⟩ := h
  cases q with
  | live => exact ⟨hrun, hok⟩
  | closing => exact absurd hok.1 hopen.1
  | closed => exact absurd hok.1 hopen.2

theorem same (hs : k.SameConn k') (h : ClosingInv k) : ClosingInv k' := by
  obtain ⟨q, hrun, hok⟩ := h
  refine ⟨q, by rw [hs.acts]; exact hrun, ?_⟩
  cases q with
  | live =>
    obtain ⟨hopen, hrest⟩ := hok
    refine ⟨⟨?_, ?_⟩, ?_⟩
    · rw [hs.myState]
      exact hopen.1
    · rw [hs.myState]
      exact hopen.2
    · rw [hs.tcp, hs.myUvStream]
      exact hrest
  | closing =>
    refine ⟨hs.myState.trans hok.1, hs.myUvStream.trans hok.2.1, ?_⟩
    rw [hs.tcp]
    exact hok.2.2
  | closed =>
    refine ⟨hs.myState.trans hok.1, hs.myUvStream.trans hok.2.1, ?_⟩
    rw [hs.tcp]
    exact hok.2.2

/-- `close()` on a connection that is not closed yet. -/
theorem shut (hne : k.myState ≠ .closed) (h : ClosingInv k) : ClosingInv k.shut := by
  obtain ⟨q, hrun, hok⟩ := h
  have hq : q.next .closeCall = some .closing := by
    cases q with
    | live => rfl
    | closing => rfl
    | closed => exact absurd hok.1 hne
  unfold Client.shut
  cases hs : k.myUvStream with
  | none =>
    refine extend .closing hrun (l := [.closeCall, .state .closing]) ?_ ?_ ?_
    · simp [Client.setState, Client.log]
    · rw [closingMonitor.runFrom_cons_some hq]
      rfl
    · refine ⟨rfl, hs, ?_⟩
      show k.tcp.reading = false ∧ (k.tcp.connecting = true → k.tcp.closing = true)
      cases q with
      | live =>
        obtain ⟨hr, hc⟩ := hok.2.2 hs
        exact ⟨hr, fun h => by rw [hc] at h; cases h⟩
      | closing => exact hok.2.2
      | closed => exact absurd hok.1 hne
  | some hd =>
    refine extend .closing hrun (l := [.closeCall, .state .closing, .uvClose hd]) ?_ ?_ ?_
    · simp [Client.setState, Client.log, Client.uvClose]
    · rw [closingMonitor.runFrom_cons_some hq]
      rfl
    · exact ⟨rfl, rfl, rfl, fun _ => rfl⟩

/-- A write of the state and calls to libuv, on an open connection. -/
theorem open_extend (h : ClosingInv k) (hopen : k.IsOpen) {l : List Act}
    (hl : ∀ a ∈ l, a ≠ .closeCall) (hacts : k'.acts = k.acts ++ l) (hopen' : k'.IsOpen)
    (hclosing : k'.tcp.closing = k.tcp.closing) (hstream : k'.myUvStream = k.myUvStream)
    (hidle : k.myUvStream = none →
      k'.tcp.reading = k.tcp.reading ∧ k'.tcp.connecting = k.tcp.connecting) :
    ClosingInv k' := by
  obtain ⟨hrun, _, hcl, hnone⟩ := h.live hopen
  have hlive : ∀ l : List Act, (∀ a ∈ l, a ≠ .closeCall) →
      closingMonitor.runFrom .live l = some .live := by
    intro l
    induction l with
    | nil => intro _; rfl
    | cons a l ih =>
      intro hl
      have ha : Phase.live.next a = some .live := by
        cases a with
        | closeCall => exact absurd rfl (hl _ (by simp))
        | _ => rfl
      rw [closingMonitor.runFrom_cons_some ha]
      exact ih fun b hb => hl b (List.mem_cons_of_mem a hb)
  refine extend .live hrun hacts (hlive l hl) ⟨hopen', hclosing.trans hcl, fun hn => ?_⟩
  rw [hstream] at hn
  obtain ⟨hr, hc⟩ := hidle hn
  exact ⟨hr.trans (hnone hn).1, hc.trans (hnone hn).2⟩

theorem send (m : Message) (res : Int) (h : ClosingInv k) : ClosingInv (k.send m res) := by
  unfold Client.send
  split
  · -- only the call itself is recorded
    obtain ⟨q, hrun, hok⟩ := h
    refine extend q hrun (l := [.sendMessage m]) rfl ?_ ?_
    · cases q <;> rfl
    · cases q <;> exact hok
  · rename_i hopen
    rw [not_or] at hopen
    have hsent : ClosingInv (((k.log (.sendMessage m)).setState .sending).uvWrite (frame m) res) := by
      refine h.open_extend hopen (l := [.sendMessage m, .state .sending,
        .uvWrite k.myUvStream (frame m)]) (by simp) ?_
        ⟨(fun h => nomatch h), fun h => nomatch h⟩ (Client.closing_uvWrite _ _ _) rfl fun _ =>
          ⟨Client.reading_uvWrite _ _ _, Client.connecting_uvWrite _ _ _⟩
      simp [Client.setState, Client.log, Client.uvWrite]
    split
    · exact shut (fun h => nomatch h) hsent
    · exact hsent

theorem read (res : Int) (hs : k.myState = .sending ∨ k.myState = .sent ∨
    k.myState = .receiving ∨ k.myState = .accepted) (h : ClosingInv k) : ClosingInv (k.read res) := by
  have hopen : k.IsOpen := by
    rcases hs with hs | hs | hs | hs <;> exact ⟨by rw [hs]; decide, by rw [hs]; decide⟩
  have hread : ClosingInv ((k.setState .receiving).uvReadStart res) := by
    refine h.open_extend hopen (l := [.state .receiving, .uvReadStart k.myUvStream]) (by simp) ?_
      ⟨(fun h => nomatch h), fun h => nomatch h⟩ (Client.closing_uvReadStart _ _) rfl fun hn => ?_
    · simp [Client.setState, Client.uvReadStart]
    · rw [Client.tcp_uvReadStart_none (k := k.setState .receiving) hn]
      exact ⟨rfl, rfl⟩
  unfold Client.read
  rw [Client.assert_doRead hs]
  dsimp only
  split
  · exact shut (fun h => nomatch h) hread
  · exact hread

theorem rule : SoloRule ClosingInv where
  attached h := h.attached
  same hs h := h.same hs
  shut hne h := h.shut hne
  send m res h := h.send m res
  read res hs h := h.read res (by rcases hs with hs | hs | hs <;> simp [hs])

/-- The receive loop, when only the reaction to its last message closes. -/
theorem rounds (cs : List (Str × Option Message)) : ∀ {rs : List (List AppCall)} {k : Client},
    ClosingInv k → (cs.filterMap Prod.snd ≠ [] → k.IsOpen) →
    (∀ r ∈ rs.take ((cs.filterMap Prod.snd).length - 1), reactionCloses r = false) →
    ClosingInv (k.rounds cs rs) := by
  induction cs with
  | nil => intro rs k h _ _; exact h
  | cons cut cs ih =>
    intro rs k h hopen hrs
    obtain ⟨rest, om⟩ := cut
    have hbuffer : ClosingInv (k.setReceiveBuffer rest) :=
      same (k := k) ⟨rfl, rfl, rfl, rfl, rfl⟩ h
    cases om with
    | none => exact ih hbuffer hopen hrs
    | some m =>
      have hgot : ClosingInv ((k.setReceiveBuffer rest).handOver m) := by
        refine hbuffer.open_extend (hopen (by simp)) (l := [.state .received, .messageReceived m])
          (by simp) ?_ ⟨(fun h => nomatch h), fun h => nomatch h⟩ rfl rfl fun _ => ⟨rfl, rfl⟩
        simp [Client.handOver, Client.setState, Client.log]
      refine ih (rule.calls _ (fun h => nomatch h) hgot) (fun hmore => ?_) fun r hr => ?_
      · -- another message follows, so this reaction is not the last one
        have hhead : reactionCloses (rs.headD []) = false := by
          cases rs with
          | nil => rfl
          | cons r rs =>
            apply hrs r
            have hlen := List.length_pos_iff.mpr hmore
            rw [List.filterMap_cons_some (f := Prod.snd) (a := (rest, some m)) rfl,
              List.length_cons, Nat.add_sub_cancel, ← Nat.succ_pred_eq_of_pos hlen]
            exact List.mem_cons_self
        rcases calls_not_closing _ (k := (k.setReceiveBuffer rest).handOver m) hhead
            (Or.inl rfl) with hs | hs
        · exact ⟨by rw [hs]; decide, by rw [hs]; decide⟩
        · exact ⟨by rw [hs]; decide, by rw [hs]; decide⟩
      · apply hrs r
        rw [List.filterMap_cons_some (f := Prod.snd) (a := (rest, some m)) rfl,
          List.length_cons, Nat.add_sub_cancel]
        cases rs with
        | nil => simp at hr
        | cons r' rs =>
          have hpos : (cs.filterMap Prod.snd).length ≠ 0 := by
            intro hzero
            rw [hzero] at hr
            simp at hr
          rw [← Nat.succ_pred_eq_of_ne_zero hpos, List.take_succ_cons]
          exact List.mem_cons_of_mem r' hr

/-! ### One event -/

variable {uv : Uv} {c : ClientId} {w : World Script}

/-- `process()`, whatever the state: the violated assertion of its last branch is no
    matter here. -/
theorem process (h : ClosingInv (w.clients c)) : ClosingInv ((process uv c w).clients c) := by
  refine rule.process (Or.inr fun k hk => ?_) h
  obtain ⟨q, hrun, hok⟩ := hk
  refine extend q hrun (l := [.assertFailed .unhandledState]) rfl ?_ ?_
  · cases q <;> rfl
  · cases q <;> exact hok

theorem connect (h : ClosingInv (w.clients c)) :
    ClosingInv ((connect uv c w).1.clients c) := by
  rcases clients_connect uv c w with ⟨-, heq⟩ | ⟨hguard, b, heq⟩
  · rw [heq]
    exact h
  · -- past the guard nothing is closing, and a new handle takes the old one's place
    obtain ⟨q, hrun, hok⟩ := h
    have hq : q.next .connectCall = some .live := by
      cases q with
      | live => rfl
      | closing => exact absurd (Client.refuses_of_state .closing hok.1 (by decide)) hguard
      | closed => rfl
    rw [heq]
    refine extend .live hrun (w.clients c).acts_dialled ?_ ?_
    · rw [closingMonitor.runFrom_cons_some hq]
      rfl
    · exact ⟨⟨(fun h => nomatch h), fun h => nomatch h⟩, rfl, fun h => nomatch h⟩

theorem onConnect (status : Int) (hopen : status = 0 → (w.clients c).IsOpen)
    (h : ClosingInv (w.clients c)) : ClosingInv ((onConnect uv c status w).clients c) := by
  rw [onConnect_eq]
  split
  · exact h
  · rename_i hst
    have hopen := hopen (not_not.mp fun hne => hst (Or.inr hne))
    obtain ⟨canon, heq⟩ := (w.clients c).establish_eq uv c
    apply process
    rw [World.clients_modify_self, heq]
    exact h.open_extend hopen (l := [.state .connected]) (by simp) rfl
      ⟨(fun h => nomatch h), fun h => nomatch h⟩ rfl rfl fun _ => ⟨rfl, rfl⟩

theorem onWrite (status : Int) (hne : (w.clients c).myState ≠ .closed)
    (h : ClosingInv (w.clients c)) : ClosingInv ((onWrite uv c status w).clients c) := by
  have hassert : ∀ b, ClosingInv ((w.clients c).assert .onWrite b) ∧
      ((w.clients c).assert .onWrite b).myState = (w.clients c).myState := by
    intro b
    cases b with
    | true => exact ⟨h, rfl⟩
    | false =>
      obtain ⟨q, hrun, hok⟩ := h
      refine ⟨extend q hrun (l := [.assertFailed .onWrite]) rfl ?_ ?_, rfl⟩
      · cases q <;> rfl
      · cases q <;> exact hok
  unfold TcpUv.onWrite
  dsimp only
  split
  · refine rule.close ?_ ?_
    · rw [World.clients_modify_self, (hassert _).2]
      exact hne
    · rw [World.clients_modify_self]
      exact (hassert _).1
  · apply process
    rw [World.clients_modify_self]
    exact (hassert _).1

theorem onRead (nread : Int) (buf : Option Str) (hopen : (w.clients c).IsOpen)
    (hrs : 0 < nread → ∀ base, buf = some base → ∀ r ∈ w.app.reactions.take
      ((deliveries ((w.clients c).buffered nread base)).length - 1), reactionCloses r = false)
    (h : ClosingInv (w.clients c)) : ClosingInv ((onRead uv c nread buf w).world.clients c) := by
  by_cases hpos : 0 < nread
  · cases buf with
    | none =>
      rw [onRead_null uv hpos]
      exact process h
    | some base =>
      have hgot : ClosingInv ((w.clients c).setReceiveBuffer
          ((w.clients c).buffered nread base)) :=
        same (k := w.clients c) ⟨rfl, rfl, rfl, rfl, rfl⟩ h
      have hloop := rounds _ hgot (fun _ => hopen) (hrs hpos base rfl)
      obtain ⟨w', hend, ⟨-, e, hread⟩ | ⟨-, hread⟩⟩ :=
        onRead_rounds uv (c := c) h.attached hpos base
      · rw [hread, Outcome.world_throws, hend]
        exact hloop
      · rw [hread, Outcome.world_returns]
        exact process (by rw [hend]; exact hloop)
  · rw [onRead_ends uv hpos]
    exact rule.close hopen.2 h

theorem onClose (hcl : (w.clients c).tcp.closing = true) (hcd : (w.clients c).tcp.closed = true)
    (hq : closingMonitor.runFrom .live (w.clients c).acts = some .closing)
    (hok : (w.clients c).myUvStream = none ∧ (w.clients c).tcp.reading = false) :
    ClosingInv ((onClose c w).clients c) := by
  rw [clients_onClose (fun _ => rfl)]
  refine extend .closed hq (l := [.connectionClosed, .deleteHandle, .state .closed]) ?_ rfl
    ⟨rfl, hok.1, hok.2, hcl, hcd⟩
  simp [Client.setState, Client.log]

end ClosingInv

/-! ## Every run -/

/-- In a read, only the reaction to the last message it delivers closes the connection. -/
def ReactsLast (c : ClientId) (w : World Script) : SoloEvent → Prop
  | .callback (.read nread (some base)) reactions _ => 0 < nread →
      ∀ r ∈ reactions.take
        ((deliveries ((w.clients c).buffered nread base)).length - 1), reactionCloses r = false
  | _ => True

namespace ClosingInv

variable {uv : Uv} {c : ClientId} {w : World Script}

theorem callback (cb : Callback) (ha : cb.allowed (w.clients c))
    (hrs : ∀ nread base, cb = .read nread (some base) → 0 < nread → ∀ r ∈ w.app.reactions.take
      ((deliveries ((w.clients c).buffered nread base)).length - 1), reactionCloses r = false)
    (h : ClosingInv (w.clients c)) : ClosingInv ((callback uv c w cb).world.clients c) := by
  obtain ⟨q, hrun, hok⟩ := h
  cases cb with
  | connected status =>
    obtain ⟨hconn, hst⟩ := ha
    -- libuv's bookkeeping, then the method
    have hdone : ClosingInv ((w.modify c fun k =>
        { k with tcp := { k.tcp with connecting := false } }).clients c) := by
      rw [World.clients_modify_self]
      refine ⟨q, hrun, ?_⟩
      cases q with
      | live => exact ⟨hok.1, hok.2.1, fun hn => ⟨(hok.2.2 hn).1, rfl⟩⟩
      | closing => exact ⟨hok.1, hok.2.1, hok.2.2.1, fun h => nomatch h⟩
      | closed => exact hok
    refine onConnect status (fun hz => ?_) hdone
    rw [World.clients_modify_self]
    cases q with
    | live => exact hok.1
    | closing => exact absurd hz (hst (hok.2.2.2 hconn))
    | closed => exact absurd hz (hst hok.2.2.2.1)
  | read nread buf =>
    obtain ⟨hreading, -, -⟩ := ha
    cases q with
    | live =>
      exact onRead nread buf hok.1 (fun hpos base hb => hrs nread base (by rw [hb]) hpos)
        ⟨.live, hrun, hok⟩
    | closing => rw [hok.2.2.1] at hreading; cases hreading
    | closed => rw [hok.2.2.1] at hreading; cases hreading
  | wrote status =>
    obtain ⟨-, hcd, -⟩ := ha
    refine onWrite status ?_ ?_
    · rw [World.clients_modify_self]
      intro hs
      cases q with
      | live => exact hok.1.2 hs
      | closing => exact absurd (hok.1.symm.trans hs) (by simp)
      | closed => rw [hok.2.2.2.2] at hcd; cases hcd
    · rw [World.clients_modify_self]
      refine ⟨q, hrun, ?_⟩
      cases q <;> exact hok
  | closed =>
    obtain ⟨hcl, hcd, -, -⟩ := ha
    cases q with
    | live => rw [hok.2.1] at hcl; cases hcl
    | closing =>
      refine onClose ?_ ?_ ?_ ?_
      · rw [World.clients_modify_self]
        exact hcl
      · rw [World.clients_modify_self]
      · rw [World.clients_modify_self]
        exact hrun
      · rw [World.clients_modify_self]
        exact ⟨hok.2.1, hok.2.2.1⟩
    | closed => rw [hok.2.2.2.2] at hcd; cases hcd
  | timer => exact rule.onTimer uv ⟨q, hrun, hok⟩

theorem step (uv : Uv) (w : World Script) (e : SoloEvent) (h : ClosingInv (w.clients c))
    (ha : (soloSystem uv c).allowed w e) (hp : ReactsLast c w e) :
    ClosingInv (((soloSystem uv c).step w e).clients c) := by
  cases e with
  | connect => exact h.connect
  | callback cb reactions gossip =>
    rw [clients_step_callback]
    refine callback (w := w.withScript reactions gossip) cb ha.2 (fun nread base hcb hpos => ?_) h
    subst hcb
    exact hp hpos

theorem init {w : World Script} (h : SoloInit uv c w) : ClosingInv (w.clients c) := by
  cases h with
  | netClientOut w host port ping hc =>
    subst hc
    rw [World.clients_create_next]
    exact ⟨.live, rfl, ⟨(fun h => nomatch h), fun h => nomatch h⟩, rfl, fun _ => ⟨rfl, rfl⟩⟩
  | peerClientOut w host port hc =>
    subst hc
    rw [World.clients_create_next]
    exact ⟨.live, rfl, ⟨(fun h => nomatch h), fun h => nomatch h⟩, rfl, fun _ => ⟨rfl, rfl⟩⟩
  | netClientIn w hc =>
    subst hc
    obtain ⟨addr, res, hread⟩ := clients_onNewConnection uv w
    rw [hread]
    refine read res (by simp [NetClientIn.new, Client.setState]) ⟨.live, rfl, ?_⟩
    exact ⟨⟨(fun h => nomatch h), fun h => nomatch h⟩, rfl, fun h => nomatch h⟩

end ClosingInv

/-- **Closing is final**, in every run in which only the reaction to the last message of a
    read closes the connection. -/
theorem closing_final (uv : Uv) (c : ClientId) {w : World Script} (hw : SoloInit uv c w)
    (es : List SoloEvent) (hv : (soloSystem uv c).Valid w es)
    (hp : (soloSystem uv c).Along (ReactsLast c) w es) :
    ClosingFinal (((soloSystem uv c).run w es).clients c) :=
  ClosingInv.final (System.run_invariant_along (I := fun w => ClosingInv (w.clients c))
    (ClosingInv.step uv) (ClosingInv.init hw) hv hp)

/-- An accepted connection that answers a ping, then refuses a handshake and is closed. -/
theorem closing_final_refused :
    ClosingFinal (((soloSystem Uv.cooperative 0).run
      (onNewConnection Uv.cooperative 0 0 (World.init {}))
      [.callback (.read 7 (some "PING x\n".toList)) [[.reply (.pingResponse ['x']) 0]] [],
        .callback (.wrote 0) [] [],
        .callback (.read 15 (some "HANDSH V00 a b\n".toList)) [[.close]] [],
        .callback .closed [] []]).clients 0) := by
  apply closing_final Uv.cooperative 0 (.netClientIn _ rfl) _ (by decide)
  exact ⟨fun _ => by decide, trivial, fun _ => by decide, trivial, trivial⟩

/-- The read that shows the defect: a handshake of a wrong version, which the app answers
    with `close()`, and a ping behind it. The ping is still handed over, in state
    `Received`, and its answer is written on the null stream. -/
theorem closing_not_final :
    (soloSystem Uv.cooperative 0).Valid (onNewConnection Uv.cooperative 0 0 (World.init {}))
      [.callback (.read 22 (some "HANDSH V00 a b\nPING x\n".toList))
        [[.close], [.reply (.pingResponse ['x']) 0]] []] ∧
    ¬ ClosingFinal (((soloSystem Uv.cooperative 0).run
      (onNewConnection Uv.cooperative 0 0 (World.init {}))
      [.callback (.read 22 (some "HANDSH V00 a b\nPING x\n".toList))
        [[.close], [.reply (.pingResponse ['x']) 0]] []]).clients 0) := by
  refine ⟨by decide, fun h => ?_⟩
  have hbad := (h [.state .accepted, .state .receiving, .uvReadStart (some 1), .state .received,
      .messageReceived (.handshake ['V', '0', '0'] ['a'] ['b'])]
    [.state .closing, .uvClose 1, .state .received, .messageReceived (.ping ['x']),
      .sendMessage (.pingResponse ['x']), .state .sending,
      .uvWrite none "PINGRESP x\n".toList] [] (by decide) (by decide)).1
  exact hbad (.messageReceived (.ping ['x'])) (by decide)

end TcpUv
