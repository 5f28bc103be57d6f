import TcpUv.Proof.Solo

/-!
# The assertions of the state machine

`onWrite`, `doRead` and the last branch of `process()` assert that the state is one they
can be called in. The invariant behind them is `Busy`: a connection with a write pending
is sending, receiving, has received or is closing, and one that reads is in the first
three. Two orders of events break the assertions all the same — a write completion that
arrives while the connection is closing, and an outgoing connection closed by the app from
inside a read, after which `process()` is called on it. `assertions_hold` excludes exactly
these (`Orderly`); `assertion_fails` is a run with the first.
-/

set_option autoImplicit false

namespace TcpUv

open Lib

/-! ## The invariant -/

/-- No assertion failed so far, and a client without a stream does not read. -/
structure Sound (k : Client) : Prop where
  acts : ∀ site, .assertFailed site ∉ k.acts
  attached : k.Attached
  idle : k.myUvStream = none → k.tcp.reading = false

/-- The states a connection with something under way can be in. -/
def State.Active (s : State) : Prop := s = .sending ∨ s = .receiving ∨ s = .received

structure Busy (k : Client) : Prop extends Sound k where
  writes : 0 < k.tcp.writes → k.myState.Active ∨ k.myState = .closing
  reads : k.tcp.reading = true → k.myState.Active

namespace Sound

variable {k k' : Client}

/-- What a method appends to the history is no failed assertion. -/
theorem append {l : List Act} (h : Sound k) (hacts : k'.acts = k.acts ++ l)
    (hl : ∀ site, .assertFailed site ∉ l) (hstream : k'.myUvStream = k.myUvStream)
    (hclosing : k'.tcp.closing = k.tcp.closing)
    (hidle : k.myUvStream = none → k'.tcp.reading = k.tcp.reading) : Sound k' where
  acts site hs := by
    rw [hacts] at hs
    rcases List.mem_append.mp hs with hs | hs
    · exact h.acts site hs
    · exact hl site hs
  attached hs := by
    rw [hstream] at hs
    exact hclosing.trans (h.attached hs)
  idle hn := by
    rw [hstream] at hn
    exact (hidle hn).trans (h.idle hn)

theorem same (hs : k.SameConn k') (h : Sound k) : Sound k' :=
  h.append (l := []) (by rw [hs.acts, List.append_nil]) (fun _ h => nomatch h) hs.myUvStream
    (by rw [hs.tcp]) fun _ => by rw [hs.tcp]

theorem shut (h : Sound k) : Busy k.shut := by
  unfold Client.shut
  cases hs : k.myUvStream with
  | none =>
    have hsound : Sound ((k.log .closeCall).setState .closing) :=
      h.append (l := [.closeCall, .state .closing]) (by simp [Client.setState, Client.log])
        (by simp) rfl rfl fun _ => rfl
    refine ⟨hsound, fun _ => Or.inr rfl, fun hr => ?_⟩
    rw [hsound.idle hs] at hr
    cases hr
  | some hd =>
    refine ⟨⟨fun site hmem => ?_, (fun h => nomatch h), fun _ => rfl⟩, fun _ => Or.inr rfl,
      fun hr => nomatch hr⟩
    apply h.acts site
    simpa [Client.setState, Client.log, Client.uvClose] using hmem

/-- A message sent on an open connection: it is sending now, or closing. -/
theorem send (m : Message) (res : Int) (hopen : k.IsOpen) (h : Sound k) :
    Busy (k.send m res) := by
  have hsent : Sound (((k.log (.sendMessage m)).setState .sending).uvWrite (frame m) res) := by
    refine h.append (l := [.sendMessage m, .state .sending, .uvWrite k.myUvStream (frame m)])
      (by simp [Client.setState, Client.log, Client.uvWrite]) (by simp) rfl ?_ fun _ => ?_
    · exact Client.closing_uvWrite _ _ _
    · exact Client.reading_uvWrite _ _ _
  unfold Client.send
  rw [if_neg (not_or.mpr hopen)]
  split
  · exact hsent.shut
  · exact ⟨hsent, fun _ => Or.inl (Or.inl rfl), fun _ => Or.inl rfl⟩

end Sound

namespace Busy

variable {k k' : Client}

theorem same (hs : k.SameConn k') (h : Busy k) : Busy k' where
  toSound := h.toSound.same hs
  writes hw := by
    rw [hs.tcp] at hw
    rw [hs.myState]
    exact h.writes hw
  reads hr := by
    rw [hs.tcp] at hr
    rw [hs.myState]
    exact h.reads hr

theorem read (res : Int) (hs : k.myState = .sending ∨ k.myState = .sent ∨
    k.myState = .receiving ∨ k.myState = .accepted) (h : Sound k) : Busy (k.read res) := by
  have hread : Sound ((k.setState .receiving).uvReadStart res) := by
    refine h.append (l := [.state .receiving, .uvReadStart k.myUvStream])
      (by simp [Client.setState, Client.uvReadStart]) (by simp) rfl ?_ fun hn => ?_
    · exact Client.closing_uvReadStart _ _
    · rw [Client.tcp_uvReadStart_none (k := k.setState .receiving) hn]
      rfl
  unfold Client.read
  rw [Client.assert_doRead hs]
  dsimp only
  split
  · exact hread.shut
  · exact ⟨hread, fun _ => Or.inl (Or.inr (Or.inl rfl)), fun _ => Or.inr (Or.inl rfl)⟩

theorem rule : SoloRule Busy where
  attached h := h.attached
  same hs h := h.same hs
  shut _ h := h.toSound.shut
  send m res h := by
    rename_i k
    by_cases hclosed : k.myState = .closing ∨ k.myState = .closed
    · rw [Client.send, if_pos hclosed]
      exact ⟨h.toSound.append (l := [.sendMessage m]) rfl (by simp) rfl rfl fun _ => rfl,
        h.writes, h.reads⟩
    · exact h.toSound.send m res (not_or.mp hclosed)
  read res hs h := read res (by rcases hs with hs | hs | hs <;> simp [hs]) h.toSound

theorem handOver (m : Message) (h : Busy k) : Busy (k.handOver m) where
  toSound := h.toSound.append (l := [.state .received, .messageReceived m])
    (by simp [Client.handOver, Client.setState, Client.log]) (by simp) rfl rfl fun _ => rfl
  writes _ := Or.inl (Or.inr (Or.inr rfl))
  reads _ := Or.inr (Or.inr rfl)

theorem rounds (cs : List (Str × Option Message)) : ∀ {rs : List (List AppCall)} {k : Client},
    Busy k → Busy (k.rounds cs rs) := by
  induction cs with
  | nil => intro rs k h; exact h
  | cons cut cs ih =>
    intro rs k h
    obtain ⟨rest, om⟩ := cut
    have hbuffer : Busy (k.setReceiveBuffer rest) := same (k := k) ⟨rfl, rfl, rfl, rfl, rfl⟩ h
    cases om with
    | none => exact ih hbuffer
    | some m => exact ih (rule.calls _ (fun h => nomatch h) (hbuffer.handOver m))

/-! ### One event -/

variable {uv : Uv} {c : ClientId} {w : World Script}

/-- `process()` in a state it has a case for; an incoming connection needs none. -/
theorem process (hs : (w.clients c).kind ≠ .netClientIn → (w.clients c).myState.Active)
    (h : Busy (w.clients c)) : Busy ((process uv c w).clients c) := by
  refine rule.process (Or.inl ?_) h
  by_cases hk : (w.clients c).kind = .netClientIn
  · exact Or.inl hk
  · rcases hs hk with hs | hs | hs <;> simp [Client.Handled, hs]

theorem connect (h : Busy (w.clients c)) : Busy ((connect uv c w).1.clients c) := by
  rcases clients_connect uv c w with ⟨-, heq⟩ | ⟨-, b, heq⟩
  · rw [heq]
    exact h
  · -- a new handle: nothing pending, nothing reading
    rw [heq]
    refine ⟨⟨fun site hmem => ?_, fun _ => rfl, fun h => nomatch h⟩, (fun h => nomatch h),
      fun h => nomatch h⟩
    apply h.acts site
    simpa [Client.dialled, Client.setUvStream, Client.setState, Client.log] using hmem

theorem onConnect (status : Int) (h : Busy (w.clients c)) :
    Busy ((onConnect uv c status w).clients c) := by
  rw [onConnect_eq]
  split
  · exact h
  · rename_i hst
    obtain ⟨canon, heq⟩ := (w.clients c).establish_eq uv c
    have hconnected : Sound ((w.clients c).establish uv c) := by
      rw [heq]
      exact h.toSound.append (l := [.state .connected]) rfl (by simp) rfl rfl fun _ => rfl
    refine rule.process_connected (fun h => h.attached) Sound.same Sound.send ?_ ?_ ?_
    · rw [World.clients_modify_self, heq]
      rfl
    · rw [World.clients_modify_self, heq]
      exact fun hk => hst (Or.inl hk)
    · rw [World.clients_modify_self]
      exact hconnected

/-- A write completion in a state `onWrite` can be called in. -/
theorem onWrite (status : Int) (hs : (w.clients c).myState.Active) (h : Busy (w.clients c)) :
    Busy ((onWrite uv c status w).clients c) := by
  have hassert : (w.clients c).assert .onWrite ((w.clients c).myState = .sending ||
      (w.clients c).myState = .receiving || (w.clients c).myState = .received) = w.clients c := by
    rcases hs with hs | hs | hs <;> simp [Client.assert, hs]
  unfold TcpUv.onWrite
  dsimp only
  split
  · refine rule.close ?_ ?_
    · rw [World.clients_modify_self, hassert]
      rcases hs with hs | hs | hs <;> rw [hs] <;> decide
    · rw [World.clients_modify_self, hassert]
      exact h
  · refine process (fun _ => ?_) ?_
    · rw [World.clients_modify_self, hassert]
      exact hs
    · rw [World.clients_modify_self, hassert]
      exact h

theorem onRead (nread : Int) (buf : Option Str) (hs : (w.clients c).myState.Active)
    (hbuf : 0 < nread → buf.isSome = true)
    (hlast : 0 < nread → (w.clients c).kind ≠ .netClientIn → ∀ base, buf = some base →
      cutThrows ((w.clients c).buffered nread base) = false →
      deliveries ((w.clients c).buffered nread base) ≠ [] →
      reactionCloses (w.app.reactions.getD
        ((deliveries ((w.clients c).buffered nread base)).length - 1) []) = false)
    (h : Busy (w.clients c)) : Busy ((onRead uv c nread buf w).world.clients c) := by
  have hclosed : (w.clients c).myState ≠ .closed := by
    rcases hs with hs | hs | hs <;> rw [hs] <;> decide
  by_cases hpos : 0 < nread
  · obtain ⟨base, rfl⟩ := Option.isSome_iff_exists.mp (hbuf hpos)
    have hgot : Busy ((w.clients c).setReceiveBuffer ((w.clients c).buffered nread base)) :=
      same (k := w.clients c) ⟨rfl, rfl, rfl, rfl, rfl⟩ h
    obtain ⟨w', hend, ⟨-, e, hread⟩ | ⟨hreturns, hread⟩⟩ :=
      onRead_rounds uv (c := c) h.attached hpos base
    · rw [hread, Outcome.world_throws, hend]
      exact rounds _ hgot
    · rw [hread, Outcome.world_returns]
      refine process (fun hk => ?_) (by rw [hend]; exact rounds _ hgot)
      rw [hend, kind_rounds] at hk
      rw [hend]
      by_cases hnone : deliveries ((w.clients c).buffered nread base) = []
      · rw [rounds_nothing _ _ _ hnone]
        exact hs
      · rcases rounds_last _ _ ((w.clients c).setReceiveBuffer _) hnone
          (hlast hpos hk base rfl hreturns hnone) with hs | hs
        · exact Or.inr (Or.inr hs)
        · exact Or.inl hs
  · rw [onRead_ends uv hpos]
    exact rule.close hclosed h

/-- The close callback: nothing is pending any more, and nothing reads. -/
theorem onClose (hw : (w.clients c).tcp.writes = 0) (hcl : (w.clients c).tcp.closing = true)
    (h : Busy (w.clients c)) : Busy ((onClose c w).clients c) := by
  have hnone : (w.clients c).myUvStream = none := by
    cases hs : (w.clients c).myUvStream with
    | none => rfl
    | some hd =>
      rw [h.attached (by rw [hs]; rfl)] at hcl
      cases hcl
  have hlogged : Sound ((((w.clients c).log .connectionClosed).log .deleteHandle).setState
      .closed) :=
    h.toSound.append (l := [.connectionClosed, .deleteHandle, .state .closed])
      (by simp [Client.setState, Client.log]) (by simp) rfl rfl fun _ => rfl
  rw [clients_onClose (fun _ => rfl)]
  refine ⟨hlogged, fun hpos => ?_, fun hr => ?_⟩
  · exact absurd hpos (by rw [show ((((w.clients c).log .connectionClosed).log
      .deleteHandle).setState .closed).tcp = (w.clients c).tcp from rfl, hw]; decide)
  · rw [hlogged.idle hnone] at hr
    cases hr

end Busy

/-! ## Every run -/

/-- No write completes while the connection is closing, and an outgoing connection is not
    closed by the app on the last message of a read. -/
def Orderly (c : ClientId) (w : World Script) : SoloEvent → Prop
  | .callback (.wrote _) _ _ => (w.clients c).myState ≠ .closing
  | .callback (.read nread (some base)) reactions _ =>
      0 < nread → (w.clients c).kind ≠ .netClientIn →
      cutThrows ((w.clients c).buffered nread base) = false →
      deliveries ((w.clients c).buffered nread base) ≠ [] →
      reactionCloses (reactions.getD
        ((deliveries ((w.clients c).buffered nread base)).length - 1) []) = false
  | _ => True

namespace Busy

variable {uv : Uv} {c : ClientId} {w : World Script}

theorem callback (cb : Callback) (ha : cb.allowed (w.clients c))
    (hwrote : ∀ status, cb = .wrote status → (w.clients c).myState ≠ .closing)
    (hlast : ∀ nread base, cb = .read nread (some base) → 0 < nread →
      (w.clients c).kind ≠ .netClientIn →
      cutThrows ((w.clients c).buffered nread base) = false →
      deliveries ((w.clients c).buffered nread base) ≠ [] →
      reactionCloses (w.app.reactions.getD
        ((deliveries ((w.clients c).buffered nread base)).length - 1) []) = false)
    (h : Busy (w.clients c)) : Busy ((callback uv c w cb).world.clients c) := by
  cases cb with
  | connected status =>
    apply onConnect status
    rw [World.clients_modify_self]
    exact ⟨⟨h.acts, h.attached, h.idle⟩, h.writes, h.reads⟩
  | read nread buf =>
    obtain ⟨hreading, -, hbuf⟩ := ha
    refine onRead nread buf (h.reads hreading) (fun hpos => ?_) (fun hpos hk base hb => ?_) h
    · obtain ⟨base, rfl, -⟩ := hbuf hpos
      rfl
    · subst hb
      exact hlast nread base rfl hpos hk
  | wrote status =>
    obtain ⟨hpos, -, -⟩ := ha
    have hs := (h.writes hpos).resolve_right (hwrote status rfl)
    refine onWrite status ?_ ?_
    · rw [World.clients_modify_self]
      exact hs
    · rw [World.clients_modify_self]
      exact ⟨⟨h.acts, h.attached, h.idle⟩, fun _ => Or.inl hs, h.reads⟩
  | closed =>
    obtain ⟨hcl, -, hw, -⟩ := ha
    refine onClose ?_ ?_ ?_
    · rw [World.clients_modify_self]
      exact hw
    · rw [World.clients_modify_self]
      exact hcl
    · rw [World.clients_modify_self]
      exact ⟨⟨h.acts, h.attached, h.idle⟩, h.writes, h.reads⟩
  | timer => exact rule.onTimer uv h

theorem step (uv : Uv) (w : World Script) (e : SoloEvent) (h : Busy (w.clients c))
    (ha : (soloSystem uv c).allowed w e) (hp : Orderly c w e) :
    Busy (((soloSystem uv c).step w e).clients c) := by
  cases e with
  | connect => exact h.connect
  | callback cb reactions gossip =>
    rw [clients_step_callback]
    refine callback (w := w.withScript reactions gossip) cb ha.2 (fun status hcb => ?_)
      (fun nread base hcb => ?_) h
    · subst hcb
      exact hp
    · subst hcb
      exact hp

theorem init {w : World Script} (h : SoloInit uv c w) : Busy (w.clients c) := by
  cases h with
  | netClientOut w host port ping hc =>
    subst hc
    rw [World.clients_create_next]
    exact ⟨⟨(fun _ h => nomatch h), fun _ => rfl, fun _ => rfl⟩, (fun h => nomatch h),
      fun h => nomatch h⟩
  | peerClientOut w host port hc =>
    subst hc
    rw [World.clients_create_next]
    exact ⟨⟨(fun _ h => nomatch h), fun _ => rfl, fun _ => rfl⟩, (fun h => nomatch h),
      fun h => nomatch h⟩
  | netClientIn w hc =>
    subst hc
    obtain ⟨addr, res, hread⟩ := clients_onNewConnection uv w
    rw [hread]
    refine read res (by simp [NetClientIn.new, Client.setState]) ⟨?_, fun _ => rfl, fun _ => rfl⟩
    simp [NetClientIn.new, Client.setState, Client.setUvStream]

end Busy

/-- **No assertion fails** in an orderly run, whatever the app does and in whatever order
    libuv calls. -/
theorem assertions_hold (uv : Uv) (c : ClientId) {w : World Script} (hw : SoloInit uv c w)
    (es : List SoloEvent) (hv : (soloSystem uv c).Valid w es)
    (hp : (soloSystem uv c).Along (Orderly c) w es) (site : Assertion) :
    .assertFailed site ∉ (((soloSystem uv c).run w es).clients c).acts :=
  (System.run_invariant_along (I := fun w => Busy (w.clients c)) (Busy.step uv)
    (Busy.init hw) hv hp).acts site

/-- An outgoing connection: the handshake is written, its answer read, the first ping
    written. -/
theorem assertions_hold_handshake :
    .assertFailed .unhandledState ∉ (((soloSystem Uv.cooperative 0).run
      ((World.init {}).create (NetClientOut.new "localhost".toList 5000 1))
      [.connect, .callback (.connected 0) [] [], .callback (.wrote 0) [] [],
        .callback (.read 22 (some "HANDSHRESP V01 :1 b:2\n".toList)) [] [],
        .callback (.wrote 0) [] []]).clients 0).acts := by
  have hsending : State.sending ≠ .closing := by simp
  refine assertions_hold Uv.cooperative 0 (.netClientOut _ _ _ _ rfl) _ (by decide) ?_ _
  exact ⟨trivial, trivial, hsending, fun _ _ _ _ => rfl, hsending, trivial⟩

/-- The run that shows the defect: the answer to a ping is still being written when the
    peer closes, so its completion comes while the connection is closing. -/
theorem assertion_fails :
    (soloSystem Uv.cooperative 0).Valid (onNewConnection Uv.cooperative 0 0 (World.init {}))
      [.callback (.read 7 (some "PING x\n".toList)) [[.reply (.pingResponse ['x']) 0]] [],
        .callback (.read (-4095) none) [] [], .callback (.wrote uvECanceled) [] []] ∧
    .assertFailed .onWrite ∈ (((soloSystem Uv.cooperative 0).run
      (onNewConnection Uv.cooperative 0 0 (World.init {}))
      [.callback (.read 7 (some "PING x\n".toList)) [[.reply (.pingResponse ['x']) 0]] [],
        .callback (.read (-4095) none) [] [],
        .callback (.wrote uvECanceled) [] []]).clients 0).acts := by
  constructor
  · decide
  · decide

end TcpUv
