import TcpUv.Proof.CloseOnce

/-!
# What `sendMessage` and `close` return

Both are declared to return an `int`, and both have a way to their end without a `return`:
`sendMessage` past its first guard, `close` past `uv_close`. To run off that end is undefined,
whether or not anybody looks at the result: compiled with optimisation, the default, a process
aborts after the first ping it answers. What is done up to there is what one expects
(`SendDone`).
-/

set_option autoImplicit false

namespace TcpUv

section

variable {σ : Type} [BaseApp σ]

/-- What `sendMessage(m)` does on an open connection: one frame is handed to `uv_write`, and if
    that fails the handle is closed, once. -/
structure SendDone (uv : Uv) (c : ClientId) (m : Message) (w w' : World σ) : Prop where
  queued : writeAnswer uv c m (w.clients c) = 0 → (w'.clients c).myState = .sending ∧
    (w'.clients c).acts = (w.clients c).acts ++
      [.sendMessage m, .state .sending, .uvWrite (w.clients c).myUvStream (frame m)]
  failed : writeAnswer uv c m (w.clients c) ≠ 0 → (w'.clients c).myState = .closing ∧
    (w'.clients c).myUvStream = none ∧
    (w'.clients c).acts = (w.clients c).acts ++
      ([.sendMessage m, .state .sending, .uvWrite (w.clients c).myUvStream (frame m),
        .closeCall, .state .closing] ++ (w.clients c).myUvStream.toList.map .uvClose)

/-- What is asked of `sendMessage(m)`: 0 and nothing done once the connection is closing; else
    the message sent, and 0 or an error by what `uv_write` answered. -/
structure SendOk (uv : Uv) (c : ClientId) (m : Message) (w : World σ) : Prop where
  silent : ¬ (w.clients c).IsOpen →
    sendMessage uv c m w = (w.modify c (·.log (.sendMessage m)), some 0)
  sent : (w.clients c).IsOpen → SendDone uv c m w (sendMessage uv c m w).1 ∧
    ∃ r, (sendMessage uv c m w).2 = some r ∧ (r = 0 ↔ writeAnswer uv c m (w.clients c) = 0)

variable (uv : Uv) (c : ClientId) (m : Message) (w : World σ)

theorem sendMessage_closed (h : ¬ (w.clients c).IsOpen) :
    sendMessage uv c m w = (w.modify c (·.log (.sendMessage m)), some 0) := by
  have hclosed : ((w.modify c (·.log (.sendMessage m))).clients c).myState = .closing ∨
      ((w.modify c (·.log (.sendMessage m))).clients c).myState = .closed := by
    rw [World.clients_modify_self]
    unfold Client.IsOpen at h
    rw [not_and_or, not_not, not_not] at h
    exact h
  unfold sendMessage
  dsimp only
  rw [if_pos hclosed]

/-- On an open connection it runs off its end. -/
theorem sendMessage_open (h : (w.clients c).IsOpen) : (sendMessage uv c m w).2 = none := by
  have hopen : ¬ (((w.modify c (·.log (.sendMessage m))).clients c).myState = .closing ∨
      ((w.modify c (·.log (.sendMessage m))).clients c).myState = .closed) := by
    rw [World.clients_modify_self, not_or]
    exact h
  unfold sendMessage
  dsimp only
  rw [if_neg hopen]
  split
  · rfl
  · rfl

theorem sendDone (h : (w.clients c).Attached) (hopen : (w.clients c).IsOpen) :
    SendDone uv c m w (sendMessage uv c m w).1 := by
  have hclosed : ¬ ((w.clients c).myState = .closing ∨ (w.clients c).myState = .closed) :=
    not_or.mpr hopen
  rw [sendMessage_eq uv h]
  constructor
  · intro hres
    rw [World.clients_modify_self, Client.send, if_neg hclosed, if_neg (not_not.mpr hres)]
    exact ⟨rfl, by simp [Client.uvWrite, Client.setState, Client.log]⟩
  · intro hres
    rw [World.clients_modify_self, Client.send, if_neg hclosed, if_pos hres]
    refine ⟨Client.myState_shut _, Client.myUvStream_shut _, ?_⟩
    unfold Client.shut
    rw [show (((w.clients c).log (.sendMessage m)).setState .sending |>.uvWrite (frame m)
      (writeAnswer uv c m (w.clients c))).myUvStream = (w.clients c).myUvStream from rfl]
    cases hs : (w.clients c).myUvStream with
    | none => simp [Client.uvWrite, Client.setState, Client.log, hs]
    | some hd => simp [Client.uvWrite, Client.setState, Client.log, Client.uvClose, hs]

theorem sendOk_iff : SendOk uv c m w ↔ ¬ (w.clients c).IsOpen := by
  constructor
  · intro h hopen
    obtain ⟨-, r, hr, -⟩ := h.sent hopen
    rw [sendMessage_open uv c m w hopen] at hr
    cases hr
  · intro hclosed
    exact ⟨sendMessage_closed uv c m w, fun hopen => absurd hopen hclosed⟩

/-- `close` returns without a handle to close. -/
theorem close_returns_iff : (∃ r, (close c w).2 = some r) ↔
    (w.clients c).myUvStream = none ∨ (w.clients c).tcp.closing = true := by
  have hkept : ((w.modify c fun k => (k.log .closeCall).setState .closing).clients c).myUvStream =
      (w.clients c).myUvStream := by
    rw [World.clients_modify_self]
    rfl
  unfold close
  dsimp only
  rw [hkept]
  cases hs : (w.clients c).myUvStream with
  | none => simp
  | some hd =>
    have hclosing : (((w.modify c fun k => (k.log .closeCall).setState .closing).modify c
        fun k => { k with myUvStream := none }).clients c).tcp.closing =
          (w.clients c).tcp.closing := by
      rw [World.clients_modify_self, World.clients_modify_self]
      rfl
    dsimp only
    rw [hclosing]
    cases (w.clients c).tcp.closing <;> simp

end

/-- **Results.** In whatever state, `sendMessage` answers as it should exactly when the
    connection is closing or closed, and `close` exactly when there is nothing to close; and in
    every state of a run `sendMessage` does what it should. -/
theorem send_result_iff (uv : Uv) (c : ClientId) (m : Message) :
    (∀ {σ : Type} [BaseApp σ] (w : World σ),
      (SendOk uv c m w ↔ ¬ (w.clients c).IsOpen) ∧
      ((∃ r, (close c w).2 = some r) ↔
        (w.clients c).myUvStream = none ∨ (w.clients c).tcp.closing = true) ∧
      ((w.clients c).Attached → (w.clients c).IsOpen →
        SendDone uv c m w (sendMessage uv c m w).1)) ∧
    ∀ w₀, SoloInit uv c w₀ → ∀ es, (ownedSystem uv c).Valid w₀ es →
      (((ownedSystem uv c).run w₀ es).clients c).Attached :=
  ⟨fun w => ⟨sendOk_iff uv c m w, close_returns_iff c w, sendDone uv c m w⟩,
    fun _ hw _ hv => (CloseInv.run hw hv).attached⟩

/-- An accepted connection that the other end has closed. -/
theorem send_result_closed : SendOk Uv.cooperative 0 (.ping ['x'])
    ((soloSystem Uv.cooperative 0).run (onNewConnection Uv.cooperative 0 0 (World.init {}))
      [.callback (.read (-4095) none) [] []]) :=
  ((send_result_iff Uv.cooperative 0 (.ping ['x'])).1 _).1.mpr fun hopen => hopen.1 (by decide)

/-- An accepted connection: neither a message sent, nor one that cannot be, nor a close has a
    result. -/
theorem send_undefined :
    (sendMessage Uv.cooperative 0 (.ping ['x'])
      (onNewConnection Uv.cooperative 0 0 (World.init ({} : Script)))).2 = none ∧
    (sendMessage (Uv.cooperative.answering (-32)) 0 (.ping ['x'])
      (onNewConnection Uv.cooperative 0 0 (World.init ({} : Script)))).2 = none ∧
    (close 0 (onNewConnection Uv.cooperative 0 0 (World.init ({} : Script)))).2 = none ∧
    ¬ SendOk Uv.cooperative 0 (.ping ['x'])
      (onNewConnection Uv.cooperative 0 0 (World.init ({} : Script))) := by
  have hnone : (sendMessage Uv.cooperative 0 (.ping ['x'])
      (onNewConnection Uv.cooperative 0 0 (World.init ({} : Script)))).2 = none := by decide
  refine ⟨hnone, by decide, by decide, fun h => ?_⟩
  obtain ⟨-, r, hr, -⟩ := h.sent ⟨by decide, by decide⟩
  rw [hnone] at hr
  cases hr

end TcpUv
