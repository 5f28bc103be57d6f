import TcpUv.Proof.Answers
import TcpUv.Proof.Apart
import TcpUv.Proof.PingBudget

/-!
# Networks at rest

A client asks, waits for an answer, asks again, and hangs up when it has asked enough. Between a
read and a write completion its state is anything, and its counter misses writes; what it
keeps to all the same is that it is always one message ahead of the answers it was handed
(`Ready.ahead`), because every read that hands something over ends in another message or in
`close()`. A network in which nothing is on its way any more has therefore nobody waiting in it
(`network_rests`): a client that got through to a server has hung up.

The one server that leaves a client waiting is one that has no name yet, whose answer to a
handshake is no message.
-/

set_option autoImplicit false

namespace TcpUv

open Lib (System IsWord)

/-! ## One connection of the client program -/

namespace Client

/-- How far a connection of the client program has come, by its state. -/
def Stage (k : Client) : Prop :=
  match k.myState with
  | .sending => 0 ≤ k.mySendCounter ∧ (k.tcp.reading = true → 1 ≤ k.mySendCounter)
  | .receiving => 1 ≤ k.mySendCounter
  | .received => 1 ≤ k.mySendCounter
  | .connecting => k.tcp.reading = false
  | .connected => k.tcp.reading = false
  | .closing => k.tcp.reading = false
  | .closed => k.tcp.reading = false
  | _ => False

/-- It has spoken, and has nothing to say before somebody answers or a write completes. -/
def Waiting (k : Client) : Prop := k.myState = .sending ∨ k.myState = .receiving

/-- It is between its connect callback and the end. -/
def Underway (k : Client) : Prop := k.Waiting ∨ k.myState = .received

/-- A connection of the client program, as its methods leave it. -/
structure Steady (k : Client) : Prop extends k.Scripted where
  stage : k.Stage
  connecting : k.tcp.connecting = true → k.myState = .connecting ∧ k.tcp.writes = 0
  reading : k.tcp.reading = true → k.myUvStream.isSome = true
  held : k.IsOpen → k.myUvStream.isSome = true

/-- … and as its callbacks leave it: one message ahead of the answers. -/
structure Ready (k : Client) : Prop extends k.Steady where
  settled : k.myState ≠ .connected
  ahead : k.Underway → k.delivered.length < k.sent.length

theorem Took.delivered_nil {k k' : Client} (h : k.Took [] k') : k'.delivered = k.delivered := by
  obtain ⟨l, hl, hall⟩ := h.acts
  have hnone : l.filterMap Act.handedOver = [] := by
    refine List.filterMap_eq_nil_iff.mpr fun a ha => ?_
    rcases hall a ha with rfl | ⟨m, hm, -⟩
    · rfl
    · cases hm
  rw [delivered, hl, List.filterMap_append, hnone, List.append_nil]
  rfl

theorem not_underway_of_state {k : Client} (s : State) (hs : k.myState = s)
    (hends : s ≠ .sending ∧ s ≠ .receiving ∧ s ≠ .received) : ¬ k.Underway := by
  rintro ((hon | hon) | hon)
  · exact hends.1 (hs.symm.trans hon)
  · exact hends.2.1 (hs.symm.trans hon)
  · exact hends.2.2 (hs.symm.trans hon)

theorem not_underway_shut (k : Client) : ¬ k.shut.Underway :=
  not_underway_of_state .closing (myState_shut k) (by decide)

namespace Steady

variable {k : Client}

theorem not_connecting (h : k.Steady) (hs : k.myState ≠ .connecting) :
    k.tcp.connecting = false := by
  cases hc : k.tcp.connecting with
  | false => rfl
  | true => exact absurd (h.connecting hc).1 hs

/-- What reads has been connected, and is open. -/
theorem underway (hread : k.tcp.reading = true) (h : k.Steady) : k.Underway := by
  have hstage := h.stage
  unfold Stage at hstage
  unfold Underway Waiting
  cases hs : k.myState with
  | sending | receiving | received => simp
  | connecting | connected | closing | closed =>
    rw [hs] at hstage
    exact absurd (hread.symm.trans hstage) (by simp)
  | _ =>
    rw [hs] at hstage
    exact absurd hstage id

/-- Nothing the invariant looks at has moved. -/
theorem same {k' : Client} (hi : k.Idle k') (hs : k'.myState = k.myState)
    (hstream : k'.myUvStream = k.myUvStream) (hreading : k'.tcp.reading = k.tcp.reading)
    (hconnecting : k'.tcp.connecting = true →
      k.tcp.connecting = true ∧ k'.tcp.writes = k.tcp.writes) (h : k.Steady) : k'.Steady where
  toScripted := h.toScripted.idle hi
  stage := by
    have hstage := h.stage
    unfold Stage at hstage ⊢
    rw [hs, hi.mySendCounter, hreading]
    exact hstage
  connecting hc := by
    obtain ⟨hc', hwrites⟩ := hconnecting hc
    rw [hs, hwrites]
    exact h.connecting hc'
  reading := by
    rw [hstream, hreading]
    exact h.reading
  held := by
    unfold IsOpen
    rw [hs, hstream]
    exact h.held

/-- `close()`. -/
theorem shut (hscript : k.Scripted) (hconn : k.tcp.connecting = false)
    (hread : k.tcp.reading = true → k.myUvStream.isSome = true) : k.shut.Steady where
  toScripted := hscript.idle (.shut k)
  stage := by
    unfold Stage
    rw [myState_shut]
    exact reading_shut hread
  connecting hc := by
    rw [connecting_shut, hconn] at hc
    cases hc
  reading hr := by
    rw [reading_shut hread] at hr
    cases hr
  held hopen := absurd (myState_shut k) hopen.1

/-- `doRead()`. -/
theorem read (res : Int) (hscript : k.Scripted) (hcounter : 1 ≤ k.mySendCounter)
    (hconn : k.tcp.connecting = false) (hstream : k.myUvStream.isSome = true) :
    (k.read res).Steady := by
  have hassert : ∀ b, (k.assert .doRead b).tcp = k.tcp ∧
      (k.assert .doRead b).myUvStream = k.myUvStream := fun b => by
    unfold Client.assert
    split
    · exact ⟨rfl, rfl⟩
    · exact ⟨rfl, rfl⟩
  unfold Client.read
  dsimp only
  generalize (k.myState = .accepted || k.myState = .sent || k.myState = .sending ||
    k.myState = .receiving) = b
  obtain ⟨htcp, hsame⟩ := hassert b
  have hidle : k.Idle (((k.assert .doRead b).setState .receiving).uvReadStart res) :=
    ((Idle.assert .doRead b k).trans (Idle.setState .receiving _)).trans (Idle.uvReadStart res _)
  have hstarted := hscript.idle hidle
  have hconn' : (((k.assert .doRead b).setState .receiving).uvReadStart res).tcp.connecting =
      false := by
    unfold Client.uvReadStart
    dsimp only
    split
    · exact (congrArg UvTcp.connecting htcp).trans hconn
    · exact (congrArg UvTcp.connecting htcp).trans hconn
  have hstream' : (((k.assert .doRead b).setState .receiving).uvReadStart res).myUvStream.isSome =
      true := (congrArg Option.isSome hsame).trans hstream
  split
  · exact shut hstarted hconn' fun _ => hstream'
  · refine { hstarted with
      stage := ?_
      connecting := fun hc => absurd (hconn'.symm.trans hc) (by simp)
      reading := fun _ => hstream'
      held := fun _ => hstream' }
    show 1 ≤ (((k.assert .doRead b).setState .receiving).uvReadStart res).mySendCounter
    rw [hidle.mySendCounter]
    exact hcounter

/-- `sendMessage`. -/
theorem send {m : Message} (res : Int) (hscript : k.Scripted) (hopen : k.IsOpen)
    (hcounter : 0 ≤ k.mySendCounter ∧ (k.tcp.reading = true → 1 ≤ k.mySendCounter))
    (hconn : k.tcp.connecting = false) (hstream : k.myUvStream.isSome = true) :
    (k.send m res).Steady := by
  have hsent := hscript.sends (sends_send m res k)
  unfold Client.send at hsent ⊢
  rw [if_neg (not_or.mpr hopen)] at hsent ⊢
  have hconn' : (((k.log (.sendMessage m)).setState .sending).uvWrite (frame m)
      res).tcp.connecting = false := by
    rw [connecting_uvWrite]
    exact hconn
  split
  · exact shut ⟨hscript.kind, attached_uvWrite hscript.attached, hscript.timerActive⟩ hconn'
      fun _ => hstream
  · rename_i hok
    rw [if_neg hok] at hsent
    refine { hsent with
      stage := ?_
      connecting := fun hc => absurd (hconn'.symm.trans hc) (by simp)
      reading := fun _ => hstream
      held := fun _ => hstream }
    show 0 ≤ k.mySendCounter ∧ ((((k.log (.sendMessage m)).setState .sending).uvWrite (frame m)
      res).tcp.reading = true → 1 ≤ k.mySendCounter)
    rw [reading_uvWrite]
    exact hcounter

/-- The receive loop. -/
theorem readIn (hread : k.tcp.reading = true) (nread : Int) (base : Str) (h : k.Steady) :
    (k.readIn (fun _ k => k) nread base).Steady := by
  have htook := took_readIn nread base k
  have hunder := h.underway hread
  generalize k.readIn (fun _ k => k) nread base = k' at htook ⊢
  have hopen : k.IsOpen := by
    unfold IsOpen
    rcases hunder with (hs | hs) | hs <;> simp [hs]
  refine ⟨⟨htook.kind.trans h.kind, ?_, htook.timerActive.trans h.timerActive⟩, ?_, ?_, ?_,
    fun _ => ?_⟩
  · unfold Client.Attached
    rw [htook.myUvStream, htook.tcp]
    exact h.attached
  · have hstage := h.stage
    unfold Stage at hstage ⊢
    rw [htook.myState, htook.mySendCounter, htook.tcp]
    by_cases hnone : deliveries (k.buffered nread base) = []
    · rw [if_pos hnone]
      exact hstage
    · rw [if_neg hnone]
      -- a connection that reads is past its first write
      rcases hunder with (hs | hs) | hs
      · rw [hs] at hstage
        exact hstage.2 hread
      · rw [hs] at hstage
        exact hstage
      · rw [hs] at hstage
        exact hstage
  · rw [htook.tcp]
    intro hc
    exact absurd hunder (not_underway_of_state .connecting (h.connecting hc).1 (by decide))
  · rw [htook.tcp, htook.myUvStream]
    exact h.reading
  · rw [htook.myUvStream]
    exact h.held hopen

/-- A successful connect callback, before `process()`. -/
theorem establish (uv : Uv) (c : ClientId) (hread : k.tcp.reading = false)
    (hconn : k.tcp.connecting = false) (hopen : k.IsOpen) (h : k.Steady) :
    (k.establish uv c).Steady ∧
      (k.establish uv c).myState = .connected ∧ (k.establish uv c).sent = k.sent := by
  obtain ⟨canon, heq⟩ := establish_eq uv c k
  rw [heq]
  exact ⟨⟨⟨h.kind, h.attached, h.timerActive⟩, hread,
    fun hc => absurd (hconn.symm.trans hc) (by simp), h.reading, fun _ => h.held hopen⟩, rfl,
    (Idle.setState .connected { k with myCanonPeerAddr := canon }).sent⟩

/-- **`process()`.** -/
theorem advance (uv : Uv) (c : ClientId) (name : Str) (h : k.Steady) :
    (k.advance uv c name).Steady := by
  have hopen : ∀ {s : State}, k.myState = s → s ≠ .closing ∧ s ≠ .closed → k.IsOpen := fun hs h =>
    ⟨fun hc => h.1 (hs.symm.trans hc), fun hc => h.2 (hs.symm.trans hc)⟩
  have hstage := h.stage
  unfold Stage at hstage
  rcases state_cases k with hs | hs | hs | hs | hs
  · rw [hs] at hstage
    rw [advance_connected uv c name hs]
    refine send (k := { k with mySendCounter := 0 }) _ ⟨h.kind, h.attached, h.timerActive⟩
      (hopen hs (by simp)) ⟨le_rfl, fun hr => ?_⟩ (h.not_connecting (by rw [hs]; simp))
      (h.held (hopen hs (by simp)))
    exact absurd (hstage.symm.trans hr) (by simp)
  · rw [hs] at hstage
    have hcounter : (1 : Int) ≤ k.mySendCounter + 1 := by
      have := hstage.1
      omega
    rw [advance_sending uv c name hs]
    exact read (k := { k with mySendCounter := k.mySendCounter + 1 }) _
      ⟨h.kind, h.attached, h.timerActive⟩ hcounter (h.not_connecting (by rw [hs]; simp))
      (h.held (hopen hs (by simp)))
  · rw [advance_waiting uv c name hs]
    rcases hs with hs | hs
    · rw [hs] at hstage
      exact absurd hstage id
    · rw [hs] at hstage
      exact read _ h.toScripted hstage (h.not_connecting (by rw [hs]; simp))
        (h.held (hopen hs (by simp)))
  · rw [hs] at hstage
    have hone : 1 ≤ k.mySendCounter := hstage
    have hconn := h.not_connecting (by rw [hs]; simp)
    rw [advance_received uv c name hs, if_pos hone]
    split
    · exact shut h.toScripted hconn h.reading
    · exact send _ h.toScripted (hopen hs (by simp)) ⟨le_trans (by omega) hone, fun _ => hone⟩ hconn
        (h.held (hopen hs (by simp)))
  · rw [advance_unhandled uv c name hs]
    exact same (Idle.log rfl k) rfl rfl rfl (fun hc => ⟨hc, rfl⟩) h

/-- What `process()` does where it does not go on waiting: it speaks, or hangs up. -/
theorem advance_ahead (uv : Uv) (c : ClientId) (name : Str) (h : k.Steady)
    (hon : (k.advance uv c name).Underway) : k.sent.length < (k.advance uv c name).sent.length ∨
      k.Waiting ∧ (k.advance uv c name).sent = k.sent ∧
        (k.advance uv c name).delivered = k.delivered := by
  have hspeaks : ∀ {k k' : Client} {m : Message}, k.Sends m k' →
      k.sent.length < k'.sent.length := fun hs => by
    rw [hs.sent, List.length_append]
    exact Nat.lt_succ_self _
  have hstage := h.stage
  unfold Stage at hstage
  rcases state_cases k with hs | hs | hs | hs | hs
  · rw [advance_connected uv c name hs]
    exact Or.inl (hspeaks (k := { k with mySendCounter := 0 }) (sends_send _ _ _))
  · rw [advance_sending uv c name hs]
    have hidle := Idle.read (readAnswer uv c { k with mySendCounter := k.mySendCounter + 1 })
      { k with mySendCounter := k.mySendCounter + 1 }
    exact Or.inr ⟨Or.inl hs, hidle.sent, hidle.delivered⟩
  · rcases hs with hs | hs
    · rw [hs] at hstage
      exact absurd hstage id
    · rw [advance_waiting uv c name (Or.inr hs)]
      have hidle := Idle.read (readAnswer uv c k) k
      exact Or.inr ⟨Or.inr hs, hidle.sent, hidle.delivered⟩
  · rw [hs] at hstage
    have hone : 1 ≤ k.mySendCounter := hstage
    rw [advance_received uv c name hs] at hon ⊢
    split at hon
    · exact absurd hon (not_underway_shut k)
    · rename_i hmore
      rw [if_neg hmore, if_pos hone]
      exact Or.inl (hspeaks (sends_send _ _ k))
  · rw [advance_unhandled uv c name hs] at hon
    refine absurd hon ?_
    unfold Unhandled at hs
    unfold Underway Waiting
    rcases hs with hs | hs | hs | hs | hs | hs <;> simp [log, hs]

/-- It does not leave the connection just established. -/
theorem settled_advance (uv : Uv) (c : ClientId) (name : Str) (k : Client) :
    (k.advance uv c name).myState ≠ .connected := by
  have hread : ∀ k : Client, (k.readNow uv c).myState ≠ .connected := fun k => by
    unfold readNow Client.read
    dsimp only
    split
    · simp
    · exact fun hs => by cases hs
  rcases state_cases k with hs | hs | hs | hs | hs
  · rw [advance_connected uv c name hs]
    exact settled_send _ _
  · rw [advance_sending uv c name hs]
    exact hread _
  · rw [advance_waiting uv c name hs]
    exact hread _
  · rw [advance_received uv c name hs]
    split
    · simp
    · split
      · exact settled_send _ _
      · rw [hs]
        simp
  · rw [advance_unhandled uv c name hs]
    unfold Unhandled at hs
    rcases hs with hs | hs | hs | hs | hs | hs <;> simp [log, hs]

end Steady

/-! ### Its callbacks -/

namespace Ready

variable {uv : Uv} {c : ClientId} {k k₁ : Client}

/-- `process()`, after something that sent nothing. What was handed over by then are answers to
    what the connection had said. -/
theorem proceed (name : Str) (hsteady : k₁.Steady) (hsent : k₁.sent = k.sent)
    (hwaits : k₁.Waiting → k.Underway ∧ k₁.delivered = k.delivered)
    (hanswers : (k₁.proceed uv c name).delivered.length ≤ k.sent.length) (h : k.Ready) :
    (k₁.proceed uv c name).Ready := by
  rw [proceed_out uv c name hsteady.kind] at hanswers ⊢
  refine ⟨hsteady.advance uv c name, Steady.settled_advance uv c name k₁, fun hon => ?_⟩
  rcases hsteady.advance_ahead uv c name hon with hmore | ⟨hwait, hsent', hdelivered'⟩
  -- it speaks, and had been handed no more than it had said
  · rw [hsent] at hmore
    exact lt_of_le_of_lt hanswers hmore
  · obtain ⟨hunder, hdelivered⟩ := hwaits hwait
    rw [hsent', hsent, hdelivered', hdelivered]
    exact h.ahead hunder

/-- `close()`. -/
theorem shut (hscript : k.Scripted) (hconn : k.tcp.connecting = false)
    (hread : k.tcp.reading = true → k.myUvStream.isSome = true) : k.shut.Ready where
  toSteady := .shut hscript hconn hread
  settled := by simp
  ahead hon := absurd hon (not_underway_shut k)

theorem dial (host : Str) (port pingToSend : Int32) (res : Int) :
    ((NetClientOut.new host port pingToSend).dial res).Ready := by
  obtain ⟨b, hb⟩ := (NetClientOut.new host port pingToSend).dial_eq res
  rw [hb]
  exact ⟨⟨⟨rfl, fun _ => rfl, rfl⟩, rfl, fun _ => ⟨rfl, rfl⟩, fun _ => rfl, fun _ => rfl⟩,
    fun hs => State.noConfusion hs,
    fun hon => absurd hon (not_underway_of_state .connecting rfl (by decide))⟩

theorem connected {status : Int} (ha : k.tcp.connecting = true)
    (hanswers : (k.moved uv c (.connected status)).delivered.length ≤ k.sent.length)
    (h : k.Ready) : (k.moved uv c (.connected status)).Ready := by
  obtain ⟨hstate, -⟩ := h.connecting ha
  have hdone : ({ k with tcp := { k.tcp with connecting := false } } : Client).Steady :=
    h.toSteady.same (.bookkeeping rfl) rfl rfl rfl fun hc => absurd hc (by simp)
  have hread : k.tcp.reading = false := by
    have hstage := h.stage
    unfold Stage at hstage
    rw [hstate] at hstage
    exact hstage
  unfold moved move at hanswers ⊢
  dsimp only at hanswers ⊢
  split
  · exact ⟨hdone, h.settled, fun hon =>
      absurd hon (not_underway_of_state .connecting hstate (by decide))⟩
  · rename_i hok
    rw [if_neg hok] at hanswers
    obtain ⟨hsteady, hconnected, hsent⟩ := Steady.establish
      (k := { k with tcp := { k.tcp with connecting := false } }) uv c hread rfl
      ⟨by simp [hstate], by simp [hstate]⟩ hdone
    refine proceed (k := k) textNone hsteady hsent (fun hwait => ?_) hanswers h
    rcases hwait with hwait | hwait
    · exact absurd (hconnected.symm.trans hwait) (by simp)
    · exact absurd (hconnected.symm.trans hwait) (by simp)

theorem read {nread : Int} {buf : Option Str} (ha : (Callback.read nread buf).allowed k)
    (hret : (Callback.read nread buf).throws k = false)
    (hanswers : (k.moved uv c (.read nread buf)).delivered.length ≤ k.sent.length)
    (h : k.Ready) : (k.moved uv c (.read nread buf)).Ready := by
  obtain ⟨hread, -, hdata⟩ := ha
  have hunder := h.underway hread
  unfold moved move at hanswers ⊢
  dsimp only at hanswers ⊢
  by_cases hpos : 0 < nread
  · obtain ⟨base, rfl, -⟩ := hdata hpos
    have hreturns : cutThrows (k.buffered nread base) ≠ true := by
      simpa [Callback.throws, hpos] using hret
    rw [if_neg (by omega)] at hanswers ⊢
    dsimp only at hanswers ⊢
    rw [if_neg hreturns] at hanswers ⊢
    have htook := took_readIn nread base k
    refine h.proceed textNone (h.readIn hread nread base) htook.sent (fun hwait => ?_) hanswers
    -- a message that was handed over leaves the state `Received`
    by_cases hnone : deliveries (k.buffered nread base) = []
    · rw [hnone] at htook
      exact ⟨hunder, htook.delivered_nil⟩
    · have hstate := htook.myState
      rw [if_neg hnone] at hstate
      rcases hwait with hwait | hwait
      · exact absurd (hstate.symm.trans hwait) (by simp)
      · exact absurd (hstate.symm.trans hwait) (by simp)
  · rw [if_pos (by omega)]
    exact shut h.toScripted (h.not_connecting fun hs =>
      not_underway_of_state .connecting hs (by decide) hunder) h.reading

theorem wrote {status : Int} (ha : (Callback.wrote status).allowed k)
    (hanswers : (k.moved uv c (.wrote status)).delivered.length ≤ k.sent.length)
    (h : k.Ready) : (k.moved uv c (.wrote status)).Ready := by
  have hconn : k.tcp.connecting = false := by
    cases hc : k.tcp.connecting with
    | false => rfl
    | true =>
      have hwrites := (h.connecting hc).2
      have hpos := ha.1
      omega
  unfold moved move at hanswers ⊢
  dsimp only at hanswers ⊢
  have hassert : ({ k with tcp := { k.tcp with writes := k.tcp.writes - 1 } } : Client).Idle
      ({ k with tcp := { k.tcp with writes := k.tcp.writes - 1 } } : Client).assertWrite :=
    Idle.assert _ _ _
  have hidle := (Idle.bookkeeping (k := k) (t := { k.tcp with writes := k.tcp.writes - 1 })
    rfl).trans hassert
  generalize hwritten : ({ k with tcp := { k.tcp with writes := k.tcp.writes - 1 } } :
      Client).assertWrite = k₁ at hidle hanswers ⊢
  have hkept : k₁.myState = k.myState ∧ k₁.myUvStream = k.myUvStream ∧
      k₁.tcp.reading = k.tcp.reading ∧ k₁.tcp.connecting = k.tcp.connecting := by
    rw [← hwritten]
    unfold Client.assertWrite Client.assert
    split
    · exact ⟨rfl, rfl, rfl, rfl⟩
    · exact ⟨rfl, rfl, rfl, rfl⟩
  obtain ⟨hstate, hstream, hreading, hconnecting⟩ := hkept
  have hsteady : k₁.Steady := h.toSteady.same hidle hstate hstream hreading fun hc =>
    absurd (hconnecting.symm.trans hc) (by simp [hconn])
  split
  · exact shut hsteady.toScripted (hconnecting.trans hconn) hsteady.reading
  · rename_i hok
    rw [if_neg hok] at hanswers
    refine h.proceed textNone hsteady hidle.sent (fun hwait => ⟨Or.inl ?_, hidle.delivered⟩)
      hanswers
    unfold Waiting at hwait ⊢
    rw [← hstate]
    exact hwait

theorem finish (ha : Callback.closed.allowed k) (h : k.Ready) : k.finish.Ready := by
  have hread : k.tcp.reading = false := by
    cases hr : k.tcp.reading with
    | false => rfl
    | true => exact absurd ((h.attached (h.reading hr)).symm.trans ha.1) (by simp)
  exact ⟨⟨⟨h.kind, h.attached, h.timerActive⟩, hread,
    fun hc => absurd (ha.2.2.2.symm.trans hc) (by simp), h.reading,
    fun hopen => absurd rfl hopen.2⟩,
    fun hs => State.noConfusion hs,
    fun hon => absurd hon (not_underway_of_state .closed rfl (by decide))⟩

/-- The rule: at every callback the answers are to what was said before it. -/
theorem rule (uv : Uv) (c : ClientId) : ClientRule uv c
    (fun k cb => (k.moved uv c cb).delivered.length ≤ k.sent.length) Ready fun _ => True where
  scripted h := h.toScripted
  weaken _ := trivial
  start := dial
  move {k} {cb} h ha hp := by
    refine ⟨trivial, fun hret => ?_⟩
    cases cb with
    | connected status => exact h.connected ha.1 hp
    | read nread buf => exact h.read ha hret hp
    | wrote status => exact h.wrote ha hp
    | closed => exact h.finish ha
    | timer => exact absurd (h.timerActive.symm.trans ha) (by simp)

end Ready

end Client

/-! ## In a network -/

namespace Program

variable {p : Program} {s : p.Process} {e : p.Event} {c : ClientId}

/-- The connection, if it is a client's that runs, is ready. -/
def ClientReady (c : ClientId) : (p : Program) → p.Process → Prop
  | .client _, w => ClientRule.At c Client.Ready (fun _ => True) w
  | _, _ => True

theorem clientReady_init (p : Program) (c : ClientId) : p.ClientReady c p.init := by
  cases p with
  | client uv => exact fun hc => absurd hc (Nat.not_lt_zero c)
  | _ => trivial

theorem ClientReady.step (h : p.ClientReady c s) (ha : p.system.allowed s e)
    (hanswers : c < p.count s →
      (p.conn (p.system.step s e) c).delivered.length ≤ (p.conn s c).sent.length) :
    p.ClientReady c (p.system.step s e) := by
  cases p with
  | client uv =>
    refine (Client.Ready.rule uv c).step s e h ha ?_
    cases e with
    | newClient host port pingToSend => trivial
    | client d cb =>
      rintro rfl
      obtain ⟨hnone, hd, hcb⟩ := ha
      have hready := (h hd).2 hnone
      obtain ⟨hself, -, -⟩ := clientStep_spec uv hready.toScripted hcb
      rw [← hself]
      exact hanswers hd
  | _ => trivial

theorem ClientReady.ready {uv : Uv} (hp : p = .client uv) (h : p.ClientReady c s)
    (hc : c < p.count s) (hrun : p.terminated s = none) : (p.conn s c).Ready := by
  subst hp
  exact (h hc).2 hrun

end Program

namespace Proper

variable {ι : Type} [DecidableEq ι] {prog : ι → Program}
  {link : ι → ClientId → Option (ι × ClientId)} {es : List (NetworkEvent prog)}

section

variable (h : Proper prog link es) {i j : ι} {c d : ClientId}

include h

/-- A server has answered at most what its peer has said. -/
theorem answers_le {uv : Uv} (hj : prog j = .server uv) (hback : link j d = some (i, c))
    (hd : d < (prog j).count ((networkRun prog link es).node j)) :
    ((prog j).conn ((networkRun prog link es).node j) d).sent.length ≤
      ((prog i).conn ((networkRun prog link es).node i) c).sent.length := by
  obtain ⟨early, late, hdelivered, hsent, -⟩ := (h.replied hj hd).answered
  have hanswers : ((prog j).conn ((networkRun prog link es).node j) d).sent.length ≤
      ((prog j).conn ((networkRun prog link es).node j) d).delivered.length := by
    rw [hsent, hdelivered, List.length_append, List.length_append]
    exact Nat.add_le_add (List.length_filterMap_le _ _) (List.length_filterMap_le _ _)
  refine hanswers.trans ?_
  by_cases hc : c < (prog i).count ((networkRun prog link es).node i)
  · exact (h.hears hback hd hc).length_le.trans (List.length_filterMap_le _ _)
  -- nobody has dialled it yet
  · have hnone : ((prog j).conn ((networkRun prog link es).node j) d).delivered = [] := by
      refine List.eq_nil_iff_forall_not_mem.mpr fun m hm => ?_
      obtain ⟨i', c', hlink', hc', -⟩ := h.said hd hm
      obtain ⟨rfl, rfl⟩ := Prod.mk.inj (Option.some.inj (hback.symm.trans hlink'))
      exact hc hc'
    rw [hnone]
    exact Nat.zero_le _

/-- A connection is handed at most what its peer has said. -/
theorem hears_le (hlink : link i c = some (j, d))
    (hc : c < (prog i).count ((networkRun prog link es).node i)) :
    ((prog i).conn ((networkRun prog link es).node i) c).delivered = [] ∨
      d < (prog j).count ((networkRun prog link es).node j) ∧
        ((prog i).conn ((networkRun prog link es).node i) c).delivered.length ≤
          ((prog j).conn ((networkRun prog link es).node j) d).sent.length := by
  by_cases hd : d < (prog j).count ((networkRun prog link es).node j)
  · exact Or.inr ⟨hd, (h.hears hlink hc hd).length_le.trans (List.length_filterMap_le _ _)⟩
  · refine Or.inl (List.eq_nil_iff_forall_not_mem.mpr fun m hm => ?_)
    obtain ⟨j', d', hlink', hd', -⟩ := h.said hc hm
    obtain ⟨rfl, rfl⟩ := Prod.mk.inj (Option.some.inj (hlink.symm.trans hlink'))
    exact hd hd'

end

/-- **A client is always one message ahead of its server.** -/
theorem clientReady {i j : ι} {c d : ClientId} {uvi uvj : Uv} (hi : prog i = .client uvi)
    (hj : prog j = .server uvj) (hlink : link i c = some (j, d)) (hback : link j d = some (i, c)) :
    ∀ {es : List (NetworkEvent prog)}, Proper prog link es →
      (prog i).ClientReady c ((networkRun prog link es).node i) := by
  intro es
  have hij : j ≠ i := by
    rintro rfl
    rw [hi] at hj
    cases hj
  -- on the last event: what a client was handed is bounded by what its server had said before
  induction es using List.reverseRecOn with
  | nil => exact fun _ => (prog i).clientReady_init c
  | append_singleton es e ih =>
    intro h
    have hbefore := h.before
    obtain ⟨-, ⟨ha, -⟩, -⟩ := (System.valid_append _ _ _ _).mp h.valid
    have hstep : networkRun prog link (es ++ [e]) =
        (network prog link).system.step (networkRun prog link es) e := System.run_append _ _ _ _
    obtain ⟨k, e⟩ := e
    -- the server says nothing during an event of the client
    by_cases hk : i = k
    · subst hk
      have hserver : (networkRun prog link (es ++ [⟨i, e⟩])).node j =
          (networkRun prog link es).node j := by
        rw [hstep]
        exact Lib.Network.node_ne (N := network prog link) hij e
      have hself : (networkRun prog link (es ++ [⟨i, e⟩])).node i =
          (prog i).system.step ((networkRun prog link es).node i) e := by
        rw [hstep]
        exact Lib.Network.node_self (N := network prog link) e
      rw [hself]
      refine (ih hbefore).step ha fun hc => ?_
      have hc' : c < (prog i).count ((prog i).system.step ((networkRun prog link es).node i) e) :=
        (Program.acts_grow (hbefore.fulfils_any.1 i).conduct.sane (hbefore.fulfils_any.1 i).streams
          ha hc).1
      rw [← hself] at hc' ⊢
      rcases h.hears_le hlink hc' with hnone | ⟨hd, hle⟩
      · rw [hnone]
        exact Nat.zero_le _
      · rw [hserver] at hd hle
        exact hle.trans (hbefore.answers_le hj hback hd)
    · rw [hstep, Lib.Network.node_ne (N := network prog link) hk e]
      exact ih hbefore

end Proper

/-! ## What a server has to say -/

/-- Every request of the client program has an answer … -/
theorem answer_ofClient (name addr : Str) {m : Message} (h : m.OfClient) :
    ∃ m', ServerApp.answer name addr m = some m' := by
  cases m with
  | handshake v y a => exact ⟨_, if_pos h.1⟩
  | ping text => exact ⟨_, rfl⟩
  | _ => exact absurd h id

/-- … and is heard, unless it is that of a server without a name to a handshake. -/
theorem heard_answer {name addr : Str} (hname : name = [] ∨ IsWord name) (haddr : IsWord addr)
    {m m' : Message} (hm : m.WF) (ha : ServerApp.answer name addr m = some m')
    (hnamed : ∀ v a, m' ≠ .handshakeResponse v [] a) : heard m' = some m' := by
  refine heard_of_wf ?_
  cases m with
  | handshake v y a =>
    rw [ServerApp.answer] at ha
    split at ha
    · obtain rfl := Option.some.inj ha
      exact wf_handshakeResponse (hname.resolve_left fun hnil => by
        subst hnil
        exact hnamed _ _ rfl) haddr
    · cases ha
  | ping text =>
    rw [← Option.some.inj ha]
    exact wf_pingResponse hname (hm text (by simp [Message.fields]))
  | _ => cases ha

namespace Proper

variable {ι : Type} [DecidableEq ι] {prog : ι → Program}
  {link : ι → ClientId → Option (ι × ClientId)} {es : List (NetworkEvent prog)}
  (h : Proper prog link es) {j : ι} {d : ClientId} {uv : Uv} (hj : prog j = .server uv)
  (hd : d < (prog j).count ((networkRun prog link es).node j))

include h hj hd

/-- Whatever a server says answers something it was told. -/
theorem answer_of_sent {m' : Message}
    (hm' : m' ∈ ((prog j).conn ((networkRun prog link es).node j) d).sent) :
    ∃ name m, (name = [] ∨ IsWord name) ∧ m.WF ∧ ServerApp.answer name
      ((prog j).conn ((networkRun prog link es).node j) d).myPeerAddr m = some m' := by
  obtain ⟨early, late, hdelivered, hsent, -⟩ := (h.replied hj hd).answered
  have hname := ((h.fulfils_any.1 j).conduct.words hj hd).1
  have hwf : ∀ m ∈ early ++ late, m.WF := fun m hm => by
    rw [← hdelivered] at hm
    obtain ⟨_, _, _, _, m₀, _, hheard⟩ := h.said hd hm
    exact wf_of_lineMessage hheard
  rw [hsent] at hm'
  rcases List.mem_append.mp hm' with hm' | hm'
  · obtain ⟨m, hm, hanswer⟩ := List.mem_filterMap.mp hm'
    exact ⟨[], m, Or.inl rfl, hwf m (List.mem_append_left _ hm), hanswer⟩
  · obtain ⟨m, hm, hanswer⟩ := List.mem_filterMap.mp hm'
    exact ⟨_, m, hname, hwf m (List.mem_append_right _ hm), hanswer⟩

/-- What a server says after it has its name is heard. -/
theorem answers_heard
    (hnamed : ∀ v a, .handshakeResponse v [] a ∉
      ((prog j).conn ((networkRun prog link es).node j) d).sent) :
    ((prog j).conn ((networkRun prog link es).node j) d).sent.filterMap heard =
      ((prog j).conn ((networkRun prog link es).node j) d).sent := by
  refine (List.filterMap_congr fun m' hm' => ?_).trans List.filterMap_some
  obtain ⟨name, m, hname, hwf, hanswer⟩ := h.answer_of_sent hj hd hm'
  exact heard_answer hname ((h.fulfils_any.1 j).conduct.words hj hd).2 hwf hanswer
    fun v a he => hnamed v a (he ▸ hm')

/-- It has an answer to whatever the client program says. -/
theorem all_answered
    (hclient : ∀ m ∈ ((prog j).conn ((networkRun prog link es).node j) d).delivered, m.OfClient) :
    ((prog j).conn ((networkRun prog link es).node j) d).sent.length =
      ((prog j).conn ((networkRun prog link es).node j) d).delivered.length := by
  obtain ⟨early, late, hdelivered, hsent, -⟩ := (h.replied hj hd).answered
  rw [hdelivered] at hclient
  have hall : ∀ (name addr : Str) (ms : List Message), (∀ m ∈ ms, m.OfClient) →
      (ms.filterMap (ServerApp.answer name addr)).length = ms.length := fun name addr ms hms =>
    List.filterMap_length_eq_length.mpr fun m hm =>
      Option.isSome_iff_exists.mpr (answer_ofClient name addr (hms m hm))
  rw [hsent, hdelivered, List.length_append, List.length_append,
    hall _ _ early fun m hm => hclient m (List.mem_append_left _ hm),
    hall _ _ late fun m hm => hclient m (List.mem_append_right _ hm)]

end Proper

/-- A client and a server whose libuv may be told to read twice … -/
def lenientPair (serves : Bool) : Program := if serves then .server .lenient else .client .lenient

/-- … that exchange a handshake and a ping. -/
def conversation : List (NetworkEvent lenientPair) :=
  [⟨true, ServerEvent.listen { listenPort := 5000, listenPortRange := 1 }⟩,
    ⟨true, ServerEvent.startUvLoop⟩,
    ⟨true, ServerEvent.setName⟩,
    ⟨false, ClientEvent.newClient textLocalhost 5000 1⟩,
    ⟨true, ServerEvent.newConnection 0 0⟩,
    ⟨false, ClientEvent.client 0 (.connected 0)⟩,
    ⟨false, ClientEvent.client 0 (.wrote 0)⟩,
    ⟨true, ServerEvent.client 0 (.read 33 (some "HANDSH V01 localhost:5000 _NONE_\n".toList))⟩,
    ⟨false, ClientEvent.client 0 (.read 37 (some "HANDSHRESP V01 :5000 127.0.0.1:35091\n".toList))⟩,
    ⟨true, ServerEvent.client 0
      (.read 42 (some "PING Ping_from__NONE__to_localhost:5000_1\n".toList))⟩,
    ⟨false, ClientEvent.client 0 (.wrote 0)⟩,
    ⟨false, ClientEvent.client 0 (.read 65
      (some "PINGRESP Resp_from_:5000_to_Ping_from__NONE__to_localhost:5000_1\n".toList))⟩]

theorem proper_conversation : Proper lenientPair joined conversation where
  ipv4 i := by cases i <;> exact fun _ _ => rfl
  valid := by decide +kernel
  decent := by decide
  short := by decide +kernel

section

variable {ι : Type} [DecidableEq ι] {prog : ι → Program}
  {link : ι → ClientId → Option (ι × ClientId)} {es : List (NetworkEvent prog)}

/-- **Nobody is left waiting**: when nothing is on its way between a client and a server that is
    still there for it, and that had its name when it greeted, the client has not got through yet,
    or has hung up. -/
theorem network_rests (h : Proper prog link es) {i j : ι} {c d : ClientId} {uv uv' : Uv}
    (hi : prog i = .client uv) (hj : prog j = .server uv')
    (hlink : link i c = some (j, d)) (hback : link j d = some (i, c))
    (hc : c < (prog i).count ((networkRun prog link es).node i))
    (hd : d < (prog j).count ((networkRun prog link es).node j)) :
    let n := networkRun prog link es
    let asker := (prog i).conn (n.node i) c
    let answerer := (prog j).conn (n.node j) d
    n.taken i c = answerer.streamed.flatten → n.taken j d = asker.streamed.flatten →
      answerer.myUvStream.isSome = true → (∀ v a, .handshakeResponse v [] a ∉ answerer.sent) →
      asker.myState = .connecting ∨ asker.myState = .closing ∨ asker.myState = .closed := by
  intro n asker answerer hquiet hquiet' hup hnamed
  have hready : asker.Ready :=
    (h.clientReady hi hj hlink hback).ready hi hc (h.fulfils_any.1 i).running
  have hover : ¬ asker.Underway := by
    intro hunder
    have hopen : asker.IsOpen := by
      unfold Client.IsOpen
      rcases hunder with (hs | hs) | hs <;> simp [hs]
    -- everything the client said was answered, and every answer was handed over
    have hasked : answerer.delivered = asker.sent := by
      refine (h.hears_all hd hc hquiet' (hready.held hopen)).trans (h.heard_sent hc ?_)
      simp [hi]
    have hheard : asker.delivered = answerer.sent :=
      (h.hears_all hc hd hquiet hup).trans (h.answers_heard hj hd hnamed)
    have hanswered : answerer.sent.length = answerer.delivered.length := by
      refine h.all_answered hj hd fun m hm => ?_
      rw [show ((prog j).conn ((networkRun prog link es).node j) d).delivered = _ from hasked] at hm
      exact (((h.fulfils_any.1 i).conduct.polite hi hc).sent m (Client.mem_sent.mp hm)).2
    -- as many answers as requests, where the invariant has one request more
    refine absurd (hready.ahead hunder) (not_lt.mpr ?_)
    rw [← hasked, hheard, hanswered]
  have hstage := hready.stage
  have hsettled := hready.settled
  unfold Client.Stage at hstage
  unfold Client.Underway Client.Waiting at hover
  cases hs : asker.myState with
  | connecting | closing | closed => simp
  | sending | receiving | received => exact absurd hs (fun hs => hover (by simp [hs]))
  | connected => exact absurd hs hsettled
  | _ =>
    rw [hs] at hstage
    exact absurd hstage id

theorem network_rests_conversation :
    let n := networkRun lenientPair joined conversation
    let asker := (lenientPair false).conn (n.node false) 0
    asker.myState = .connecting ∨ asker.myState = .closing ∨ asker.myState = .closed :=
  let n := networkRun lenientPair joined conversation
  have hsent : ((lenientPair true).conn (n.node true) 0).sent =
      [.handshakeResponse textV01 ":5000".toList "127.0.0.1:35091".toList,
        .pingResponse "Resp_from_:5000_to_Ping_from__NONE__to_localhost:5000_1".toList] := by
    decide +kernel
  network_rests proper_conversation (i := false) (j := true) (c := 0) (d := 0) rfl rfl rfl rfl
    (by decide +kernel) (by decide +kernel) (by decide +kernel) (by decide +kernel)
    (by decide +kernel) fun v a hm => by
      rw [hsent] at hm
      simp at hm

end

end TcpUv
