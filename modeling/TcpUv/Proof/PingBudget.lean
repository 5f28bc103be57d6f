import TcpUv.Proof.ClientRules
import Mathlib.Order.Interval.Finset.Basic
import Mathlib.Data.Int.Interval

/-!
# The ping budget

`mySendCounter` is counted up where `process()` runs in state `Sending`, that is, by a
write completion or by a read that delivers nothing; and it numbers the pings that reads
trigger. The invariant (`Budget`) ties the numbers already used to the counter, phase by
phase: after a ping its number *is* the counter, until something moves the connection out
of `Sending` by way of the counter. A read that delivers a message moves it out without;
that is the one step the result excludes.
-/

set_option autoImplicit false

namespace TcpUv

open Lib

def Message.isPing : Message → Bool
  | .ping _ => true
  | _ => false

namespace Client

/-- The pings passed to `sendMessage` so far. -/
def pings (k : Client) : List Message := k.sent.filter Message.isPing

/-- Ping number `j` of a connection of the client program. -/
def pingNo (k : Client) (j : Int) : Message := .ping (pingText textNone k.myPeerAddr j)

/-- At most as many pings as the connection was given to send, no two of them with the same
    number. -/
def WithinBudget (k : Client) : Prop :=
  ∃ js : List Int, k.pings = js.map k.pingNo ∧ js.Nodup ∧
    (js.length : Int) ≤ max k.myPingToSend.toInt 0

/-- The numbers used so far, in the order sent. -/
structure Numbered (k : Client) (js : List Int) : Prop where
  pings : k.pings = js.map k.pingNo
  increasing : js.Pairwise (· < ·)
  range : ∀ j ∈ js, 1 ≤ j ∧ j ≤ k.myPingToSend.toInt

/-- How the numbers used relate to the counter, by the state of the connection. -/
def Phase (k : Client) (js : List Int) : Prop :=
  match k.myState with
  | .sending => 0 ≤ k.mySendCounter ∧ (k.tcp.reading = true → 1 ≤ k.mySendCounter) ∧
      ∀ j ∈ js, j ≤ k.mySendCounter
  | .sent => 1 ≤ k.mySendCounter ∧ ∀ j ∈ js, j < k.mySendCounter
  | .receiving => 1 ≤ k.mySendCounter ∧ ∀ j ∈ js, j < k.mySendCounter
  | .received => 1 ≤ k.mySendCounter ∧ ∀ j ∈ js, j < k.mySendCounter
  | .closing => k.tcp.reading = false
  | .closed => k.tcp.reading = false
  | _ => js = [] ∧ k.tcp.reading = false

end Client

open Client

/-- **The invariant.** -/
structure Budget (k : Client) : Prop extends k.Scripted where
  numbers : ∃ js, k.Numbered js ∧ k.Phase js
  connecting : k.tcp.connecting = true → k.myState = .connecting ∧ k.tcp.writes = 0
  reading : k.tcp.reading = true → k.myUvStream.isSome = true

/-! ## The numbers -/

/-- `1 + n` of an `int`, which overflows at the largest one. -/
theorem toInt_one_add (n : Int32) :
    (1 + n).toInt = if n.toInt = 2 ^ 31 - 1 then -2 ^ 31 else 1 + n.toInt := by
  have hlt := n.toInt_lt
  have hle := n.le_toInt
  have hone : (1 : Int32).toInt = 1 := rfl
  rw [Int32.toInt_add, hone, Int.bmod_def]
  split <;> omega

theorem Client.Numbered.withinBudget {k : Client} {js : List Int} (h : k.Numbered js) :
    k.WithinBudget := by
  have hnodup : js.Nodup := h.increasing.imp fun hlt => ne_of_lt hlt
  refine ⟨js, h.pings, hnodup, ?_⟩
  have hsub : js.toFinset ⊆ Finset.Icc 1 k.myPingToSend.toInt := by
    intro j hj
    exact Finset.mem_Icc.mpr (h.range j (List.mem_toFinset.mp hj))
  have hcard := Finset.card_le_card hsub
  rw [List.toFinset_card_of_nodup hnodup, Int.card_Icc] at hcard
  omega

/-- A move that sends nothing keeps the numbers. -/
theorem Client.Numbered.idle {k k' : Client} {js : List Int} (hi : k.Idle k') (h : k.Numbered js) :
    k'.Numbered js where
  pings := by
    unfold Client.pings Client.pingNo
    rw [hi.sent, hi.myPeerAddr]
    exact h.pings
  increasing := h.increasing
  range := by rw [hi.myPingToSend]; exact h.range

/-- Neither does a handshake. -/
theorem Client.Numbered.handshake {k k' : Client} {m : Message} {js : List Int}
    (hs : k.Sends m k') (hm : m.isPing = false) (h : k.Numbered js) : k'.Numbered js where
  pings := by
    unfold Client.pings Client.pingNo
    rw [hs.sent, hs.myPeerAddr, List.filter_append, List.filter_cons_of_neg (by simp [hm]),
      List.filter_nil, List.append_nil]
    exact h.pings
  increasing := h.increasing
  range := by rw [hs.myPingToSend]; exact h.range

/-- A ping takes the next number. -/
theorem Client.Numbered.ping {k k' : Client} {js : List Int} {n : Int}
    (hs : k.Sends (k.pingNo n) k') (hnew : ∀ j ∈ js, j < n)
    (hrange : 1 ≤ n ∧ n ≤ k.myPingToSend.toInt) (h : k.Numbered js) : k'.Numbered (js ++ [n]) where
  pings := by
    have hpings := h.pings
    unfold Client.pings at hpings ⊢
    have hno : k'.pingNo = k.pingNo := by
      unfold Client.pingNo
      rw [hs.myPeerAddr]
    rw [hs.sent, List.filter_append, hpings, hno, List.map_append]
    rfl
  increasing := by
    refine List.pairwise_append.mpr ⟨h.increasing, List.pairwise_singleton _ n, ?_⟩
    intro j hj n' hn'
    rw [List.mem_singleton.mp hn']
    exact hnew j hj
  range j hj := by
    rw [hs.myPingToSend]
    rcases List.mem_append.mp hj with hj | hj
    · exact h.range j hj
    · rw [List.mem_singleton.mp hj]
      exact hrange

/-! ## The methods -/

theorem Client.reading_shut {k : Client} (h : k.tcp.reading = true → k.myUvStream.isSome = true) :
    k.shut.tcp.reading = false := by
  unfold Client.shut
  split
  · rename_i hnone
    rw [hnone] at h
    show k.tcp.reading = false
    cases hr : k.tcp.reading with
    | false => rfl
    | true => exact absurd (h hr) (by simp)
  · rfl

theorem Client.connecting_shut (k : Client) : k.shut.tcp.connecting = k.tcp.connecting := by
  unfold Client.shut
  split <;> rfl

namespace Budget

variable {k : Client}

theorem withinBudget (h : Budget k) : k.WithinBudget := by
  obtain ⟨js, hnum, -⟩ := h.numbers
  exact hnum.withinBudget

/-- A connection past its connect callback awaits none. -/
theorem not_connecting (h : Budget k) (hs : k.myState ≠ .connecting) : k.tcp.connecting = false := by
  cases hc : k.tcp.connecting with
  | false => rfl
  | true => exact absurd (h.connecting hc).1 hs

/-- `close()`, wherever the numbers stand. -/
theorem shut {js : List Int} (hscript : k.Scripted) (hnum : k.Numbered js)
    (hconn : k.tcp.connecting = false)
    (hread : k.tcp.reading = true → k.myUvStream.isSome = true) : Budget k.shut where
  kind := (Idle.shut k).kind.trans hscript.kind
  attached := (Idle.shut k).attached hscript.attached
  timerActive := (Idle.shut k).timerActive.trans hscript.timerActive
  numbers := by
    refine ⟨js, hnum.idle (Idle.shut k), ?_⟩
    unfold Client.Phase
    rw [myState_shut]
    exact reading_shut hread
  connecting hc := by
    rw [connecting_shut, hconn] at hc
    cases hc
  reading hr := by
    rw [reading_shut hread] at hr
    cases hr

/-- `doRead()`, once the counter is past the numbers used. -/
theorem read {js : List Int} (res : Int) (hscript : k.Scripted) (hnum : k.Numbered js)
    (hphase : 1 ≤ k.mySendCounter ∧ ∀ j ∈ js, j < k.mySendCounter)
    (hconn : k.tcp.connecting = false)
    (hread : k.tcp.reading = true → k.myUvStream.isSome = true) : Budget (k.read res) := by
  have hassert : ∀ b, (k.assert .doRead b).tcp = k.tcp ∧
      (k.assert .doRead b).myUvStream = k.myUvStream := by
    intro b
    unfold Client.assert
    split
    · exact ⟨rfl, rfl⟩
    · exact ⟨rfl, rfl⟩
  unfold Client.read
  dsimp only
  generalize hb : (k.myState = .accepted || k.myState = .sent || k.myState = .sending ||
    k.myState = .receiving) = b
  obtain ⟨htcp, hstream⟩ := hassert b
  have hidle : k.Idle (((k.assert .doRead b).setState .receiving).uvReadStart res) :=
    ((Idle.assert .doRead b k).trans (Idle.setState .receiving _)).trans (Idle.uvReadStart res _)
  have hconn' : (((k.assert .doRead b).setState .receiving).uvReadStart res).tcp.connecting =
      false := by
    unfold Client.uvReadStart
    dsimp only
    split
    · show (k.assert .doRead b).tcp.connecting = false
      rw [htcp]
      exact hconn
    · show (k.assert .doRead b).tcp.connecting = false
      rw [htcp]
      exact hconn
  have hread' : (((k.assert .doRead b).setState .receiving).uvReadStart res).tcp.reading = true →
      (((k.assert .doRead b).setState .receiving).uvReadStart res).myUvStream.isSome = true := by
    show _ → (k.assert .doRead b).myUvStream.isSome = true
    rw [hstream]
    unfold Client.uvReadStart
    dsimp only
    split
    · rename_i hstart
      rw [← hstream]
      exact fun _ => hstart.2
    · show (k.assert .doRead b).tcp.reading = true → _
      rw [htcp]
      exact hread
  have hscript' : (((k.assert .doRead b).setState .receiving).uvReadStart res).Scripted :=
    ⟨hidle.kind.trans hscript.kind, hidle.attached hscript.attached,
      hidle.timerActive.trans hscript.timerActive⟩
  split
  · exact shut hscript' (hnum.idle hidle) hconn' hread'
  · refine { hscript' with
      numbers := ⟨js, hnum.idle hidle, ?_⟩
      connecting := fun hc => absurd (hconn'.symm.trans hc) (by simp)
      reading := hread' }
    show 1 ≤ (((k.assert .doRead b).setState .receiving).uvReadStart res).mySendCounter ∧
      ∀ j ∈ js, j < (((k.assert .doRead b).setState .receiving).uvReadStart res).mySendCounter
    rw [hidle.mySendCounter]
    exact hphase

/-- `sendMessage`, in a state that is not closed; the numbers are those after it. -/
theorem send {m : Message} {js : List Int} (res : Int) (hscript : k.Scripted) (hopen : k.IsOpen)
    (hnum : (k.send m res).Numbered js)
    (hphase : 0 ≤ k.mySendCounter ∧ (k.tcp.reading = true → 1 ≤ k.mySendCounter) ∧
      ∀ j ∈ js, j ≤ k.mySendCounter)
    (hconn : k.tcp.connecting = false)
    (hread : k.tcp.reading = true → k.myUvStream.isSome = true) : Budget (k.send m res) := by
  have hs := sends_send m res k
  have hscript' : (k.send m res).Scripted :=
    ⟨hs.kind.trans hscript.kind, hs.attached hscript.attached,
      hs.timerActive.trans hscript.timerActive⟩
  have hnum' := hnum
  have hscript'' := hscript'
  unfold Client.send at hnum' hscript'' ⊢
  rw [if_neg (not_or.mpr hopen)] at hnum' hscript'' ⊢
  have hread' : (((k.log (.sendMessage m)).setState .sending).uvWrite (frame m) res).tcp.reading =
      true → k.myUvStream.isSome = true := by
    rw [reading_uvWrite]
    exact hread
  have hconn' : (((k.log (.sendMessage m)).setState .sending).uvWrite (frame m) res).tcp.connecting =
      false := by
    rw [connecting_uvWrite]
    exact hconn
  split
  · rename_i hfail
    rw [if_pos hfail] at hnum' hscript''
    refine { hscript'' with
      numbers := ⟨js, hnum', ?_⟩
      connecting := fun hc => ?_
      reading := fun hr => ?_ }
    · unfold Client.Phase
      rw [myState_shut]
      exact reading_shut hread'
    · rw [connecting_shut, hconn'] at hc
      cases hc
    · rw [reading_shut hread'] at hr
      cases hr
  · rename_i hok
    rw [if_neg hok] at hnum' hscript''
    refine { hscript'' with
      numbers := ⟨js, hnum', ?_⟩
      connecting := fun hc => absurd (hconn'.symm.trans hc) (by simp)
      reading := hread' }
    show 0 ≤ k.mySendCounter ∧ ((((k.log (.sendMessage m)).setState .sending).uvWrite (frame m)
      res).tcp.reading = true → 1 ≤ k.mySendCounter) ∧ ∀ j ∈ js, j ≤ k.mySendCounter
    rw [reading_uvWrite]
    exact hphase

/-- Nothing the invariant looks at has moved. -/
theorem same {k' : Client} (hi : k.Idle k') (hs : k'.myState = k.myState)
    (hstream : k'.myUvStream = k.myUvStream) (hreading : k'.tcp.reading = k.tcp.reading)
    (hconnecting : k'.tcp.connecting = true → k.tcp.connecting = true ∧ k'.tcp.writes = k.tcp.writes)
    (h : Budget k) : Budget k' where
  kind := hi.kind.trans h.kind
  attached := hi.attached h.attached
  timerActive := hi.timerActive.trans h.timerActive
  numbers := by
    obtain ⟨js, hnum, hphase⟩ := h.numbers
    refine ⟨js, hnum.idle hi, ?_⟩
    unfold Client.Phase at hphase ⊢
    rw [hs, hi.mySendCounter, hreading]
    exact hphase
  connecting hc := by
    obtain ⟨hc', hwrites⟩ := hconnecting hc
    rw [hs, hwrites]
    exact h.connecting hc'
  reading := by
    rw [hstream, hreading]
    exact h.reading

/-- **`process()`.** -/
theorem advance (uv : Uv) (c : ClientId) (h : Budget k) : Budget (k.advance uv c textNone) := by
  obtain ⟨js, hnum, hphase⟩ := h.numbers
  unfold Client.Phase at hphase
  rcases state_cases k with hs | hs | hs | hs | hs
  · rw [hs] at hphase
    obtain ⟨rfl, hread⟩ := hphase
    rw [advance_connected uv c textNone hs]
    refine @send { k with mySendCounter := 0 } _ [] _ ⟨h.kind, h.attached, h.timerActive⟩
      ⟨by rw [hs]; simp, by rw [hs]; simp⟩ ?_ ⟨le_rfl, fun hr => ?_, by simp⟩
      (h.not_connecting (by rw [hs]; simp)) h.reading
    · exact Numbered.handshake (sends_send _ _ _) rfl ⟨hnum.pings, hnum.increasing, hnum.range⟩
    · exact absurd (hread.symm.trans hr) (by simp)
  · rw [hs] at hphase
    obtain ⟨hpos, hread, hjs⟩ := hphase
    rw [advance_sending uv c textNone hs]
    refine @read { k with mySendCounter := k.mySendCounter + 1 } js _
      ⟨h.kind, h.attached, h.timerActive⟩ ⟨hnum.pings, hnum.increasing, hnum.range⟩
      ⟨?_, fun j hj => ?_⟩ (h.not_connecting (by rw [hs]; simp)) h.reading
    · show 1 ≤ k.mySendCounter + 1
      omega
    · exact Int.lt_add_one_of_le (hjs j hj)
  · have hpast : 1 ≤ k.mySendCounter ∧ ∀ j ∈ js, j < k.mySendCounter := by
      rcases hs with hs | hs
      · rw [hs] at hphase
        exact hphase
      · rw [hs] at hphase
        exact hphase
    rw [advance_waiting uv c textNone hs]
    refine read _ h.toScripted hnum hpast (h.not_connecting ?_) h.reading
    rcases hs with hs | hs
    · rw [hs]
      simp
    · rw [hs]
      simp
  · rw [hs] at hphase
    obtain ⟨hpos, hjs⟩ := hphase
    have hconn := h.not_connecting (by rw [hs]; simp)
    rw [advance_received uv c textNone hs]
    split
    · exact shut h.toScripted hnum hconn h.reading
    · rename_i hmore
      have hbound : (1 + k.myPingToSend).toInt ≤ 1 + k.myPingToSend.toInt := by
        have hle := k.myPingToSend.le_toInt
        rw [toInt_one_add]
        split <;> omega
      refine send _ h.toScripted ⟨by rw [hs]; simp, by rw [hs]; simp⟩
        (hnum.ping (sends_send _ _ _) hjs ⟨hpos, by omega⟩) ⟨by omega, fun _ => hpos, ?_⟩ hconn
        h.reading
      intro j hj
      rcases List.mem_append.mp hj with hj | hj
      · exact le_of_lt (hjs j hj)
      · exact le_of_eq (List.mem_singleton.mp hj)
  · rw [advance_unhandled uv c textNone hs]
    exact same (Idle.log rfl k) rfl rfl rfl (fun hc => ⟨hc, rfl⟩) h

/-- The receive loop, in a state where what it delivers was waited for. -/
theorem readIn {nread : Int} {base : Str} (hread : k.tcp.reading = true)
    (hs : deliveries (k.buffered nread base) ≠ [] → k.myState ≠ .sending) (h : Budget k) :
    Budget (k.readIn (fun _ k => k) nread base) := by
  have htook := took_readIn nread base k
  generalize k.readIn (fun _ k => k) nread base = k' at htook ⊢
  obtain ⟨js, hnum, hphase⟩ := h.numbers
  have hnum' : k'.Numbered js := by
    refine ⟨?_, hnum.increasing, by rw [htook.myPingToSend]; exact hnum.range⟩
    unfold Client.pings Client.pingNo
    rw [htook.sent, htook.myPeerAddr]
    exact hnum.pings
  refine ⟨⟨htook.kind.trans h.kind, ?_, htook.timerActive.trans h.timerActive⟩, ⟨js, hnum', ?_⟩, ?_, ?_⟩
  · unfold Client.Attached
    rw [htook.myUvStream, htook.tcp]
    exact h.attached
  · unfold Client.Phase at hphase ⊢
    rw [htook.myState, htook.mySendCounter, htook.tcp]
    by_cases hnone : deliveries (k.buffered nread base) = []
    · rw [if_pos hnone]
      exact hphase
    · rw [if_neg hnone]
      -- a connection that reads is past its first write, or closed
      have hsending := hs hnone
      cases hstate : k.myState with
      | sending => exact absurd hstate hsending
      | sent | receiving | received =>
        rw [hstate] at hphase
        exact hphase
      | closing | closed =>
        rw [hstate] at hphase
        exact absurd (hread.symm.trans hphase) (by simp)
      | _ =>
        rw [hstate] at hphase
        exact absurd (hread.symm.trans hphase.2) (by simp)
  · rw [htook.tcp]
    intro hc
    have hstate := (h.connecting hc).1
    unfold Client.Phase at hphase
    rw [hstate] at hphase
    exact absurd (hread.symm.trans hphase.2) (by simp)
  · rw [htook.tcp, htook.myUvStream]
    exact h.reading

theorem assertWrite (h : Budget k) : Budget k.assertWrite := by
  unfold Client.assertWrite Client.assert
  split
  · exact h
  · exact same (Idle.log rfl k) rfl rfl rfl (fun hc => ⟨hc, rfl⟩) h

theorem start (host : Str) (port : Int32) (pingToSend : Int32) (res : Int) :
    Budget ((NetClientOut.new host port pingToSend).dial res) := by
  unfold Client.dial
  dsimp only
  split
  · exact ⟨⟨rfl, fun _ => rfl, rfl⟩, ⟨[], ⟨rfl, .nil, by simp⟩, rfl, rfl⟩, (by simp [setUvStream]),
      by simp [setUvStream]⟩
  · exact ⟨⟨rfl, fun _ => rfl, rfl⟩, ⟨[], ⟨rfl, .nil, by simp⟩, rfl, rfl⟩, fun _ => ⟨rfl, rfl⟩,
      by simp [setUvStream]⟩

end Budget

/-! ## The callbacks -/

namespace Budget

variable {uv : Uv} {c : ClientId} {k : Client}

theorem proceed (uv : Uv) (c : ClientId) (h : Budget k) : Budget (k.proceed uv c textNone) := by
  rw [proceed_out uv c textNone h.kind]
  exact h.advance uv c

/-- `close()`, on a connection past its connect callback. -/
theorem close (hconn : k.tcp.connecting = false) (h : Budget k) : Budget k.shut := by
  obtain ⟨js, hnum, -⟩ := h.numbers
  exact shut h.toScripted hnum hconn h.reading

/-- What reads has been connected. -/
theorem state_of_reading (hread : k.tcp.reading = true) (h : Budget k) :
    k.myState ≠ .connecting := by
  intro hs
  obtain ⟨js, -, hphase⟩ := h.numbers
  unfold Client.Phase at hphase
  rw [hs] at hphase
  exact absurd (hread.symm.trans hphase.2) (by simp)

theorem establish (hs : k.myState = .connecting) (hconn : k.tcp.connecting = false)
    (h : Budget k) : Budget (k.establish uv c) := by
  obtain ⟨js, hnum, hphase⟩ := h.numbers
  unfold Client.Phase at hphase
  rw [hs] at hphase
  obtain ⟨rfl, hread⟩ := hphase
  have hany : ∀ canon : Str,
      Budget (({ k with myCanonPeerAddr := canon } : Client).setState .connected) := by
    intro canon
    have hsent : (({ k with myCanonPeerAddr := canon } : Client).setState .connected).sent =
        k.sent := (Idle.setState .connected { k with myCanonPeerAddr := canon }).sent
    refine ⟨⟨h.kind, h.attached, h.timerActive⟩, ⟨[], ⟨?_, .nil, by simp⟩, rfl, hread⟩,
      fun hc => absurd (hconn.symm.trans hc) (by simp), h.reading⟩
    unfold Client.pings
    rw [hsent]
    exact hnum.pings
  unfold Client.establish
  dsimp only
  split
  · exact hany _
  · exact hany k.myCanonPeerAddr

theorem connected (status : Int) (ha : k.tcp.connecting = true) (h : Budget k) :
    Budget (k.moved uv c (.connected status)) := by
  have hdone : Budget { k with tcp := { k.tcp with connecting := false } } :=
    same (Idle.bookkeeping rfl) rfl rfl rfl (fun hc => absurd hc (by simp)) h
  show Budget (k.move uv c textNone (fun _ k => k) (.connected status))
  unfold Client.move
  dsimp only
  split
  · exact hdone
  · exact (establish (k := { k with tcp := { k.tcp with connecting := false } })
      (h.connecting ha).1 rfl hdone).proceed uv c

theorem wrote (status : Int) (ha : 0 < k.tcp.writes) (h : Budget k) :
    Budget (k.moved uv c (.wrote status)) := by
  have hconn : k.tcp.connecting = false := by
    cases hc : k.tcp.connecting with
    | false => rfl
    | true =>
      have hwrites := (h.connecting hc).2
      omega
  have hdone : Budget ({ k with tcp :=
      { k.tcp with writes := k.tcp.writes - 1 } } : Client).assertWrite :=
    assertWrite (same (Idle.bookkeeping rfl) rfl rfl rfl
      (fun hc => absurd (hconn.symm.trans hc) (by simp)) h)
  have hconn' : ({ k with tcp := { k.tcp with writes := k.tcp.writes - 1 } } :
      Client).assertWrite.tcp.connecting = false := by
    unfold Client.assertWrite Client.assert
    split
    · exact hconn
    · exact hconn
  show Budget (k.move uv c textNone (fun _ k => k) (.wrote status))
  unfold Client.move
  dsimp only
  split
  · exact hdone.close hconn'
  · exact hdone.proceed uv c

theorem finish (hclosing : k.tcp.closing = true) (hconn : k.tcp.connecting = false)
    (h : Budget k) : Budget k.finish := by
  obtain ⟨js, hnum, -⟩ := h.numbers
  have hread : k.tcp.reading = false := by
    cases hr : k.tcp.reading with
    | false => rfl
    | true => exact absurd ((h.attached (h.reading hr)).symm.trans hclosing) (by simp)
  have hsent : k.finish.sent = k.sent := by
    simp [Client.sent, Client.finish, Client.log, Client.setState, Act.sentMessage]
  refine ⟨⟨h.kind, h.attached, h.timerActive⟩, ⟨js, ⟨?_, hnum.increasing, hnum.range⟩, hread⟩,
    fun hc => absurd (hconn.symm.trans hc) (by simp), h.reading⟩
  unfold Client.pings
  rw [hsent]
  exact hnum.pings

end Budget

/-! ## Every run -/

/-- A callback does not deliver a message while the completion of a write is still to be
    counted, in state `Sending` — unless the parser ends the process there. -/
def RepliesCounted (k : Client) (cb : Callback) : Prop :=
  cb.throws k = false → cb.delivers k ≠ [] → k.myState ≠ .sending

/-- A read. Where the parser throws nothing has been sent since. -/
theorem Budget.read_callback {uv : Uv} {c : ClientId} {k : Client} {nread : Int}
    {buf : Option Str} (ha : (Callback.read nread buf).allowed k)
    (hp : RepliesCounted k (.read nread buf)) (h : Budget k) :
    (k.moved uv c (.read nread buf)).WithinBudget ∧
      ((Callback.read nread buf).throws k = false → Budget (k.moved uv c (.read nread buf))) := by
  obtain ⟨hread, -, hdata⟩ := ha
  show (k.move uv c textNone (fun _ k => k) (.read nread buf)).WithinBudget ∧ (_ →
    Budget (k.move uv c textNone (fun _ k => k) (.read nread buf)))
  unfold Client.move
  dsimp only
  by_cases hpos : 0 < nread
  · obtain ⟨base, rfl, -⟩ := hdata hpos
    have hdel := Callback.delivers_data (k := k) base hpos
    have hthrows : (Callback.read nread (some base)).throws k =
        cutThrows (k.buffered nread base) := by
      simp [Callback.throws, hpos]
    unfold RepliesCounted at hp
    rw [hdel, hthrows] at hp
    rw [hthrows, if_neg (by omega)]
    dsimp only
    cases hthrow : cutThrows (k.buffered nread base) with
    | true =>
      rw [if_pos rfl]
      refine ⟨?_, fun hno => absurd hno (by simp)⟩
      have htook := took_readIn nread base k
      obtain ⟨js, hpings, hnodup, hlen⟩ := h.withinBudget
      refine ⟨js, ?_, hnodup, ?_⟩
      · unfold Client.pings Client.pingNo
        rw [htook.sent, htook.myPeerAddr]
        exact hpings
      · rw [htook.myPingToSend]
        exact hlen
    | false =>
      rw [if_neg (by simp)]
      have hdone := (h.readIn hread (hp hthrow)).proceed uv c
      exact ⟨hdone.withinBudget, fun _ => hdone⟩
  · rw [if_pos (by omega)]
    have hdone := h.close (h.not_connecting (h.state_of_reading hread))
    exact ⟨hdone.withinBudget, fun _ => hdone⟩

theorem Budget.rule (uv : Uv) (c : ClientId) :
    ClientRule uv c RepliesCounted Budget Client.WithinBudget where
  scripted h := h.toScripted
  weaken h := h.withinBudget
  start := Budget.start
  move {k} {cb} h ha hp := by
    have hboth : Budget (k.moved uv c cb) → (k.moved uv c cb).WithinBudget ∧
        (cb.throws k = false → Budget (k.moved uv c cb)) :=
      fun hb => ⟨hb.withinBudget, fun _ => hb⟩
    cases cb with
    | connected status => exact hboth (h.connected status ha.1)
    | read nread buf => exact h.read_callback ha hp
    | wrote status => exact hboth (h.wrote status ha.1)
    | closed => exact hboth (h.finish ha.1 ha.2.2.2)
    | timer => exact absurd (h.timerActive.symm.trans ha) (by simp)

/-- **The ping budget**, in every run of the client program in which no callback of the
    connection delivers a message while it is in state `Sending`. -/
theorem ping_budget {uv : Uv} (c : ClientId) {es : List ClientEvent}
    (hv : (clientSystem uv).Valid (World.init {}) es)
    (hp : (clientSystem uv).Along (OnClient c RepliesCounted) (World.init {}) es)
    (hc : c < ((clientSystem uv).run (World.init {}) es).next) :
    (((clientSystem uv).run (World.init {}) es).clients c).WithinBudget :=
  ((Budget.rule uv c).run hv hp hc).1

/-- One ping to send, and a peer that answers each write after it has completed. -/
theorem ping_budget_one :
    (((clientSystem Uv.lenient).run (World.init {})
      [.newClient textLocalhost 5000 1, .client 0 (.connected 0), .client 0 (.wrote 0),
        .client 0 (.read 22 (some "HANDSHRESP V01 :1 b:2\n".toList)), .client 0 (.wrote 0),
        .client 0 (.read 11 (some "PINGRESP a\n".toList))]).clients 0).WithinBudget := by
  refine ping_budget 0 (by decide) ?_ (by decide)
  -- the two reads come in state `Receiving`
  exact ⟨trivial, fun _ _ h => absurd rfl h, fun _ _ h => absurd rfl h, fun _ _ _ => by decide,
    fun _ _ h => absurd rfl h, fun _ _ _ => by decide, trivial⟩

/-- The peer sends a second line before the write of the first ping has completed: ping number
    one goes out twice. -/
theorem ping_sent_twice :
    (clientSystem Uv.lenient).Valid (World.init {})
      [.newClient textLocalhost 5000 1, .client 0 (.connected 0), .client 0 (.wrote 0),
        .client 0 (.read 22 (some "HANDSHRESP V01 :1 b:2\n".toList)),
        .client 0 (.read 11 (some "PINGRESP a\n".toList))] ∧
    ¬ (((clientSystem Uv.lenient).run (World.init {})
      [.newClient textLocalhost 5000 1, .client 0 (.connected 0), .client 0 (.wrote 0),
        .client 0 (.read 22 (some "HANDSHRESP V01 :1 b:2\n".toList)),
        .client 0 (.read 11 (some "PINGRESP a\n".toList))]).clients 0).WithinBudget := by
  refine ⟨by decide, ?_⟩
  rintro ⟨js, hpings, -, hlen⟩
  have htwo := congrArg List.length hpings
  rw [List.length_map] at htwo
  -- two pings, where one was to be sent
  have hsent : (((clientSystem Uv.lenient).run (World.init {})
      [.newClient textLocalhost 5000 1, .client 0 (.connected 0), .client 0 (.wrote 0),
        .client 0 (.read 22 (some "HANDSHRESP V01 :1 b:2\n".toList)),
        .client 0 (.read 11 (some "PINGRESP a\n".toList))]).clients 0).pings.length = 2 := by
    decide
  rw [hsent] at htwo
  rw [← htwo] at hlen
  exact absurd hlen (by decide)

end TcpUv
