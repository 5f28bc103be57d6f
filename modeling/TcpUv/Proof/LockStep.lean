import TcpUv.Proof.ClientRules
import TcpUv.Proof.PingBudget

/-!
# A connection against a peer that answers every message

A connection of the client program, and the peer at its other end: once a write has
completed, the peer puts one line on the wire for it, and the bytes it owes arrive in
pieces of any size. Other connections of the program may do anything in between.

A connection is always in one of four phases: before its connect callback, waiting for a
write to complete, reading the answer, done. `Client.InPhase` says what each looks like
when `i` answers are complete; a step of the system moves it to the next phase, or leaves
it where it is.
-/

set_option autoImplicit false

namespace TcpUv

open Lib

/-! ## The system -/

/-- The client program, and what the peer of one of its connections owes it. -/
structure LockStep where
  world : World ClientApp
  /-- the bytes of the peer's answers still to arrive -/
  owed : Str
  /-- the number of answers that have arrived whole -/
  answered : Nat

/-- Before anything happened. -/
def LockStep.init : LockStep := ⟨World.init {}, [], 0⟩

inductive LockStepEvent where
  /-- anything that is not about the connection itself -/
  | elsewhere (e : ClientEvent)
  /-- the connect succeeded -/
  | connected
  /-- a write completed, and the peer answers its message -/
  | wrote (answer : Str)
  | read (chunk : Str)
  | closed

/-- The client program's part in an event. -/
def LockStepEvent.event (c : ClientId) : LockStepEvent → ClientEvent
  | .elsewhere e => e
  | .connected => .client c (.connected 0)
  | .wrote _ => .client c (.wrote 0)
  | .read chunk => .client c (.read chunk.length (some chunk))
  | .closed => .client c .closed

def lockStep (uv : Uv) (c : ClientId) (s : LockStep) (e : LockStepEvent) : LockStep :=
  { world := clientStep uv s.world (e.event c)
    owed := match e with
      | .wrote answer => s.owed ++ (answer ++ ['\n'])
      | .read chunk => s.owed.drop chunk.length
      | _ => s.owed
    answered := match e with
      | .read chunk => s.answered + chunk.count '\n'
      | _ => s.answered }

/-- An answer is a line the client can parse. -/
def IsAnswer (line : Str) : Prop := '\n' ∉ line ∧ ∃ m, parseLine line = .ok (some m)

/-- The connection and its environment. -/
def lockStepSystem (uv : Uv) (c : ClientId) : Lib.System LockStep LockStepEvent where
  step := lockStep uv c
  allowed s e := (clientSystem uv).allowed s.world (e.event c) ∧
    match e with
    | .elsewhere e => ∀ cb, e ≠ .client c cb
    | .wrote answer => IsAnswer answer
    | .read chunk => chunk ≠ [] ∧ chunk <+: s.owed
    | _ => True

/-! ## What is to be shown -/

/-- What the connection has sent when `i` answers are complete. -/
def Client.script (k : Client) (i : Nat) : List Message :=
  .handshake textV01 k.myPeerAddr textNone ::
    (List.range (min i k.myPingToSend.toInt.toNat)).map fun j : Nat => k.pingNo (j + 1)

/-- Before the connect callback, nothing. From then on the handshake and one ping an answer
    have been sent, up to the number given (a negative number is none), and `close()` has been
    called once if all of them are answered; until then there is always something under way. -/
structure OnScript (k : Client) (owed : Str) (i : Nat) : Prop where
  sent : if k.myState = .connecting then k.sent = [] ∧ i = 0 else k.sent = k.script i
  answered : i ≤ k.myPingToSend.toInt.toNat + 1
  closes : k.acts.count .closeCall = if i = k.myPingToSend.toInt.toNat + 1 then 1 else 0
  waits : k.myState ≠ .connecting → i ≤ k.myPingToSend.toInt.toNat →
    0 < k.tcp.writes ∨ owed ≠ [] ∧ k.tcp.reading = true

/-! ## The phases -/

namespace Client

/-- What holds in every phase. -/
structure OnDuty (k : Client) : Prop extends k.Scripted where
  connected : k.tcp.connecting = true → k.myState = .connecting
  given : 1 + k.myPingToSend.toInt < 2 ^ 31

/-- The phases, with the number of answers that are complete. -/
inductive InPhase (k : Client) : Str → Nat → Prop where
  | fresh (state : k.myState = .connecting) (sent : k.sent = [])
      (closes : .closeCall ∉ k.acts) (stream : k.myUvStream.isSome = true)
      (buffer : k.myReceiveBuffer = []) (reading : k.tcp.reading = false)
      (writes : k.tcp.writes = 0) : k.InPhase [] 0
  | waiting {i : Nat} (state : k.myState = .sending) (counter : k.mySendCounter = i)
      (range : i ≤ k.myPingToSend.toInt.toNat) (sent : k.sent = k.script i)
      (closes : .closeCall ∉ k.acts) (stream : k.myUvStream.isSome = true)
      (buffer : k.myReceiveBuffer = []) (writes : k.tcp.writes = 1) : k.InPhase [] i
  | reading {i : Nat} {owed line : Str} (state : k.myState = .receiving)
      (counter : k.mySendCounter = i + 1)
      (range : i ≤ k.myPingToSend.toInt.toNat) (sent : k.sent = k.script i)
      (closes : .closeCall ∉ k.acts) (stream : k.myUvStream.isSome = true)
      (reading : k.tcp.reading = true) (writes : k.tcp.writes = 0)
      (rest : k.myReceiveBuffer ++ owed = line ++ ['\n']) (owing : owed ≠ [])
      (answer : IsAnswer line) (short : line.length + 1 < 2 ^ 31) : k.InPhase owed i
  | done {i : Nat} (state : k.myState = .closing ∨ k.myState = .closed)
      (all : i = k.myPingToSend.toInt.toNat + 1) (sent : k.sent = k.script i)
      (closes : k.acts.count .closeCall = 1) (reading : k.tcp.reading = false)
      (writes : k.tcp.writes = 0) : k.InPhase [] i

theorem InPhase.onScript {k : Client} {owed : Str} {i : Nat} (h : k.InPhase owed i) :
    OnScript k owed i := by
  cases h with
  | fresh hs hsent hcloses =>
    refine ⟨?_, by omega, ?_, fun hne => absurd hs hne⟩
    · rw [if_pos hs]
      exact ⟨hsent, rfl⟩
    · rw [List.count_eq_zero.mpr hcloses, if_neg (by omega)]
  | waiting hs _ hrange hsent hcloses _ _ hwrites =>
    refine ⟨?_, by omega, ?_, fun _ _ => Or.inl (by omega)⟩
    · rw [if_neg (by rw [hs]; simp)]
      exact hsent
    · rw [List.count_eq_zero.mpr hcloses, if_neg (by omega)]
  | reading hs _ hrange hsent hcloses _ hreading _ _ howing =>
    refine ⟨?_, by omega, ?_, fun _ _ => Or.inr ⟨howing, hreading⟩⟩
    · rw [if_neg (by rw [hs]; simp)]
      exact hsent
    · rw [List.count_eq_zero.mpr hcloses, if_neg (by omega)]
  | done hs hall hsent hcloses =>
    refine ⟨?_, by omega, ?_, fun _ hle => by omega⟩
    · rw [if_neg (by rcases hs with hs | hs <;> rw [hs] <;> simp)]
      exact hsent
    · rw [hcloses, if_pos hall]

/-! ## The script -/

variable {k : Client}

theorem OnDuty.idle {k' : Client} (hi : k.Idle k')
    (hconn : k'.tcp.connecting = true → k'.myState = .connecting) (h : k.OnDuty) : k'.OnDuty where
  kind := hi.kind.trans h.kind
  attached := hi.attached h.attached
  timerActive := hi.timerActive.trans h.timerActive
  connected := hconn
  given := by rw [hi.myPingToSend]; exact h.given

theorem script_congr {k' : Client} (haddr : k'.myPeerAddr = k.myPeerAddr)
    (hgiven : k'.myPingToSend = k.myPingToSend) (i : Nat) : k'.script i = k.script i := by
  unfold script pingNo
  rw [haddr, hgiven]

/-- The next ping. -/
theorem script_succ {i : Nat} (h : i < k.myPingToSend.toInt.toNat) :
    k.script (i + 1) = k.script i ++ [k.pingNo (i + 1)] := by
  unfold script
  rw [Nat.min_eq_left (by omega), Nat.min_eq_left (by omega), List.range_succ, List.map_append]
  rfl

/-- After the last one nothing is added. -/
theorem script_last {i : Nat} (h : i = k.myPingToSend.toInt.toNat) :
    k.script (i + 1) = k.script i := by
  unfold script
  rw [Nat.min_eq_right (by omega), Nat.min_eq_right (by omega)]

/-! ## The callbacks -/

variable {uv : Uv} {c : ClientId} {owed : Str} {i : Nat}

theorem fresh_start (host : Str) (port : Int32) {pingToSend : Int32}
    (hgiven : 1 + pingToSend.toInt < 2 ^ 31) (res : Int) :
    ((NetClientOut.new host port pingToSend).dial res).OnDuty ∧
      ((NetClientOut.new host port pingToSend).dial res).InPhase [] 0 := by
  unfold dial
  dsimp only
  split
  · exact ⟨⟨⟨rfl, fun _ => rfl, rfl⟩, by simp [setUvStream], hgiven⟩,
      .fresh rfl rfl (by simp [NetClientOut.new, log, setState, setUvStream]) rfl rfl rfl rfl⟩
  · exact ⟨⟨⟨rfl, fun _ => rfl, rfl⟩, fun _ => rfl, hgiven⟩,
      .fresh rfl rfl (by simp [NetClientOut.new, log, setState, setUvStream]) rfl rfl rfl rfl⟩

/-- The next message of the script is sent. -/
theorem InPhase.send {m : Message} (hd : k.OnDuty) (hconn : k.tcp.connecting = false)
    (hopen : k.IsOpen) (hcounter : k.mySendCounter = i) (hrange : i ≤ k.myPingToSend.toInt.toNat)
    (hsent : k.sent ++ [m] = k.script i) (hcloses : .closeCall ∉ k.acts)
    (hstream : k.myUvStream.isSome = true) (hbuffer : k.myReceiveBuffer = [])
    (hwrites : k.tcp.writes = 0) : (k.send m 0).OnDuty ∧ (k.send m 0).InPhase [] i := by
  obtain ⟨hstate', hstream', htcp, hcall⟩ := send_agreed m hopen hstream
  have hs := sends_send m 0 k
  refine ⟨⟨⟨hs.kind.trans hd.kind, hs.attached hd.attached, hs.timerActive.trans hd.timerActive⟩,
      ?_, by rw [hs.myPingToSend]; exact hd.given⟩,
    .waiting hstate' (hs.mySendCounter.trans hcounter) ?_ (hs.sent.trans ?_) ?_ ?_ ?_ ?_⟩
  · rw [htcp]
    intro hc
    exact absurd (hconn.symm.trans hc) (by simp)
  · rw [hs.myPingToSend]
    exact hrange
  · rw [hsent, script_congr hs.myPeerAddr hs.myPingToSend]
  · rw [hcall]
    exact hcloses
  · rw [hstream']
    exact hstream
  · rw [hs.myReceiveBuffer]
    exact hbuffer
  · rw [htcp, hwrites]

/-- The connect callback: the handshake goes out. -/
theorem InPhase.connected (hw : ∀ k, uv.write c k = 0) (hd : k.OnDuty)
    (ha : k.tcp.connecting = true) (h : k.InPhase owed i) :
    (k.moved uv c (.connected 0)).OnDuty ∧ (k.moved uv c (.connected 0)).InPhase owed i := by
  have hstate := hd.connected ha
  cases h with
  | waiting hs => rw [hstate] at hs; cases hs
  | reading hs => rw [hstate] at hs; cases hs
  | done hs => rw [hstate] at hs; rcases hs with hs | hs <;> cases hs
  | fresh _ hsent hcloses hstream hbuffer _ hwrites =>
    obtain ⟨canon, hest⟩ := establish_eq uv c { k with tcp := { k.tcp with connecting := false } }
    have hmoved : k.moved uv c (.connected 0) = Client.send
        (.handshake textV01 k.myPeerAddr textNone) 0
        { ({ { k with tcp := { k.tcp with connecting := false } } with
            myCanonPeerAddr := canon } : Client).setState .connected with mySendCounter := 0 } := by
      show k.move uv c textNone (fun _ k => k) (.connected 0) = _
      unfold move
      dsimp only
      rw [if_neg (by rw [hd.kind]; simp), hest, proceed_out uv c textNone (by exact hd.kind),
        advance_connected uv c textNone rfl]
      exact congrArg (fun res => Client.send _ res _) (hw _)
    rw [hmoved]
    refine InPhase.send ⟨⟨hd.kind, hd.attached, hd.timerActive⟩, fun hc => ?_, hd.given⟩ rfl
      ⟨?_, ?_⟩ rfl (Nat.zero_le _) ?_ ?_ hstream hbuffer hwrites
    · cases hc
    · simp [setState]
    · simp [setState]
    · have hnothing : (k.setState .connected).sent = [] :=
        (Idle.setState .connected k).sent.trans hsent
      refine (congrArg (· ++ _) hnothing).trans ?_
      rw [script, Nat.zero_min]
      rfl
    · simpa [setState] using hcloses

/-- A write completion: reading starts, and the peer answers. -/
theorem InPhase.wrote (hr : ∀ k, uv.readStart c k = 0) (hd : k.OnDuty) (ha : 0 < k.tcp.writes)
    {line : Str} (hline : IsAnswer line) (hshort : line.length + 1 < 2 ^ 31)
    (h : k.InPhase owed i) : (k.moved uv c (.wrote 0)).OnDuty ∧
      (k.moved uv c (.wrote 0)).InPhase (owed ++ (line ++ ['\n'])) i := by
  cases h with
  | fresh _ _ _ _ _ _ hwrites => omega
  | reading _ _ _ _ _ _ _ hwrites => omega
  | done _ _ _ _ _ hwrites => omega
  | waiting hs hcounter hrange hsent hcloses hstream hbuffer hwrites =>
    have hmoved : k.moved uv c (.wrote 0) = Client.read 0
        { k with tcp := { k.tcp with writes := k.tcp.writes - 1 },
                 mySendCounter := k.mySendCounter + 1 } := by
      have hassert : ({ k with tcp := { k.tcp with writes := k.tcp.writes - 1 } } : Client).assertWrite =
          { k with tcp := { k.tcp with writes := k.tcp.writes - 1 } } := by
        simp [assertWrite, assert, hs]
      show k.move uv c textNone (fun _ k => k) (.wrote 0) = _
      unfold move
      dsimp only
      rw [hassert, if_neg (by simp), proceed_out uv c textNone (by exact hd.kind),
        advance_sending uv c textNone (by exact hs)]
      exact congrArg (fun res => Client.read res _) (hr _)
    rw [hmoved]
    obtain ⟨hstate', hstream', htcp, hcall⟩ := read_agreed
      (k := { k with tcp := { k.tcp with writes := k.tcp.writes - 1 },
                     mySendCounter := k.mySendCounter + 1 }) (Or.inl hs) hstream
    have hi := Idle.read 0 { k with tcp := { k.tcp with writes := k.tcp.writes - 1 },
                                    mySendCounter := k.mySendCounter + 1 }
    have hduty : ({ k with tcp := { k.tcp with writes := k.tcp.writes - 1 },
                           mySendCounter := k.mySendCounter + 1 } : Client).OnDuty :=
      ⟨⟨hd.kind, hd.attached, hd.timerActive⟩, hd.connected, hd.given⟩
    refine ⟨hduty.idle hi ?_, .reading hstate' (hi.mySendCounter.trans ?_) ?_ (hi.sent.trans ?_) ?_
      ?_ ?_ ?_ ?_ (by simp) hline hshort⟩
    · rw [htcp]
      intro hc
      exact absurd ((hd.connected hc).symm.trans hs) (by simp)
    · show k.mySendCounter + 1 = i + 1
      rw [hcounter]
    · rw [hi.myPingToSend]
      exact hrange
    · exact hsent.trans (script_congr hi.myPeerAddr hi.myPingToSend i).symm
    · rw [hcall]
      exact hcloses
    · rw [hstream']
      exact hstream
    · rw [htcp]
    · rw [htcp]
      show k.tcp.writes - 1 = 0
      rw [hwrites]
    · rw [hi.myReceiveBuffer, List.nil_append]
      show k.myReceiveBuffer ++ _ = _
      rw [hbuffer, List.nil_append]

/-- A read that does not complete a line: the bytes are kept, and reading goes on. -/
theorem moved_piece (hr : ∀ k, uv.readStart c k = 0) (hkind : k.kind = .netClientOut)
    (hs : k.myState = .receiving) {chunk : Str} (hne : chunk ≠ [])
    (hcut : cutLine (k.myReceiveBuffer ++ chunk) = .ok none) :
    k.moved uv c (.read chunk.length (some chunk)) =
      (k.setReceiveBuffer (k.myReceiveBuffer ++ chunk)).read 0 := by
  have hpos : ¬ (chunk.length : Int) ≤ 0 := by
    have hlen := List.length_pos_iff.mpr hne
    omega
  have hbuffered : k.buffered chunk.length chunk = k.myReceiveBuffer ++ chunk := by
    rw [buffered, Int.toNat_natCast, List.take_length]
  have hcuts := cuts_of_cutLine hcut (k.myReceiveBuffer ++ chunk).length
  have hread : k.readIn (fun _ k => k) chunk.length chunk =
      k.setReceiveBuffer (k.myReceiveBuffer ++ chunk) := by
    rw [readIn, hbuffered, hcuts]
    rfl
  show k.move uv c textNone (fun _ k => k) (.read chunk.length (some chunk)) = _
  unfold move
  dsimp only
  rw [if_neg hpos, hbuffered, cutThrows, hcuts, if_neg (by simp), hread,
    proceed_out uv c textNone (by exact hkind),
    advance_waiting uv c textNone (k := k.setReceiveBuffer (k.myReceiveBuffer ++ chunk))
      (Or.inr hs)]
  exact congrArg (fun res => Client.read res _) (hr _)

/-- A read that completes one. -/
theorem moved_complete (hkind : k.kind = .netClientOut) {chunk line : Str} {m : Message}
    (hne : chunk ≠ []) (hbuf : k.myReceiveBuffer ++ chunk = line ++ ['\n']) (hline : '\n' ∉ line)
    (hshort : line.length + 1 < 2 ^ 31) (hparse : parseLine line = .ok (some m)) :
    k.moved uv c (.read chunk.length (some chunk)) =
      ((k.setReceiveBuffer []).handOver m).advance uv c textNone := by
  have hpos : ¬ (chunk.length : Int) ≤ 0 := by
    have hlen := List.length_pos_iff.mpr hne
    omega
  have hbuffered : k.buffered chunk.length chunk = line ++ ['\n'] := by
    rw [buffered, Int.toNat_natCast, List.take_length, hbuf]
  have hcuts := cuts_line hline hshort hparse
  have hread : k.readIn (fun _ k => k) chunk.length chunk =
      (k.setReceiveBuffer []).handOver m := by
    rw [readIn, hbuffered, hcuts]
    rfl
  show k.move uv c textNone (fun _ k => k) (.read chunk.length (some chunk)) = _
  unfold move
  dsimp only
  rw [if_neg hpos, hbuffered, cutThrows, hcuts, if_neg (by simp), hread,
    proceed_out uv c textNone (by exact hkind)]

/-- An answer is complete: the next ping goes out, or the connection is closed. -/
theorem InPhase.answered (hw : ∀ k, uv.write c k = 0) {m : Message}
    (hd : k.OnDuty) (hcounter : k.mySendCounter = i + 1) (hrange : i ≤ k.myPingToSend.toInt.toNat)
    (hsent : k.sent = k.script i) (hcloses : .closeCall ∉ k.acts)
    (hstream : k.myUvStream.isSome = true) (hwrites : k.tcp.writes = 0)
    (hconn : k.tcp.connecting = false) :
    (((k.setReceiveBuffer []).handOver m).advance uv c textNone).OnDuty ∧
      (((k.setReceiveBuffer []).handOver m).advance uv c textNone).InPhase [] (i + 1) := by
  have hduty : ((k.setReceiveBuffer []).handOver m).OnDuty :=
    ⟨⟨hd.kind, hd.attached, hd.timerActive⟩, fun hc => absurd (hconn.symm.trans hc) (by simp),
      hd.given⟩
  have hsent' : ((k.setReceiveBuffer []).handOver m).sent = k.script i := by
    rw [← hsent]
    simp [Client.sent, handOver, log, setState, setReceiveBuffer, Act.sentMessage]
  have hcloses' : .closeCall ∉ ((k.setReceiveBuffer []).handOver m).acts := by
    simpa [handOver, log, setState, setReceiveBuffer] using hcloses
  rw [advance_received uv c textNone (k := (k.setReceiveBuffer []).handOver m) rfl]
  change (if (1 + k.myPingToSend).toInt ≤ k.mySendCounter then _ else if 1 ≤ k.mySendCounter then _
    else _ : Client).OnDuty ∧ (if (1 + k.myPingToSend).toInt ≤ k.mySendCounter then _
      else if 1 ≤ k.mySendCounter then _ else _ : Client).InPhase [] (i + 1)
  have hsum : (1 + k.myPingToSend).toInt = 1 + k.myPingToSend.toInt := by
    have hgiven := hd.given
    rw [toInt_one_add, if_neg (by omega)]
  rw [hsum]
  by_cases hlast : i = k.myPingToSend.toInt.toNat
  · rw [if_pos (by omega)]
    obtain ⟨hclose, hreading, hwr, hcn⟩ := shut_held (k := (k.setReceiveBuffer []).handOver m)
      hstream hcloses'
    have hi := Idle.shut ((k.setReceiveBuffer []).handOver m)
    refine ⟨hduty.idle hi ?_, .done (Or.inl (myState_shut _)) ?_ (hi.sent.trans ?_) hclose hreading ?_⟩
    · rw [hcn]
      intro hc
      exact absurd (hconn.symm.trans hc) (by simp)
    · rw [hi.myPingToSend]
      exact congrArg (· + 1) hlast
    · rw [hsent', script_congr hi.myPeerAddr hi.myPingToSend]
      exact (script_last hlast).symm
    · rw [hwr]
      exact hwrites
  · rw [if_neg (by omega), if_pos (by omega)]
    have hnow : ∀ m' : Message, ((k.setReceiveBuffer []).handOver m).sendNow uv c m' =
        ((k.setReceiveBuffer []).handOver m).send m' 0 := fun m' =>
      congrArg (fun res => Client.send m' res _) (hw _)
    rw [hnow]
    refine InPhase.send hduty hconn ⟨?_, ?_⟩ ?_ ?_ ?_ hcloses' hstream rfl hwrites
    · simp [handOver, log, setState]
    · simp [handOver, log, setState]
    · show k.mySendCounter = ((i + 1 : Nat) : Int)
      rw [hcounter]
      rfl
    · show i + 1 ≤ k.myPingToSend.toInt.toNat
      omega
    · rw [hsent']
      refine Eq.trans ?_ (script_succ (k := k) (by omega)).symm
      rw [pingNo, ← hcounter]
      rfl

/-- A read. -/
theorem InPhase.read (hw : ∀ k, uv.write c k = 0) (hr : ∀ k, uv.readStart c k = 0)
    {chunk : Str} (hne : chunk ≠ []) (hchunk : chunk <+: owed) (hd : k.OnDuty)
    (h : k.InPhase owed i) : (k.moved uv c (.read chunk.length (some chunk))).OnDuty ∧
      (k.moved uv c (.read chunk.length (some chunk))).InPhase (owed.drop chunk.length)
        (i + chunk.count '\n') := by
  have hnothing : owed ≠ [] := fun he => hne (List.prefix_nil.mp (he ▸ hchunk))
  cases h with
  | fresh => exact absurd rfl hnothing
  | waiting => exact absurd rfl hnothing
  | done => exact absurd rfl hnothing
  | @reading _ _ line hs hcounter hrange hsent hcloses hstream hreading hwrites hrest _ hanswer hshort =>
    have hconn : k.tcp.connecting = false := by
      cases hc : k.tcp.connecting with
      | false => rfl
      | true => exact absurd ((hd.connected hc).symm.trans hs) (by simp)
    obtain ⟨rest, rfl⟩ := hchunk
    rw [List.drop_left]
    rw [← List.append_assoc] at hrest
    obtain ⟨hline, m, hparse⟩ := hanswer
    have hcount : (line ++ ['\n']).count '\n' = 1 := by
      rw [List.count_append, List.count_eq_zero.mpr hline]
      rfl
    by_cases hlast : rest = []
    · -- the terminator is in
      subst hlast
      rw [List.append_nil] at hrest
      have hbefore : k.myReceiveBuffer.count '\n' = 0 := by
        apply List.count_eq_zero.mpr
        intro hm
        have hpre : k.myReceiveBuffer <+: line := by
          apply List.prefix_of_prefix_length_le ⟨chunk, hrest⟩ (List.prefix_append line ['\n'])
          have hlen := congrArg List.length hrest
          have hpos := List.length_pos_iff.mpr hne
          simp only [List.length_append, List.length_singleton] at hlen
          omega
        exact hline (hpre.subset hm)
      have hone : chunk.count '\n' = 1 := by
        rw [← hrest, List.count_append, hbefore] at hcount
        omega
      rw [hone, moved_complete hd.kind hne hrest hline hshort hparse]
      exact InPhase.answered hw hd hcounter hrange hsent hcloses hstream hwrites hconn
    · have hpre : k.myReceiveBuffer ++ chunk <+: line := by
        apply List.prefix_of_prefix_length_le ⟨rest, hrest⟩ (List.prefix_append line ['\n'])
        have hlen := congrArg List.length hrest
        have hpos := List.length_pos_iff.mpr hlast
        simp only [List.length_append, List.length_singleton] at hlen ⊢
        omega
      have hnone : '\n' ∉ k.myReceiveBuffer ++ chunk := fun hm => hline (hpre.subset hm)
      have hzero : chunk.count '\n' = 0 :=
        List.count_eq_zero.mpr fun hm => hnone (List.mem_append_right _ hm)
      rw [hzero, Nat.add_zero, moved_piece hr hd.kind hs hne (cutLine_residue hnone)]
      obtain ⟨hstate', hstream', htcp, hcall⟩ := read_agreed
        (k := k.setReceiveBuffer (k.myReceiveBuffer ++ chunk)) (Or.inr (Or.inr (Or.inl hs))) hstream
      have hi := Idle.read 0 (k.setReceiveBuffer (k.myReceiveBuffer ++ chunk))
      have hduty : (k.setReceiveBuffer (k.myReceiveBuffer ++ chunk)).OnDuty :=
        ⟨⟨hd.kind, hd.attached, hd.timerActive⟩, hd.connected, hd.given⟩
      refine ⟨hduty.idle hi ?_, .reading hstate' (hi.mySendCounter.trans hcounter) ?_
        (hi.sent.trans ?_) ?_ ?_ ?_ ?_ ?_ hlast ⟨hline, m, hparse⟩ hshort⟩
      · rw [htcp]
        intro hc
        exact absurd (hconn.symm.trans hc) (by simp)
      · rw [hi.myPingToSend]
        exact hrange
      · exact hsent.trans (script_congr hi.myPeerAddr hi.myPingToSend i).symm
      · rw [hcall]
        exact hcloses
      · rw [hstream']
        exact hstream
      · rw [htcp]
      · rw [htcp]
        exact hwrites
      · rw [hi.myReceiveBuffer]
        exact hrest

/-- The close callback. -/
theorem InPhase.finish (hd : k.OnDuty) (hclosing : k.tcp.closing = true) (h : k.InPhase owed i) :
    (k.moved uv c .closed).OnDuty ∧ (k.moved uv c .closed).InPhase owed i := by
  have hheld : k.myUvStream.isSome = true → False := fun hs =>
    absurd ((hd.attached hs).symm.trans hclosing) (by simp)
  have hsent' : k.finish.sent = k.sent := by
    simp [Client.sent, Client.finish, Client.log, Client.setState, Act.sentMessage]
  cases h with
  | fresh _ _ _ hstream => exact (hheld hstream).elim
  | waiting _ _ _ _ _ hstream => exact (hheld hstream).elim
  | reading _ _ _ _ _ hstream => exact (hheld hstream).elim
  | done hs hall hsent hcloses hreading hwrites =>
    refine ⟨⟨⟨hd.kind, hd.attached, hd.timerActive⟩, fun hc => ?_, hd.given⟩,
      .done (Or.inr rfl) hall (hsent'.trans hsent) ?_ hreading hwrites⟩
    · rcases hs with hs | hs <;> exact absurd ((hd.connected hc).symm.trans hs) (by simp)
    · show k.finish.acts.count .closeCall = 1
      rw [← hcloses]
      simp [Client.finish, Client.log, Client.setState]

end Client

/-! ## Every run -/

/-- Two sums stay in the range of an `int`: the length of an answer and its terminator, and the
    pings to send and one. -/
def Fits (c : ClientId) (s : LockStep) : LockStepEvent → Prop
  | .wrote answer => answer.length + 1 < 2 ^ 31
  | .elsewhere (.newClient _ _ pingToSend) =>
      s.world.next = c → 1 + pingToSend.toInt < 2 ^ 31
  | _ => True

namespace LockStep

variable {uv : Uv} {c : ClientId}

/-- **The invariant**: the connection, once it exists, is in its phase. -/
structure InPhase (c : ClientId) (s : LockStep) : Prop where
  before : s.world.next ≤ c → s.owed = [] ∧ s.answered = 0
  phase : c < s.world.next → (s.world.clients c).OnDuty ∧
    (s.world.clients c).InPhase s.owed s.answered

/-- An event of the connection itself. -/
theorem InPhase.own {cb : Callback} {s : LockStep} {owed : Str} {i : Nat}
    (ha : (clientSystem uv).allowed s.world (.client c cb)) (h : s.InPhase c)
    (hmove : (s.world.clients c).OnDuty → cb.allowed (s.world.clients c) →
      (s.world.clients c).InPhase s.owed s.answered →
      ((s.world.clients c).moved uv c cb).OnDuty ∧
        ((s.world.clients c).moved uv c cb).InPhase owed i) :
    (LockStep.mk (clientStep uv s.world (.client c cb)) owed i).InPhase c := by
  obtain ⟨-, hc, hcb⟩ := ha
  obtain ⟨hd, hphase⟩ := h.phase hc
  obtain ⟨hclient, hnext, -⟩ := clientStep_spec uv hd.toScripted hcb
  refine ⟨fun hle => ?_, fun _ => ?_⟩
  · change (clientStep uv s.world (.client c cb)).next ≤ c at hle
    rw [hnext] at hle
    exact absurd hc (Nat.not_lt.mpr hle)
  · show ((clientStep uv s.world (.client c cb)).clients c).OnDuty ∧
      ((clientStep uv s.world (.client c cb)).clients c).InPhase owed i
    rw [hclient]
    exact hmove hd hcb hphase

theorem InPhase.elsewhere {e : ClientEvent} {s : LockStep} (he : ∀ cb, e ≠ .client c cb)
    (hgiven : ∀ host port pingToSend, e = .newClient host port pingToSend → s.world.next = c →
      1 + pingToSend.toInt < 2 ^ 31) (h : s.InPhase c) :
    (LockStep.mk (clientStep uv s.world e) s.owed s.answered).InPhase c := by
  cases e with
  | newClient host port pingToSend =>
    obtain ⟨⟨res, hnew⟩, hold, hnext⟩ := newClient_spec uv host port pingToSend s.world
    refine ⟨fun hle => h.before ?_, fun hc => ?_⟩
    · change (ClientApp.newClient uv host port pingToSend s.world).next ≤ c at hle
      rw [hnext] at hle
      exact Nat.le_of_succ_le hle
    · change c < (ClientApp.newClient uv host port pingToSend s.world).next at hc
      rw [hnext] at hc
      show ((ClientApp.newClient uv host port pingToSend s.world).clients c).OnDuty ∧
        ((ClientApp.newClient uv host port pingToSend s.world).clients c).InPhase _ _
      by_cases hself : c = s.world.next
      · obtain ⟨howed, hzero⟩ := h.before (Nat.le_of_eq hself.symm)
        rw [howed, hzero, hself, hnew]
        exact Client.fresh_start host port (hgiven host port pingToSend rfl hself.symm) res
      · rw [hold c hself]
        exact h.phase (Nat.lt_of_le_of_ne (Nat.lt_succ_iff.mp hc) hself)
  | client d cb =>
    have hcd : c ≠ d := fun heq => he cb (by rw [heq])
    obtain ⟨hclient, hnext⟩ := clientStep_elsewhere uv hcd cb (w := s.world)
    refine ⟨fun hle => h.before ?_, fun hc => ?_⟩
    · rw [← hnext]
      exact hle
    · show ((clientStep uv s.world (.client d cb)).clients c).OnDuty ∧
        ((clientStep uv s.world (.client d cb)).clients c).InPhase _ _
      rw [hclient]
      exact h.phase (hnext ▸ hc)

theorem InPhase.step (hw : ∀ k, uv.write c k = 0) (hr : ∀ k, uv.readStart c k = 0)
    (s : LockStep) (e : LockStepEvent) (h : s.InPhase c) (ha : (lockStepSystem uv c).allowed s e)
    (hp : Fits c s e) : ((lockStepSystem uv c).step s e).InPhase c := by
  obtain ⟨ha, hmore⟩ := ha
  cases e with
  | elsewhere e =>
    refine h.elsewhere hmore fun host port pingToSend he hself => ?_
    subst he
    exact hp hself
  | connected => exact h.own ha fun hd hcb hi => hi.connected hw hd hcb.1
  | wrote answer => exact h.own ha fun hd hcb hi => hi.wrote hr hd hcb.1 hmore hp
  | read chunk => exact h.own ha fun hd _ hi => hi.read hw hr hmore.1 hmore.2 hd
  | closed => exact h.own ha fun hd hcb hi => hi.finish hd hcb.1

end LockStep

/-- **The script of a connection**, in every run in which the number of its pings leaves room for
    one more, and each of its messages gets an answer that fits. -/
theorem lock_step_script {uv : Uv} {c : ClientId} (hw : ∀ k, uv.write c k = 0)
    (hr : ∀ k, uv.readStart c k = 0) {es : List LockStepEvent}
    (hv : (lockStepSystem uv c).Valid LockStep.init es)
    (hp : (lockStepSystem uv c).Along (Fits c) LockStep.init es)
    (hc : c < ((lockStepSystem uv c).run LockStep.init es).world.next) :
    OnScript (((lockStepSystem uv c).run LockStep.init es).world.clients c)
      ((lockStepSystem uv c).run LockStep.init es).owed
      ((lockStepSystem uv c).run LockStep.init es).answered :=
  have hinit : LockStep.init.InPhase c :=
    ⟨fun _ => ⟨rfl, rfl⟩, fun hc => absurd hc (Nat.not_lt_zero c)⟩
  ((System.run_invariant_along (LockStep.InPhase.step hw hr) hinit hv hp).phase hc).2.onScript

/-- One ping to send; the first answer arrives in two pieces. -/
theorem lock_step_script_one :
    OnScript
      (((lockStepSystem Uv.lenient 0).run LockStep.init
        [.elsewhere (.newClient textLocalhost 5000 1), .connected, .wrote "PING a".toList,
          .read "PIN".toList, .read "G a\n".toList, .wrote "PING b".toList,
          .read "PING b\n".toList]).world.clients 0) [] 2 := by
  have hans : ∀ t ∈ ["PING a".toList, "PING b".toList], IsAnswer t := by
    intro t ht
    simp only [List.mem_cons, List.not_mem_nil, or_false] at ht
    rcases ht with rfl | rfl
    · exact ⟨by decide, .ping ['a'], by decide⟩
    · exact ⟨by decide, .ping ['b'], by decide⟩
  refine @lock_step_script Uv.lenient 0 (fun _ => rfl) (fun _ => rfl)
    [.elsewhere (.newClient textLocalhost 5000 1), .connected, .wrote "PING a".toList,
      .read "PIN".toList, .read "G a\n".toList, .wrote "PING b".toList, .read "PING b\n".toList]
    ?_ ?_ (by decide)
  · refine ⟨⟨by decide, fun cb h => by cases h⟩, ⟨by decide, trivial⟩,
      ⟨by decide, hans _ (by simp)⟩, ⟨by decide, by decide, by decide⟩,
      ⟨by decide, by decide, by decide⟩, ⟨by decide, hans _ (by simp)⟩,
      ⟨by decide, by decide, by decide⟩, trivial⟩
  · have hshort : 6 + 1 < 2 ^ 31 := by decide
    exact ⟨fun _ => by decide, trivial, hshort, trivial, trivial, hshort, trivial, trivial⟩

/-! ### An answer that does not fit -/

/-- `"PING aa…a"`. -/
def longAnswer (len : Nat) : Str := kwPing ++ ' ' :: List.replicate len 'a'

/-- A connection up to its first answer, and that answer in `n` reads of some size. -/
def longRun (n size : Nat) : List LockStepEvent :=
  [.elsewhere (.newClient textLocalhost 5000 0), .connected, .wrote (longAnswer (n * size)),
    .read (kwPing ++ [' '])] ++ (List.replicate n (.read (List.replicate size 'a')) ++ [.read ['\n']])

/-- A connection without pings to send, in the middle of an answer. -/
structure Client.Partway (k : Client) (buffer : Str) : Prop extends k.Scripted where
  state : k.myState = .receiving
  stream : k.myUvStream.isSome = true
  reading : k.tcp.reading = true
  buffer : k.myReceiveBuffer = buffer
  closes : .closeCall ∉ k.acts
  given : k.myPingToSend = 0

/-- A piece in which no line is found leaves it there. -/
theorem Client.Partway.read {k : Client} {buffer chunk : Str} (hne : chunk ≠ [])
    (hcut : cutLine (buffer ++ chunk) = .ok none) (h : k.Partway buffer) :
    (k.moved Uv.lenient 0 (.read chunk.length (some chunk))).Partway (buffer ++ chunk) := by
  obtain rfl := h.buffer
  rw [@moved_piece k Uv.lenient 0 (fun _ => rfl) h.kind h.state chunk hne hcut]
  obtain ⟨hstate, hstream, htcp, hcall⟩ := read_agreed
    (k := k.setReceiveBuffer (k.myReceiveBuffer ++ chunk)) (Or.inr (Or.inr (Or.inl h.state)))
    h.stream
  have hi := Idle.read 0 (k.setReceiveBuffer (k.myReceiveBuffer ++ chunk))
  refine ⟨⟨hi.kind.trans h.kind, hi.attached h.attached, hi.timerActive.trans h.timerActive⟩,
    hstate, hstream ▸ h.stream, ?_, hi.myReceiveBuffer, ?_, hi.myPingToSend.trans h.given⟩
  · rw [htcp]
  · rw [hcall]
    exact h.closes

namespace LockStep

/-- The program is up, with its first connection in the middle of an answer. -/
structure Stuck (s : LockStep) (buffer owed : Str) : Prop where
  terminated : s.world.terminated = none
  next : 0 < s.world.next
  client : (s.world.clients 0).Partway buffer
  owed : s.owed = owed

namespace Stuck

variable {s : LockStep} {buffer owed chunk : Str}

theorem read (hne : chunk ≠ []) (hcut : cutLine (buffer ++ chunk) = .ok none)
    (h : s.Stuck buffer (chunk ++ owed)) :
    (lockStepSystem Uv.lenient 0).allowed s (.read chunk) ∧
      ((lockStepSystem Uv.lenient 0).step s (.read chunk)).Stuck (buffer ++ chunk) owed := by
  have hallowed : (Callback.read chunk.length (some chunk)).allowed (s.world.clients 0) :=
    ⟨h.client.reading, h.client.attached h.client.stream, fun _ => ⟨chunk, rfl, rfl⟩⟩
  have hprefix : chunk <+: s.owed := h.owed ▸ List.prefix_append chunk owed
  have hthrows : (Callback.read chunk.length (some chunk)).throws (s.world.clients 0) = false := by
    have hbuffered : (s.world.clients 0).buffered chunk.length chunk = buffer ++ chunk := by
      rw [Client.buffered, Int.toNat_natCast, List.take_length, h.client.buffer]
    rw [Callback.throws, hbuffered, cutThrows, cuts_of_cutLine hcut, Bool.and_false]
  obtain ⟨hclient, hnext, hterm⟩ := clientStep_spec Uv.lenient h.client.toScripted hallowed
  refine ⟨⟨⟨h.terminated, h.next, hallowed⟩, hne, hprefix⟩, hterm.mpr ⟨h.terminated, hthrows⟩,
    hnext.symm ▸ h.next, ?_, ?_⟩
  · show ((clientStep Uv.lenient s.world
      (.client 0 (.read chunk.length (some chunk)))).clients 0).Partway _
    rw [hclient]
    exact h.client.read hne hcut
  · show s.owed.drop chunk.length = owed
    rw [h.owed, List.drop_left]

/-- Any number of pieces without a terminator. -/
theorem reads (hne : chunk ≠ []) (hchunk : '\n' ∉ chunk) : ∀ (n : Nat) {s : LockStep} {buffer : Str},
    '\n' ∉ buffer → s.Stuck buffer ((List.replicate n chunk).flatten ++ owed) →
    (lockStepSystem Uv.lenient 0).Valid s (List.replicate n (.read chunk)) ∧
      ((lockStepSystem Uv.lenient 0).run s (List.replicate n (.read chunk))).Stuck
        (buffer ++ (List.replicate n chunk).flatten) owed ∧
      ((lockStepSystem Uv.lenient 0).run s (List.replicate n (.read chunk))).answered = s.answered := by
  intro n
  induction n with
  | zero =>
    intro s buffer _ h
    rw [List.replicate_zero, List.replicate_zero, List.flatten_nil, List.append_nil]
    exact ⟨trivial, h, rfl⟩
  | succ n ih =>
    intro s buffer hbuffer h
    rw [List.replicate_succ, List.flatten_cons, List.append_assoc] at h
    have hboth : '\n' ∉ buffer ++ chunk := by
      rw [List.mem_append, not_or]
      exact ⟨hbuffer, hchunk⟩
    obtain ⟨hallowed, hstep⟩ := h.read hne (cutLine_residue hboth)
    obtain ⟨hvalid, hrun, hanswered⟩ := ih hboth hstep
    rw [List.replicate_succ, List.replicate_succ, List.flatten_cons, ← List.append_assoc]
    refine ⟨⟨hallowed, hvalid⟩, hrun, hanswered.trans ?_⟩
    show s.answered + chunk.count '\n' = s.answered
    rw [List.count_eq_zero.mpr hchunk, Nat.add_zero]

end Stuck

/-- The connection when its first answer is about to arrive: the answer itself has had no
    effect yet. -/
theorem stuck_start (answer : Str) :
    ((lockStepSystem Uv.lenient 0).run init [.elsewhere (.newClient textLocalhost 5000 0),
      .connected, .wrote answer]).Stuck [] (answer ++ ['\n']) :=
  have hcloses : .closeCall ∉ (((lockStepSystem Uv.lenient 0).run init
      [.elsewhere (.newClient textLocalhost 5000 0), .connected, .wrote []]).world.clients 0).acts := by
    decide
  ⟨rfl, Nat.zero_lt_one, ⟨⟨rfl, fun _ => rfl, rfl⟩, rfl, rfl, rfl, rfl, hcloses, rfl⟩, rfl⟩

end LockStep

theorem isAnswer_longAnswer {len : Nat} (h : 0 < len) : IsAnswer (longAnswer len) := by
  have hword : IsWord (List.replicate len 'a') := by
    refine ⟨fun hnil => ?_, fun ch hch => ?_⟩
    · rw [List.replicate_eq_nil_iff] at hnil
      omega
    · rw [List.eq_of_mem_replicate hch]
      rfl
  have hwf : (Message.ping (List.replicate len 'a')).WF := by
    intro f hf
    rw [Message.fields, List.mem_singleton] at hf
    rw [hf]
    exact hword
  exact ⟨newline_not_mem_serialize hwf, _, parseLine_serialize hwf⟩

/-- **An answer of 2^31 bytes is never seen**, however it arrives: its last byte is in, and the
    connection goes on reading. -/
theorem long_answer_unseen {n size : Nat} (hsize : 0 < size) (hlow : 2 ^ 31 ≤ 5 + n * size)
    (hhigh : 5 + n * size < 2 ^ 32) :
    (lockStepSystem Uv.lenient 0).Valid LockStep.init (longRun n size) ∧
      ¬ OnScript (((lockStepSystem Uv.lenient 0).run LockStep.init (longRun n size)).world.clients 0)
        ((lockStepSystem Uv.lenient 0).run LockStep.init (longRun n size)).owed
        ((lockStepSystem Uv.lenient 0).run LockStep.init (longRun n size)).answered := by
  have hanswer : IsAnswer (longAnswer (n * size)) := isAnswer_longAnswer (by omega)
  have hkw : '\n' ∉ kwPing ++ [' '] := by decide
  have hchunk : '\n' ∉ List.replicate size 'a' := fun hm =>
    absurd (List.eq_of_mem_replicate hm) (by decide)
  have hne : List.replicate size 'a' ≠ [] := by
    rw [Ne, List.replicate_eq_nil_iff]
    omega
  have hbytes : longAnswer (n * size) ++ ['\n'] =
      (kwPing ++ [' ']) ++ ((List.replicate n (List.replicate size 'a')).flatten ++ ['\n']) := by
    rw [List.flatten_replicate_replicate, longAnswer, List.append_assoc, List.append_assoc]
    rfl
  have hstart := LockStep.stuck_start (longAnswer (n * size))
  rw [hbytes] at hstart
  -- the keyword, the filling, and the terminator
  obtain ⟨hallowed, hkeyword⟩ := hstart.read (by simp) (by exact cutLine_residue hkw)
  obtain ⟨hfilling, hstuck, hnone⟩ := hkeyword.reads hne hchunk n hkw
  have hlong : '\n' ∉ (kwPing ++ [' ']) ++ (List.replicate n (List.replicate size 'a')).flatten := by
    rw [List.flatten_replicate_replicate, List.mem_append, not_or]
    exact ⟨hkw, fun hm => absurd (List.eq_of_mem_replicate hm) (by decide)⟩
  have hlen : ((kwPing ++ [' ']) ++ (List.replicate n (List.replicate size 'a')).flatten).length =
      5 + n * size := by
    rw [List.flatten_replicate_replicate, List.length_append, List.length_replicate]
    rfl
  have hunseen := @cutLine_overflow _ [] hlong (by rw [hlen]; exact hlow) (by rw [hlen]; exact hhigh)
  obtain ⟨hlast, hend⟩ := hstuck.read (by simp) hunseen
  have hfinal : ∃ buffer,
      ((lockStepSystem Uv.lenient 0).run LockStep.init (longRun n size)).Stuck buffer [] ∧
        ((lockStepSystem Uv.lenient 0).run LockStep.init (longRun n size)).answered = 1 := by
    rw [longRun, System.run_append, System.run_append]
    exact ⟨_, hend, congrArg (· + 1) hnone⟩
  refine ⟨?_, fun hscript => ?_⟩
  · refine (System.valid_append _ _ _ _).mpr ⟨⟨?_, ?_, ⟨?_, hanswer⟩, hallowed, trivial⟩,
      (System.valid_append _ _ _ _).mpr ⟨hfilling, hlast, trivial⟩⟩
    · exact ⟨by decide, fun cb h => by cases h⟩
    · exact ⟨by decide, trivial⟩
    · exact (by decide : (clientSystem Uv.lenient).allowed ((lockStepSystem Uv.lenient 0).run
        LockStep.init [.elsewhere (.newClient textLocalhost 5000 0), .connected]).world
          (.client 0 (.wrote 0)))
  · obtain ⟨buffer, hreading, hanswered⟩ := hfinal
    have hcloses := hscript.closes
    rw [hanswered, hreading.client.given, List.count_eq_zero.mpr hreading.client.closes] at hcloses
    cases hcloses

/-- 131072 reads of 16384 bytes, as large as `alloc_buffer` makes them, and the terminator. -/
theorem script_abandoned :
    (lockStepSystem Uv.lenient 0).Valid LockStep.init (longRun 131072 16384) ∧
      ¬ OnScript
        (((lockStepSystem Uv.lenient 0).run LockStep.init (longRun 131072 16384)).world.clients 0)
        ((lockStepSystem Uv.lenient 0).run LockStep.init (longRun 131072 16384)).owed
        ((lockStepSystem Uv.lenient 0).run LockStep.init (longRun 131072 16384)).answered :=
  long_answer_unseen (by simp) (by simp) (by simp)

end TcpUv
