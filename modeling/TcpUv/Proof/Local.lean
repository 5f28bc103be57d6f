import TcpUv.Proof.Solo
import TcpUv.Proof.Framing

/-!
# Connections whose app answers on the spot

Where the app does nothing but act on the connection a message came on (`TakesAs`), a
callback is a function of that connection alone: `Client.move`. The server and the client
program are such apps for every message, the node for the responses it ignores. The
closed form says what each callback does, once; the results about these programs are
about `move`.

Two readings of a history go with it, the messages sent and the frames written, and the
moves that touch neither (`Idle`).
-/

set_option autoImplicit false

namespace TcpUv

open Lib

/-! ## What was sent -/

/-- The message an entry records as passed to `sendMessage`. -/
def Act.sentMessage : Act → Option Message
  | .sendMessage m => some m
  | _ => none

/-- Entries of the connection's own machinery: nothing sent, written or handed over, nothing
    reported to the app, nothing destroyed. -/
def Act.isIdle : Act → Bool
  | .sendMessage _ | .uvWrite _ _ | .messageReceived _ | .connectionClosed | .destructor => false
  | _ => true

namespace Client

/-- The messages passed to `sendMessage` so far, in order. -/
def sent (k : Client) : List Message := k.acts.filterMap Act.sentMessage

theorem sent_log (m : Message) (k : Client) : (k.log (.sendMessage m)).sent = k.sent ++ [m] := by
  simp only [sent, log, List.filterMap_append]
  rfl

theorem Quiet.sent {k k' : Client} (h : k.Quiet k') : k'.sent = k.sent := by
  obtain ⟨l, hl, hquiet⟩ := h.acts
  have hnone : l.filterMap Act.sentMessage = [] := List.filterMap_eq_nil_iff.mpr fun a ha => by
    have hquiet := hquiet a ha
    cases a <;> simp [Act.isQuiet, Act.sentMessage] at hquiet ⊢
  rw [Client.sent, hl, List.filterMap_append, hnone, List.append_nil]
  rfl

/-- A move of the machinery. -/
structure Idle (k k' : Client) : Prop where
  kind : k'.kind = k.kind
  myPeerAddr : k'.myPeerAddr = k.myPeerAddr
  myCanonPeerAddr : k'.myCanonPeerAddr = k.myCanonPeerAddr
  myReceiveBuffer : k'.myReceiveBuffer = k.myReceiveBuffer
  myPingToSend : k'.myPingToSend = k.myPingToSend
  mySendCounter : k'.mySendCounter = k.mySendCounter
  timerActive : k'.timerActive = k.timerActive
  attached : k.Attached → k'.Attached
  acts : ∃ l, k'.acts = k.acts ++ l ∧ ∀ a ∈ l, a.isIdle = true

namespace Idle

variable {k k' k'' : Client}

theorem refl (k : Client) : k.Idle k :=
  ⟨rfl, rfl, rfl, rfl, rfl, rfl, rfl, id, [], by simp⟩

theorem trans (h : k.Idle k') (h' : k'.Idle k'') : k.Idle k'' := by
  obtain ⟨l, hl, hidle⟩ := h.acts
  obtain ⟨l', hl', hidle'⟩ := h'.acts
  refine ⟨h'.kind.trans h.kind, h'.myPeerAddr.trans h.myPeerAddr,
    h'.myCanonPeerAddr.trans h.myCanonPeerAddr, h'.myReceiveBuffer.trans h.myReceiveBuffer,
    h'.myPingToSend.trans h.myPingToSend, h'.mySendCounter.trans h.mySendCounter,
    h'.timerActive.trans h.timerActive, fun ha => h'.attached (h.attached ha), l ++ l', ?_, ?_⟩
  · rw [hl', hl, List.append_assoc]
  · intro a ha
    rcases List.mem_append.mp ha with ha | ha
    · exact hidle a ha
    · exact hidle' a ha

theorem log {a : Act} (ha : a.isIdle = true) (k : Client) : k.Idle (k.log a) :=
  ⟨rfl, rfl, rfl, rfl, rfl, rfl, rfl, id, [a], rfl, by simpa using ha⟩

theorem setState (s : State) (k : Client) : k.Idle (k.setState s) :=
  ⟨rfl, rfl, rfl, rfl, rfl, rfl, rfl, id, [.state s], rfl, by simp [Act.isIdle]⟩

theorem assert (site : Assertion) (b : Bool) (k : Client) : k.Idle (k.assert site b) := by
  unfold Client.assert
  split
  · exact refl k
  · exact log rfl k

/-- libuv's own bookkeeping. -/
theorem bookkeeping {t : UvTcp} (ht : t.closing = k.tcp.closing) : k.Idle { k with tcp := t } :=
  ⟨rfl, rfl, rfl, rfl, rfl, rfl, rfl, fun ha hs => ht.trans (ha hs), [], by simp⟩

theorem shut (k : Client) : k.Idle k.shut := by
  unfold Client.shut
  split
  · rename_i hstream
    refine ⟨rfl, rfl, rfl, rfl, rfl, rfl, rfl, fun _ hs => ?_, [.closeCall, .state .closing], ?_, ?_⟩
    · rw [show ((k.log .closeCall).setState .closing).myUvStream = k.myUvStream from rfl,
        hstream] at hs
      cases hs
    · simp [Client.setState, Client.log]
    · simp [Act.isIdle]
  · rename_i hd hstream
    refine ⟨rfl, rfl, rfl, rfl, rfl, rfl, rfl, fun _ hs => ?_,
      [.closeCall, .state .closing, .uvClose hd], ?_, ?_⟩
    · cases hs
    · simp [Client.setState, Client.log, Client.uvClose]
    · simp [Act.isIdle]

theorem uvReadStart (res : Int) (k : Client) : k.Idle (k.uvReadStart res) :=
  ⟨rfl, rfl, rfl, rfl, rfl, rfl, rfl, attached_uvReadStart, [.uvReadStart k.myUvStream], rfl,
    by simp [Act.isIdle]⟩

theorem read (res : Int) (k : Client) : k.Idle (k.read res) := by
  have hstarted := ((assert .doRead (k.myState = .accepted || k.myState = .sent ||
    k.myState = .sending || k.myState = .receiving) k).trans (setState .receiving _)).trans
    (uvReadStart res _)
  unfold Client.read
  dsimp only
  split
  · exact hstarted.trans (shut _)
  · exact hstarted

/-- What a filter of the history that skips the machinery sees. -/
theorem filterMap_acts {β : Type} {f : Act → Option β} (hf : ∀ a : Act, a.isIdle = true → f a = none)
    (h : k.Idle k') : k'.acts.filterMap f = k.acts.filterMap f := by
  obtain ⟨l, hl, hidle⟩ := h.acts
  have hnone : l.filterMap f = [] := List.filterMap_eq_nil_iff.mpr fun a ha => hf a (hidle a ha)
  rw [hl, List.filterMap_append, hnone, List.append_nil]

theorem sent (h : k.Idle k') : k'.sent = k.sent :=
  h.filterMap_acts fun a ha => by cases a <;> simp [Act.isIdle, Act.sentMessage] at ha ⊢

theorem written (h : k.Idle k') : k'.written = k.written :=
  h.filterMap_acts fun a ha => by cases a <;> simp [Act.isIdle, Act.writtenFrame] at ha ⊢

theorem delivered (h : k.Idle k') : k'.delivered = k.delivered :=
  h.filterMap_acts fun a ha => by cases a <;> simp [Act.isIdle, Act.handedOver] at ha ⊢

/-- An entry outside the machinery was there before. -/
theorem mem_acts {a : Act} (ha : a.isIdle = false) (h : k.Idle k') : a ∈ k'.acts ↔ a ∈ k.acts := by
  obtain ⟨l, hl, hidle⟩ := h.acts
  rw [hl, List.mem_append]
  refine ⟨fun hm => hm.elim id fun hm => ?_, Or.inl⟩
  rw [hidle a hm] at ha
  cases ha

end Idle

/-- A move that sends one message: what `sendMessage` is, whatever the state and libuv's
    answer. -/
structure Sends (m : Message) (k k' : Client) : Prop where
  kind : k'.kind = k.kind
  myPeerAddr : k'.myPeerAddr = k.myPeerAddr
  myCanonPeerAddr : k'.myCanonPeerAddr = k.myCanonPeerAddr
  myReceiveBuffer : k'.myReceiveBuffer = k.myReceiveBuffer
  myPingToSend : k'.myPingToSend = k.myPingToSend
  mySendCounter : k'.mySendCounter = k.mySendCounter
  timerActive : k'.timerActive = k.timerActive
  attached : k.Attached → k'.Attached
  acts : ∃ l, k'.acts = k.acts ++ .sendMessage m :: l ∧
    ∀ a ∈ l, a.isIdle = true ∨ ∃ stream, a = .uvWrite stream (frame m)

theorem sends_send (m : Message) (res : Int) (k : Client) : k.Sends m (k.send m res) := by
  have hwrite : k.Sends m (((k.log (.sendMessage m)).setState .sending).uvWrite (frame m) res) := by
    refine ⟨rfl, rfl, rfl, rfl, rfl, rfl, rfl, fun h => attached_uvWrite h,
      [.state .sending, .uvWrite k.myUvStream (frame m)], ?_, ?_⟩
    · simp [uvWrite, setState, log]
    · simp [Act.isIdle]
  unfold send
  split
  · exact ⟨rfl, rfl, rfl, rfl, rfl, rfl, rfl, id, [], rfl, by simp⟩
  · split
    · have hshut := Idle.shut (((k.log (.sendMessage m)).setState .sending).uvWrite (frame m) res)
      obtain ⟨l, hl, hall⟩ := hwrite.acts
      obtain ⟨l', hl', hidle⟩ := hshut.acts
      refine ⟨hshut.kind, hshut.myPeerAddr, hshut.myCanonPeerAddr, hshut.myReceiveBuffer,
        hshut.myPingToSend, hshut.mySendCounter, hshut.timerActive,
        fun h => hshut.attached (hwrite.attached h), l ++ l', ?_, ?_⟩
      · rw [hl', hl, List.append_assoc, List.cons_append]
      · intro a ha
        rcases List.mem_append.mp ha with ha | ha
        · exact hall a ha
        · exact Or.inl (hidle a ha)
    · exact hwrite

namespace Sends

variable {m : Message} {k k' : Client}

theorem sent (h : k.Sends m k') : k'.sent = k.sent ++ [m] := by
  obtain ⟨l, hl, hall⟩ := h.acts
  have hnone : l.filterMap Act.sentMessage = [] := by
    refine List.filterMap_eq_nil_iff.mpr fun a ha => ?_
    rcases hall a ha with hidle | ⟨stream, rfl⟩
    · cases a <;> simp [Act.isIdle, Act.sentMessage] at hidle ⊢
    · rfl
  unfold Client.sent
  have hone : (Act.sendMessage m :: l).filterMap Act.sentMessage = [m] := by
    rw [List.filterMap_cons_some (f := Act.sentMessage) (a := .sendMessage m) rfl, hnone]
  rw [hl, List.filterMap_append, hone]

theorem delivered (h : k.Sends m k') : k'.delivered = k.delivered := by
  obtain ⟨l, hl, hall⟩ := h.acts
  have hnone : l.filterMap Act.handedOver = [] := by
    refine List.filterMap_eq_nil_iff.mpr fun a ha => ?_
    rcases hall a ha with hidle | ⟨stream, rfl⟩
    · cases a <;> simp [Act.isIdle, Act.handedOver] at hidle ⊢
    · rfl
  unfold Client.delivered
  rw [hl, List.filterMap_append, List.filterMap_cons_none rfl, hnone, List.append_nil]

/-- A report to the app or the end of the object is none of it. -/
theorem mem_acts {a : Act} (ha : a = .connectionClosed ∨ a = .destructor) (h : k.Sends m k') :
    a ∈ k'.acts ↔ a ∈ k.acts := by
  obtain ⟨l, hl, hall⟩ := h.acts
  rw [hl, List.mem_append]
  refine ⟨fun hm => hm.elim id fun hm => ?_, Or.inl⟩
  rcases List.mem_cons.mp hm with rfl | hm
  · simp at ha
  · rcases hall a hm with hidle | ⟨stream, rfl⟩
    · rcases ha with rfl | rfl
      · cases hidle
      · cases hidle
    · simp at ha

end Sends

/-- An open connection writes the message. -/
theorem written_send {m : Message} {res : Int} {k : Client} (h : k.IsOpen) :
    (k.send m res).written = k.written ++ [frame m] := by
  have hwrite : (((k.log (.sendMessage m)).setState .sending).uvWrite (frame m) res).written =
      k.written ++ [frame m] := by
    simp only [written, uvWrite, setState, log, List.append_assoc, List.filterMap_append]
    rfl
  unfold send
  rw [if_neg (not_or.mpr h)]
  split
  · rw [(Idle.shut _).written, hwrite]
  · exact hwrite

/-! ## The methods as functions -/

/-- `sendMessage(m)`, with libuv's answer. -/
def sendNow (uv : Uv) (c : ClientId) (m : Message) (k : Client) : Client :=
  k.send m (writeAnswer uv c m k)

/-- `doRead()`, with libuv's answer. -/
def readNow (uv : Uv) (c : ClientId) (k : Client) : Client := k.read (readAnswer uv c k)

/-- `NetClientOut::process`, under an app of this name. -/
def advance (uv : Uv) (c : ClientId) (name : Str) (k : Client) : Client :=
  match k.myState with
  | .connected =>
      sendNow uv c (.handshake textV01 k.myPeerAddr name) { k with mySendCounter := 0 }
  | .sending => readNow uv c { k with mySendCounter := k.mySendCounter + 1 }
  | .sent => readNow uv c k
  | .receiving => readNow uv c k
  | .received =>
      if (1 + k.myPingToSend).toInt ≤ k.mySendCounter then k.shut
      else if 1 ≤ k.mySendCounter then
        sendNow uv c (.ping (pingText name k.myPeerAddr k.mySendCounter)) k
      else k
  | _ => k.log (.assertFailed .unhandledState)

/-- `PeerClientOut::process`, except on a connection just established. -/
def advancePeer (uv : Uv) (c : ClientId) (k : Client) : Client :=
  match k.myState with
  | .sending => readNow uv c { k with peerSendCounter := k.peerSendCounter + 1 }
  | .sent => readNow uv c k
  | .receiving => readNow uv c k
  | .received => k
  | _ => k.log (.assertFailed .unhandledState)

/-- `process()`, by the dynamic class of the object. -/
def proceed (uv : Uv) (c : ClientId) (name : Str) (k : Client) : Client :=
  match k.kind with
  | .netClientIn => k
  | .netClientOut => k.advance uv c name
  | .peerClientOut => k.advancePeer uv c

/-- `process()` asks for no gossip in this state. -/
def Gossipless (k : Client) : Prop := k.kind = .peerClientOut → k.myState ≠ .connected

/-- A receive loop, line by line, with what the app does about each message. -/
def digest (react : Message → Client → Client) : List (Str × Option Message) → Client → Client
  | [], k => k
  | (rest, none) :: cs, k => digest react cs (k.setReceiveBuffer rest)
  | (rest, some m) :: cs, k => digest react cs (react m ((k.setReceiveBuffer rest).handOver m))

/-- The part of `onRead` before `process()`. -/
def readIn (react : Message → Client → Client) (nread : Int) (base : Str) (k : Client) : Client :=
  digest react (cuts (k.buffered nread base).length (k.buffered nread base)).1
    (k.setReceiveBuffer (k.buffered nread base))

/-- `onWrite`'s assertion. -/
def assertWrite (k : Client) : Client :=
  k.assert .onWrite (k.myState = .sending || k.myState = .receiving || k.myState = .received)

/-- What a callback makes of its client. The close callback and the timer reach the app, and
    are left as they are. -/
def move (uv : Uv) (c : ClientId) (name : Str) (react : Message → Client → Client) (cb : Callback)
    (k : Client) : Client :=
  match cb with
  | .connected status =>
      let k := { k with tcp := { k.tcp with connecting := false } }
      if k.kind = .netClientIn ∨ status ≠ 0 then k
      else (k.establish uv c).proceed uv c name
  | .read nread buf =>
      if nread ≤ 0 then k.shut
      else
        match buf with
        | none => k.proceed uv c name
        | some base =>
            if cutThrows (k.buffered nread base) = true then k.readIn react nread base
            else (k.readIn react nread base).proceed uv c name
  | .wrote status =>
      let k := { k with tcp := { k.tcp with writes := k.tcp.writes - 1 } }.assertWrite
      if status ≠ 0 then k.shut else k.proceed uv c name
  | .closed => k
  | .timer => k

/-! ### The functions, case by case -/

section

variable (uv : Uv) (c : ClientId) (name : Str) {k : Client}

theorem advance_connected (hs : k.myState = .connected) : k.advance uv c name =
    sendNow uv c (.handshake textV01 k.myPeerAddr name) { k with mySendCounter := 0 } := by
  unfold advance
  rw [hs]

theorem advance_sending (hs : k.myState = .sending) : k.advance uv c name =
    readNow uv c { k with mySendCounter := k.mySendCounter + 1 } := by
  unfold advance
  rw [hs]

theorem advance_waiting (hs : k.myState = .sent ∨ k.myState = .receiving) :
    k.advance uv c name = readNow uv c k := by
  unfold advance
  rcases hs with hs | hs <;> rw [hs]

theorem advance_received (hs : k.myState = .received) : k.advance uv c name =
    if (1 + k.myPingToSend).toInt ≤ k.mySendCounter then k.shut
    else if 1 ≤ k.mySendCounter then
      sendNow uv c (.ping (pingText name k.myPeerAddr k.mySendCounter)) k
    else k := by
  unfold advance
  rw [hs]

/-- The states `process()` has no case for. -/
def Unhandled (k : Client) : Prop :=
  k.myState = .undefined ∨ k.myState = .notConnected ∨ k.myState = .connecting ∨
    k.myState = .accepted ∨ k.myState = .closing ∨ k.myState = .closed

theorem advance_unhandled (hs : k.Unhandled) :
    k.advance uv c name = k.log (.assertFailed .unhandledState) := by
  unfold advance
  rcases hs with hs | hs | hs | hs | hs | hs <;> rw [hs]

theorem advancePeer_sending (hs : k.myState = .sending) : k.advancePeer uv c =
    readNow uv c { k with peerSendCounter := k.peerSendCounter + 1 } := by
  unfold advancePeer
  rw [hs]

theorem advancePeer_waiting (hs : k.myState = .sent ∨ k.myState = .receiving) :
    k.advancePeer uv c = readNow uv c k := by
  unfold advancePeer
  rcases hs with hs | hs <;> rw [hs]

theorem advancePeer_received (hs : k.myState = .received) : k.advancePeer uv c = k := by
  unfold advancePeer
  rw [hs]

theorem advancePeer_unhandled (hs : k.Unhandled) :
    k.advancePeer uv c = k.log (.assertFailed .unhandledState) := by
  unfold advancePeer
  rcases hs with hs | hs | hs | hs | hs | hs <;> rw [hs]

theorem proceed_in (hk : k.kind = .netClientIn) : k.proceed uv c name = k := by
  unfold proceed
  rw [hk]

theorem proceed_out (hk : k.kind = .netClientOut) :
    k.proceed uv c name = k.advance uv c name := by
  unfold proceed
  rw [hk]

theorem proceed_peer (hk : k.kind = .peerClientOut) :
    k.proceed uv c name = k.advancePeer uv c := by
  unfold proceed
  rw [hk]

/-- A state is one `process()` handles, or one it does not. -/
theorem state_cases (k : Client) : k.myState = .connected ∨ k.myState = .sending ∨
    (k.myState = .sent ∨ k.myState = .receiving) ∨ k.myState = .received ∨ k.Unhandled := by
  unfold Unhandled
  cases k.myState <;> simp

end

/-! ### The methods, where libuv agrees -/

section

variable {k : Client}

theorem send_agreed (m : Message) (hopen : k.IsOpen) (hstream : k.myUvStream.isSome = true) :
    (k.send m 0).myState = .sending ∧ (k.send m 0).myUvStream = k.myUvStream ∧
      (k.send m 0).tcp = { k.tcp with writes := k.tcp.writes + 1 } ∧
      (.closeCall ∈ (k.send m 0).acts ↔ .closeCall ∈ k.acts) := by
  unfold send
  rw [if_neg (not_or.mpr hopen), if_neg (by simp)]
  refine ⟨rfl, rfl, if_pos ⟨rfl, hstream⟩, ?_⟩
  simp [uvWrite, setState, log]

theorem read_agreed (hs : k.myState = .sending ∨ k.myState = .sent ∨ k.myState = .receiving ∨
    k.myState = .accepted) (hstream : k.myUvStream.isSome = true) :
    (k.read 0).myState = .receiving ∧ (k.read 0).myUvStream = k.myUvStream ∧
      (k.read 0).tcp = { k.tcp with reading := true } ∧
      (.closeCall ∈ (k.read 0).acts ↔ .closeCall ∈ k.acts) := by
  unfold read
  dsimp only
  rw [assert_doRead hs, if_neg (by simp)]
  refine ⟨rfl, rfl, if_pos ⟨Int.le_refl 0, hstream⟩, ?_⟩
  simp [uvReadStart, setState]

theorem shut_held (hstream : k.myUvStream.isSome = true) (hcloses : .closeCall ∉ k.acts) :
    k.shut.acts.count .closeCall = 1 ∧ k.shut.tcp.reading = false ∧
      k.shut.tcp.writes = k.tcp.writes ∧ k.shut.tcp.connecting = k.tcp.connecting := by
  obtain ⟨hd, hhd⟩ := Option.isSome_iff_exists.mp hstream
  unfold shut
  rw [hhd]
  refine ⟨?_, rfl, rfl, rfl⟩
  have hzero : k.acts.count .closeCall = 0 := List.count_eq_zero.mpr hcloses
  simp [uvClose, setState, log, hzero]

end

@[simp] theorem kind_send (m : Message) (res : Int) (k : Client) : (k.send m res).kind = k.kind := by
  unfold send
  split
  · rfl
  · split
    · exact kind_shut _
    · rfl

end Client

/-! ## The lines of a buffer -/

/-- No line is cut while the terminator is out. -/
theorem cuts_of_cutLine {buffer : Str} (h : cutLine buffer = .ok none) (fuel : Nat) :
    cuts fuel buffer = ([], false) := by
  cases fuel with
  | zero => rfl
  | succ fuel => rw [cuts, h]

theorem cuts_residue {buffer : Str} (h : '\n' ∉ buffer) (fuel : Nat) :
    cuts fuel buffer = ([], false) := cuts_of_cutLine (cutLine_residue h) fuel

/-- A buffer that is one line. -/
theorem cuts_line {line : Str} {om : Option Message} (hline : '\n' ∉ line)
    (hshort : line.length + 1 < 2 ^ 31) (hparse : parseLine line = .ok om) :
    cuts (line ++ ['\n']).length (line ++ ['\n']) = ([([], om)], false) := by
  rw [List.length_append, List.length_singleton, cuts, cutLine_line hline hshort]
  dsimp only
  rw [hparse, cuts_residue (by simp)]

/-- **A clean buffer is cut at its terminators.** Induction on the fuel. -/
theorem cuts_segments : ∀ (fuel : Nat) {buffer : Str}, buffer.length ≤ fuel →
    (∀ s ∈ (segments '\n' buffer).1, s.length + 1 < 2 ^ 31 ∧ LineOk s) →
    (cuts fuel buffer).2 = false ∧
      (cuts fuel buffer).1.map Prod.snd = (segments '\n' buffer).1.map lineMessage ∧
      ((cuts fuel buffer).1.map Prod.fst).getLastD buffer = (segments '\n' buffer).2 := by
  intro fuel
  induction fuel with
  | zero =>
    intro buffer hfuel _
    obtain rfl := List.length_eq_zero_iff.mp (Nat.le_zero.mp hfuel)
    exact ⟨rfl, rfl, rfl⟩
  | succ fuel ih =>
    intro buffer hfuel hline
    rcases split_first '\n' buffer with hno | ⟨s, rest, rfl, hs⟩
    · rw [cuts_residue hno, segments_of_not_mem hno]
      exact ⟨rfl, rfl, rfl⟩
    · rw [segments_line hs] at hline ⊢
      obtain ⟨hlen, om, hom⟩ := hline s (by simp)
      have hmsg : lineMessage s = om := by rw [lineMessage, hom]
      have hfuel' : rest.length ≤ fuel := by
        simp only [List.length_append, List.length_cons] at hfuel
        omega
      obtain ⟨hthrow, hmsgs, hrest⟩ := ih hfuel' fun t ht => hline t (List.mem_cons_of_mem s ht)
      rw [cuts, cutLine_line hs hlen]
      dsimp only
      rw [hom]
      refine ⟨hthrow, ?_, ?_⟩
      · rw [List.map_cons, List.map_cons, hmsgs, hmsg]
      · rw [← hrest, List.map_cons, List.getLastD_cons]

theorem deliveries_segments {buffer : Str}
    (hline : ∀ s ∈ (segments '\n' buffer).1, s.length + 1 < 2 ^ 31 ∧ LineOk s) :
    deliveries buffer = (segments '\n' buffer).1.filterMap lineMessage := by
  have hmsgs := (cuts_segments buffer.length le_rfl hline).2.1
  have hid : ∀ (f : (Str × Option Message) → Option Message) (l : List (Str × Option Message)),
      l.filterMap f = (l.map f).filterMap id := fun f l => by rw [List.filterMap_map]; rfl
  rw [deliveries, hid, hmsgs, List.filterMap_map]
  rfl

/-! ## An app that acts on the spot -/

theorem modify_id {σ : Type} (w : World σ) (c : ClientId) {f : Client → Client}
    (hf : f (w.clients c) = w.clients c) : w.modify c f = w := by
  unfold World.modify
  rw [hf, Function.update_eq_self]

/-- What an app does about a message on a client: it keeps the stream in order, stays off the
    receive buffer, and leaves nothing for `process()` to gossip about. -/
structure Reaction (react : Message → Client → Client) : Prop where
  attached : ∀ {m : Message} {k : Client}, k.Attached → (react m k).Attached
  buffer : ∀ (m : Message) (k : Client), (react m k).myReceiveBuffer = k.myReceiveBuffer
  kind : ∀ (m : Message) (k : Client), (react m k).kind = k.kind
  settled : ∀ (m : Message) (k : Client), k.myState ≠ .connected →
    (react m k).myState ≠ .connected

/-- An app that does nothing. -/
theorem reaction_none : Reaction fun _ k => k :=
  ⟨id, fun _ _ => rfl, fun _ _ => rfl, fun _ _ => id⟩

/-- What every round of the loop preserves, the loop preserves. -/
theorem Client.digest_preserves {react : Message → Client → Client} {J : Client → Prop}
    (hbuffer : ∀ {k : Client} (b : Str), J k → J (k.setReceiveBuffer b))
    (cs : List (Str × Option Message))
    (hmessage : ∀ {k : Client}, ∀ m ∈ cs.filterMap Prod.snd, J k → J (react m (k.handOver m))) :
    ∀ {k : Client}, J k → J (k.digest react cs) := by
  induction cs with
  | nil => intro k h; exact h
  | cons cut cs ih =>
    intro k h
    obtain ⟨rest, om⟩ := cut
    cases om with
    | none => exact ih hmessage (hbuffer rest h)
    | some m =>
      have hcons : ((rest, some m) :: cs).filterMap Prod.snd = m :: cs.filterMap Prod.snd :=
        List.filterMap_cons_some (f := Prod.snd) (a := (rest, some m)) rfl
      rw [hcons] at hmessage
      exact ih (fun m' hm' => hmessage m' (List.mem_cons_of_mem m hm'))
        (hmessage m (by simp) (hbuffer rest h))

/-- What a receive loop leaves of a connection whose app does nothing. -/
structure Client.Took (ms : List Message) (k k' : Client) : Prop where
  kind : k'.kind = k.kind
  myPeerAddr : k'.myPeerAddr = k.myPeerAddr
  myPingToSend : k'.myPingToSend = k.myPingToSend
  mySendCounter : k'.mySendCounter = k.mySendCounter
  timerActive : k'.timerActive = k.timerActive
  myUvStream : k'.myUvStream = k.myUvStream
  tcp : k'.tcp = k.tcp
  myState : k'.myState = if ms = [] then k.myState else .received
  sent : k'.sent = k.sent
  acts : ∃ l, k'.acts = k.acts ++ l ∧ ∀ a ∈ l, a = .state .received ∨ ∃ m ∈ ms, a = .messageReceived m

theorem Client.took_digest (cs : List (Str × Option Message)) : ∀ k : Client,
    k.Took (cs.filterMap Prod.snd) (k.digest (fun _ k => k) cs) := by
  induction cs with
  | nil => exact fun k => ⟨rfl, rfl, rfl, rfl, rfl, rfl, rfl, rfl, rfl, [],
      (List.append_nil _).symm, by simp⟩
  | cons cut cs ih =>
    intro k
    obtain ⟨rest, om⟩ := cut
    cases om with
    | none =>
      have h := ih (k.setReceiveBuffer rest)
      exact ⟨h.kind, h.myPeerAddr, h.myPingToSend, h.mySendCounter, h.timerActive, h.myUvStream,
        h.tcp, h.myState, h.sent, h.acts⟩
    | some m =>
      have h := ih ((k.setReceiveBuffer rest).handOver m)
      have hmsgs : ((rest, some m) :: cs).filterMap Prod.snd = m :: cs.filterMap Prod.snd :=
        List.filterMap_cons_some (f := Prod.snd) (a := (rest, some m)) rfl
      rw [hmsgs]
      refine ⟨h.kind, h.myPeerAddr, h.myPingToSend, h.mySendCounter, h.timerActive, h.myUvStream,
        h.tcp, ?_, ?_, ?_⟩
      · rw [if_neg (by simp)]
        refine h.myState.trans ?_
        split <;> rfl
      · refine h.sent.trans ?_
        simp [Client.sent, Client.handOver, Client.log, Client.setState, Client.setReceiveBuffer,
          Act.sentMessage]
      · obtain ⟨l, hl, hall⟩ := h.acts
        refine ⟨[.state .received, .messageReceived m] ++ l, ?_, ?_⟩
        · refine hl.trans ?_
          simp [Client.handOver, Client.log, Client.setState, Client.setReceiveBuffer]
        · intro a ha
          rcases List.mem_append.mp ha with ha | ha
          · simp only [List.mem_cons, List.not_mem_nil, or_false] at ha
            exact ha.imp id fun he => ⟨m, by simp, he⟩
          · exact (hall a ha).imp id (Exists.imp fun m' h => ⟨List.mem_cons_of_mem m h.1, h.2⟩)

theorem Client.took_readIn (nread : Int) (base : Str) (k : Client) :
    k.Took (deliveries (k.buffered nread base)) (k.readIn (fun _ k => k) nread base) :=
  have h := took_digest (cuts (k.buffered nread base).length (k.buffered nread base)).1
    (k.setReceiveBuffer (k.buffered nread base))
  ⟨h.kind, h.myPeerAddr, h.myPingToSend, h.mySendCounter, h.timerActive, h.myUvStream, h.tcp,
    h.myState, h.sent, h.acts⟩

namespace Reaction

variable {react : Message → Client → Client} (hr : Reaction react)

include hr

theorem attached_digest (cs : List (Str × Option Message)) {k : Client} (h : k.Attached) :
    (k.digest react cs).Attached :=
  Client.digest_preserves (fun _ h => h) cs (fun m _ h => hr.attached (k := Client.handOver m _) h) h

theorem buffer_digest (cs : List (Str × Option Message)) : ∀ k : Client,
    (k.digest react cs).myReceiveBuffer = (cs.map Prod.fst).getLastD k.myReceiveBuffer := by
  induction cs with
  | nil => intro k; rfl
  | cons cut cs ih =>
    intro k
    obtain ⟨rest, om⟩ := cut
    rw [List.map_cons, List.getLastD_cons]
    cases om with
    | none => exact ih _
    | some m =>
      refine (ih _).trans ?_
      rw [hr.buffer]
      rfl

theorem kind_digest (cs : List (Str × Option Message)) (k : Client) :
    (k.digest react cs).kind = k.kind :=
  Client.digest_preserves (J := fun k' => k'.kind = k.kind) (fun _ h => h) cs
    (fun m _ h => (hr.kind m _).trans h) rfl

theorem settled_digest (cs : List (Str × Option Message)) {k : Client}
    (h : k.myState ≠ .connected) : (k.digest react cs).myState ≠ .connected :=
  Client.digest_preserves (J := fun k => k.myState ≠ .connected) (fun _ h => h) cs
    (fun m _ _ => hr.settled m _ (by simp [Client.handOver, Client.log, Client.setState])) h

end Reaction

section

variable {σ : Type} [App σ] (uv : Uv) {c : ClientId}

/-- In this state of the app, a message on the client is taken by acting on the client. -/
def TakesAs (c : ClientId) (a : σ) (react : Message → Client → Client) (m : Message) : Prop :=
  ∀ w : World σ, w.app = a → (w.clients c).Attached →
    App.messageReceived uv c m w = .returns (w.modify c (react m))

variable {w : World σ} {name : Str} {react : Message → Client → Client}

theorem doRead_now (ha : (w.clients c).Attached) :
    (doRead uv c w).1 = w.modify c (Client.readNow uv c) :=
  (doRead_eq uv ha).trans (modify_congr w c rfl)

theorem sendMessage_now (m : Message) (ha : (w.clients c).Attached) :
    (sendMessage uv c m w).1 = w.modify c (Client.sendNow uv c m) :=
  (sendMessage_eq uv ha m).trans (modify_congr w c rfl)

/-- The same, right after a write to a field. -/
theorem doRead_after {f : Client → Client} (ha : (f (w.clients c)).Attached) :
    (doRead uv c (w.modify c f)).1 = w.modify c fun k => (f k).readNow uv c := by
  rw [doRead_now uv (by rw [World.clients_modify_self]; exact ha), World.modify_modify]
  rfl

theorem sendMessage_after {f : Client → Client} (m : Message) (ha : (f (w.clients c)).Attached) :
    (sendMessage uv c m (w.modify c f)).1 = w.modify c fun k => (f k).sendNow uv c m := by
  rw [sendMessage_now uv m (by rw [World.clients_modify_self]; exact ha), World.modify_modify]
  rfl

theorem process_advance (ha : (w.clients c).Attached) (hname : BaseApp.getName w.app = name) :
    NetClientOut.process uv c w = w.modify c (Client.advance uv c name) := by
  unfold NetClientOut.process
  dsimp only
  rcases Client.state_cases (w.clients c) with hs | hs | hs | hs | hs
  · rw [hs]
    dsimp only
    rw [World.clients_modify_self, World.app_modify, hname, sendMessage_after uv _ (by exact ha)]
    exact modify_congr w c (Client.advance_connected uv c name hs).symm
  · rw [hs]
    dsimp only
    rw [doRead_after uv (by exact ha)]
    exact modify_congr w c (Client.advance_sending uv c name hs).symm
  · have hwait := modify_congr w c (f := Client.readNow uv c)
      (Client.advance_waiting uv c name hs).symm
    rcases hs with hs | hs
    · rw [hs]
      exact (doRead_now uv ha).trans hwait
    · rw [hs]
      exact (doRead_now uv ha).trans hwait
  · have hreceived := Client.advance_received uv c name hs
    rw [hs]
    dsimp only
    split
    · rename_i hdone
      rw [close_eq ha]
      apply modify_congr w c
      rw [hreceived, if_pos hdone]
    · rename_i hmore
      split
      · rename_i hcounted
        rw [hname, sendMessage_now uv _ ha]
        apply modify_congr w c
        rw [hreceived, if_neg hmore, if_pos hcounted]
      · rename_i hcounted
        refine (modify_id w c ?_).symm
        rw [hreceived, if_neg hmore, if_neg hcounted]
  · have hlog := modify_congr w c (f := Client.log (.assertFailed .unhandledState))
      (Client.advance_unhandled uv c name hs).symm
    rcases hs with hs | hs | hs | hs | hs | hs
    all_goals
      rw [hs]
      exact hlog

theorem process_advancePeer (ha : (w.clients c).Attached)
    (hs : (w.clients c).myState ≠ .connected) :
    PeerClientOut.process uv c w = w.modify c (Client.advancePeer uv c) := by
  unfold PeerClientOut.process
  rcases Client.state_cases (w.clients c) with hs' | hs' | hs' | hs' | hs'
  · exact absurd hs' hs
  · rw [hs']
    dsimp only
    rw [doRead_after uv (by exact ha)]
    exact modify_congr w c (Client.advancePeer_sending uv c hs').symm
  · have hwait := modify_congr w c (f := Client.readNow uv c)
      (Client.advancePeer_waiting uv c hs').symm
    rcases hs' with hs' | hs'
    · rw [hs']
      exact (doRead_now uv ha).trans hwait
    · rw [hs']
      exact (doRead_now uv ha).trans hwait
  · rw [hs']
    exact (modify_id w c (Client.advancePeer_received uv c hs')).symm
  · have hlog := modify_congr w c (f := Client.log (.assertFailed .unhandledState))
      (Client.advancePeer_unhandled uv c hs').symm
    rcases hs' with hs' | hs' | hs' | hs' | hs' | hs'
    all_goals
      rw [hs']
      exact hlog

/-- **`process()`** of a connection that asks for no gossip. -/
theorem process_eq (ha : (w.clients c).Attached) (hg : (w.clients c).Gossipless)
    (hname : BaseApp.getName w.app = name) :
    process uv c w = w.modify c (Client.proceed uv c name) := by
  unfold process
  cases hkind : (w.clients c).kind with
  | netClientIn => exact (modify_id w c (Client.proceed_in uv c name hkind)).symm
  | netClientOut =>
    exact (process_advance uv ha hname).trans
      (modify_congr w c (Client.proceed_out uv c name hkind).symm)
  | peerClientOut =>
    exact (process_advancePeer uv ha (hg hkind)).trans
      (modify_congr w c (Client.proceed_peer uv c name hkind).symm)

/-! ### A callback -/

/-- The messages a callback delivers. -/
def Callback.delivers (k : Client) : Callback → List Message
  | .read nread (some base) => if 0 < nread then deliveries (k.buffered nread base) else []
  | _ => []

theorem Callback.delivers_data {k : Client} {nread : Int} (base : Str) (h : 0 < nread) :
    Callback.delivers k (.read nread (some base)) = deliveries (k.buffered nread base) := if_pos h

/-- Only data delivers. -/
theorem Callback.delivers_none {k : Client} {cb : Callback}
    (h : ∀ nread base, cb = .read nread (some base) → ¬ 0 < nread) : cb.delivers k = [] := by
  cases cb with
  | read nread buf =>
    cases buf with
    | none => rfl
    | some base => exact if_neg (h nread base rfl)
  | _ => rfl

/-- Whether a callback ends in an exception of the parser. -/
def Callback.throws (k : Client) : Callback → Bool
  | .read nread (some base) => 0 < nread && cutThrows (k.buffered nread base)
  | _ => false

theorem process_after (hname : BaseApp.getName w.app = name) {f : Client → Client}
    (hf : (f (w.clients c)).Attached) (hg : (f (w.clients c)).Gossipless) :
    process uv c (w.modify c f) = w.modify c fun k => (f k).proceed uv c name := by
  rw [process_eq uv (w := w.modify c f) (by rw [World.clients_modify_self]; exact hf)
    (by rw [World.clients_modify_self]; exact hg) hname, World.modify_modify]
  rfl

/-- `onConnect`, of a client that is not a peer. -/
theorem connected_move (ha : (w.clients c).Attached) (hname : BaseApp.getName w.app = name)
    (hkind : (w.clients c).kind ≠ .peerClientOut) (status : Int) :
    (callback uv c w (.connected status)).world =
      w.modify c (Client.move uv c name react (.connected status)) := by
  show onConnect uv c status (w.modify c fun k =>
    { k with tcp := { k.tcp with connecting := false } }) = _
  rw [onConnect_eq, World.clients_modify_self]
  by_cases hstop : (w.clients c).kind = .netClientIn ∨ status ≠ 0
  · rw [if_pos hstop]
    apply modify_congr w c
    unfold Client.move
    dsimp only
    rw [if_pos hstop]
  · rw [if_neg hstop, World.modify_modify]
    obtain ⟨canon, heq⟩ := Client.establish_eq uv c
      { w.clients c with tcp := { (w.clients c).tcp with connecting := false } }
    rw [process_after uv hname]
    · apply modify_congr w c
      unfold Client.move
      dsimp only [Function.comp]
      rw [if_neg hstop]
    · rw [Function.comp, heq]
      exact ha
    · rw [Function.comp, heq]
      exact fun hk => absurd hk hkind

/-- `onWrite`. -/
theorem wrote_move (ha : (w.clients c).Attached) (hname : BaseApp.getName w.app = name)
    (hg : (w.clients c).Gossipless) (status : Int) :
    (callback uv c w (.wrote status)).world =
      w.modify c (Client.move uv c name react (.wrote status)) := by
  have hassert : ∀ k : Client, k.Attached → k.Gossipless →
      k.assertWrite.Attached ∧ k.assertWrite.Gossipless := by
    intro k hk hg
    unfold Client.assertWrite Client.assert
    split
    · exact ⟨hk, hg⟩
    · exact ⟨hk, hg⟩
  obtain ⟨ha', hg'⟩ := hassert { w.clients c with tcp :=
    { (w.clients c).tcp with writes := (w.clients c).tcp.writes - 1 } } ha hg
  show onWrite uv c status (w.modify c fun k =>
    { k with tcp := { k.tcp with writes := k.tcp.writes - 1 } }) = _
  unfold onWrite
  dsimp only
  rw [World.modify_modify]
  by_cases hst : status ≠ 0
  · rw [if_pos hst, close_eq (by rw [World.clients_modify_self]; exact ha'), World.modify_modify]
    apply modify_congr w c
    unfold Client.move
    dsimp only [Function.comp]
    rw [if_pos hst]
    rfl
  · rw [if_neg hst]
    refine (process_after uv hname ha' hg').trans (modify_congr w c ?_)
    unfold Client.move
    dsimp only [Function.comp]
    rw [if_neg hst]
    rfl

/-! ### The receive loop -/

variable (hr : Reaction react)

include hr

/-- **The loop is a fold over the lines**, and it throws when the parser does. Induction on
    the fuel; the app's state stands still, so every message finds the same app. -/
theorem receiveLoop_digest : ∀ (fuel : Nat) {w : World σ}, (w.clients c).Attached →
    (∀ m ∈ (cuts fuel (w.clients c).myReceiveBuffer).1.filterMap Prod.snd,
      TakesAs uv c w.app react m) →
    (receiveLoop uv c fuel w).world =
        w.modify c (Client.digest react (cuts fuel (w.clients c).myReceiveBuffer).1) ∧
      (receiveLoop uv c fuel w).threw = (cuts fuel (w.clients c).myReceiveBuffer).2 := by
  intro fuel
  induction fuel with
  | zero => intro w _ _; exact ⟨(modify_id w c rfl).symm, rfl⟩
  | succ fuel ih =>
    intro w ha htake
    have hgiven : ∀ rest m, TakesAs uv c w.app react m →
        App.messageReceived uv c m
            ((w.modify c (Client.setReceiveBuffer rest)).modify c (Client.handOver m)) =
          .returns (w.modify c (react m ∘ Client.handOver m ∘ Client.setReceiveBuffer rest)) :=
      fun rest m hm => by
        rw [hm ((w.modify c (Client.setReceiveBuffer rest)).modify c (Client.handOver m)) rfl
          (by rw [World.clients_modify_self, World.clients_modify_self]; exact ha),
          World.modify_modify, World.modify_modify, Function.comp_assoc]
    rw [cuts] at htake
    rw [receiveLoop_succ, cuts]
    have hturn := turnTaken_loopTurn uv c w
    generalize loopTurn uv c w = t at hturn ⊢
    cases hturn with
    | broken hcut | done hcut =>
      simp only [hcut]
      exact ⟨(modify_id w c rfl).symm, rfl⟩
    | @malformed line rest e hcut hline =>
      simp only [hcut, hline]
      exact ⟨rfl, rfl⟩
    | @skipped line rest hcut hline =>
      simp only [hcut, hline] at htake ⊢
      have hrest := @ih (w.modify c (Client.setReceiveBuffer rest))
        (by rw [World.clients_modify_self]; exact ha)
        (by rw [World.clients_modify_self]; exact htake)
      rw [World.clients_modify_self, World.modify_modify] at hrest
      exact hrest
    | @taken line rest m w' hcut hline hgot =>
      simp only [hcut, hline] at htake ⊢
      obtain rfl := Outcome.returns.inj (hgot.symm.trans (hgiven rest m (htake m (by simp))))
      have hbuffer : (react m (((w.clients c).setReceiveBuffer rest).handOver m)).myReceiveBuffer =
          rest := hr.buffer m _
      have hrest := @ih (w.modify c (react m ∘ Client.handOver m ∘ Client.setReceiveBuffer rest))
        (by rw [World.clients_modify_self]; exact hr.attached ha)
        (by
          rw [World.clients_modify_self, Function.comp, Function.comp, hbuffer]
          exact fun m' hm' => htake m' (List.mem_cons_of_mem _ hm'))
      rw [World.clients_modify_self, Function.comp, Function.comp, hbuffer,
        World.modify_modify] at hrest
      exact hrest
    | @refused line rest m e w' hcut hline hgot =>
      simp only [hcut, hline] at htake
      exact absurd (hgot.symm.trans (hgiven rest m (htake m (by simp)))) (by simp)

/-- A read with data: what is buffered is digested, then `process()` — unless the parser
    threw. -/
theorem onRead_digest (ha : (w.clients c).Attached) {nread : Int} (hpos : 0 < nread) (base : Str)
    (htake : ∀ m ∈ deliveries ((w.clients c).buffered nread base), TakesAs uv c w.app react m) :
    (cutThrows ((w.clients c).buffered nread base) = true ∧
        ∃ e, onRead uv c nread (some base) w =
          .throws e (w.modify c (Client.readIn react nread base))) ∨
      (cutThrows ((w.clients c).buffered nread base) = false ∧
        onRead uv c nread (some base) w =
          .returns (process uv c (w.modify c (Client.readIn react nread base)))) := by
  have hread : onRead uv c nread (some base) w =
      (receiveLoop uv c ((w.clients c).buffered nread base).length (w.modify c fun k =>
        k.setReceiveBuffer (k.buffered nread base))).andThen fun w =>
          .returns (process uv c w) := by
    rw [onRead_data uv hpos, doProcessReceivedBuffer, World.clients_modify_self]
    rfl
  have hloop := receiveLoop_digest uv hr ((w.clients c).buffered nread base).length
    (w := w.modify c fun k => k.setReceiveBuffer (k.buffered nread base))
    (by rw [World.clients_modify_self]; exact ha)
    (by rw [World.clients_modify_self]; exact htake)
  rw [World.clients_modify_self, World.modify_modify] at hloop
  obtain ⟨hworld, hthrew⟩ := hloop
  have hdigest : w.modify c (Client.readIn react nread base) = _ :=
    (hworld.trans (modify_congr w c rfl)).symm
  rw [hread]
  cases hend : receiveLoop uv c ((w.clients c).buffered nread base).length
      (w.modify c fun k => k.setReceiveBuffer (k.buffered nread base)) with
  | throws e w' =>
    rw [hend] at hdigest hthrew
    refine Or.inl ⟨hthrew.symm, e, ?_⟩
    rw [hdigest]
    rfl
  | returns w' =>
    rw [hend] at hdigest hthrew
    refine Or.inr ⟨hthrew.symm, ?_⟩
    rw [hdigest]
    rfl

/-- `onRead`. -/
theorem read_move (ha : (w.clients c).Attached) (hname : BaseApp.getName w.app = name)
    (hg : (w.clients c).Gossipless) (nread : Int) (buf : Option Str)
    (htake : ∀ m ∈ (Callback.read nread buf).delivers (w.clients c), TakesAs uv c w.app react m) :
    (callback uv c w (.read nread buf)).world =
        w.modify c (Client.move uv c name react (.read nread buf)) ∧
      (callback uv c w (.read nread buf)).threw =
        (Callback.read nread buf).throws (w.clients c) := by
  show (onRead uv c nread buf w).world = _ ∧ (onRead uv c nread buf w).threw = _
  by_cases hpos : 0 < nread
  · have hneg : ¬ nread ≤ 0 := by omega
    cases buf with
    | none =>
      rw [onRead_null uv hpos]
      refine ⟨?_, rfl⟩
      rw [Outcome.world_returns, process_eq uv ha hg hname]
      apply modify_congr w c
      unfold Client.move
      dsimp only
      rw [if_neg hneg]
    | some base =>
      have hdel := Callback.delivers_data (k := w.clients c) base hpos
      have hthrows : Callback.throws (w.clients c) (.read nread (some base)) =
          cutThrows ((w.clients c).buffered nread base) := by
        simp [Callback.throws, hpos]
      have ha' : ((w.clients c).readIn react nread base).Attached := hr.attached_digest _ ha
      have hg' : ((w.clients c).readIn react nread base).Gossipless := by
        intro hk
        rw [Client.readIn, hr.kind_digest] at hk
        exact hr.settled_digest _ (hg hk)
      rw [hdel] at htake
      rw [hthrows]
      rcases onRead_digest uv hr ha hpos base htake with ⟨hthrow, e, hend⟩ | ⟨hthrow, hend⟩
      · rw [hend, hthrow]
        refine ⟨modify_congr w c ?_, rfl⟩
        unfold Client.move
        dsimp only
        rw [if_neg hneg, if_pos hthrow]
      · rw [hend, hthrow]
        refine ⟨?_, rfl⟩
        rw [Outcome.world_returns, process_after uv hname ha' hg']
        apply modify_congr w c
        unfold Client.move
        dsimp only
        rw [if_neg hneg, if_neg (by rw [hthrow]; simp)]
  · rw [onRead_ends uv hpos]
    refine ⟨?_, ?_⟩
    · rw [Outcome.world_returns, close_eq ha]
      apply modify_congr w c
      unfold Client.move
      dsimp only
      rw [if_pos (by omega)]
    · cases buf <;> simp [Callback.throws, Outcome.threw, hpos]

/-- **A callback is a function of its client.** -/
theorem callback_move (ha : (w.clients c).Attached) (hname : BaseApp.getName w.app = name)
    {cb : Callback} (hcb : cb ≠ .closed ∧ cb ≠ .timer)
    (hg : (w.clients c).kind = .peerClientOut → (w.clients c).myState ≠ .connected ∧
      ∀ status, cb ≠ .connected status)
    (htake : ∀ m ∈ cb.delivers (w.clients c), TakesAs uv c w.app react m) :
    (callback uv c w cb).world = w.modify c (Client.move uv c name react cb) ∧
      (callback uv c w cb).threw = cb.throws (w.clients c) := by
  have hgossip : (w.clients c).Gossipless := fun hk => (hg hk).1
  cases cb with
  | connected status =>
    exact ⟨connected_move uv ha hname (fun hk => (hg hk).2 status rfl) status, rfl⟩
  | read nread buf => exact read_move uv hr ha hname hgossip nread buf htake
  | wrote status => exact ⟨wrote_move uv ha hname hgossip status, rfl⟩
  | closed => exact absurd rfl hcb.1
  | timer => exact absurd rfl hcb.2

end

end TcpUv
