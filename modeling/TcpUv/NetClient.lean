import TcpUv.RemoteAddr

/-!
# Connections — `lib/net_client.cpp`, `node/peer_conn.cpp`

The three connection classes, method by method, over any app. A method reads and writes
`w.clients c`, the object it is called on; where the source calls into the app, the
model calls the `App` class of the world's app type.

Four readings of the source are fixed here.

* A method that can run off its end without a `return` answers `none`.
* A null `myUvStream` handed to libuv is recorded as such in the history, and the call
  is taken to have answered what `Uv` says; the process would not survive it.
* `process` is virtual; for `NetClientIn` it is the empty method of the base class.
* The loop of `doProcessReceivedBuffer` is given the length of the buffer as fuel: every
  iteration takes at least the terminator out of it.
-/

set_option autoImplicit false

namespace TcpUv

open Lib

/-! ## Texts of the sources -/

/-- `"V01"` -/
def textV01 : Str := ['V', '0', '1']
/-- `"Ping_from_"` -/
def textPingFrom : Str := ['P', 'i', 'n', 'g', '_', 'f', 'r', 'o', 'm', '_']
/-- `"_to_"` -/
def textTo : Str := ['_', 't', 'o', '_']

/-- `"Ping_from_" + getName() + "_to_" + getPeerAddr() + "_" + to_string(counter)`. -/
def pingText (name peerAddr : Str) (counter : Int) : Str :=
  textPingFrom ++ name ++ textTo ++ peerAddr ++ '_' :: stdToString counter

/-! ## Construction -/

/-- `NetClientIn::NetClientIn`. -/
def NetClientIn.new (peerAddr : Str) : Client :=
  ({ kind := .netClientIn, myState := .notConnected, myPeerAddr := peerAddr } : Client)
    |>.setUvStream |>.setState .accepted

/-- `NetClientOut::NetClientOut`; `myUvStream` is left uninitialised by the source. -/
def NetClientOut.new (host : Str) (port : Int32) (pingToSend : Int32) : Client :=
  { kind := .netClientOut, myState := .notConnected,
    myPeerAddr := host ++ ':' :: stdToString port.toInt,
    myHost := host, myPort := port, myPingToSend := pingToSend }

/-- `PeerClientOut::PeerClientOut`. -/
def PeerClientOut.new (host : Str) (port : Int32) : Client :=
  { NetClientOut.new host port 1 with kind := .peerClientOut }

/-! ## `NetClientBase` -/

section

variable {σ : Type} [BaseApp σ] (uv : Uv) (c : ClientId)

/-- `NetClientBase::onClose`. -/
def onClose (w : World σ) : World σ :=
  let w := BaseApp.connectionClosed c (w.modify c (·.log .connectionClosed))
  let w := w.modify c (·.log .deleteHandle)
  w.modify c (·.setState .closed)

/-- `NetClientBase::close`. -/
def close (w : World σ) : World σ × Option Int :=
  let w := w.modify c fun k => (k.log .closeCall).setState .closing
  match (w.clients c).myUvStream with
  | none => (w, some 0)
  | some h =>
      let w := w.modify c fun k => { k with myUvStream := none }
      if (w.clients c).tcp.closing then (onClose c w, some 0)
      else (w.modify c (·.uvClose h), none)

/-- `NetClientBase::sendMessage`. -/
def sendMessage (m : Message) (w : World σ) : World σ × Option Int :=
  let w := w.modify c (·.log (.sendMessage m))
  if (w.clients c).myState = .closing ∨ (w.clients c).myState = .closed then (w, some 0)
  else
    let w := w.modify c (·.setState .sending)
    let res := uv.write c (w.clients c)
    let w := w.modify c (·.uvWrite (frame m) res)
    if res ≠ 0 then ((close c w).1, none) else (w, none)

/-- `NetClientBase::doRead`. -/
def doRead (w : World σ) : World σ × Int :=
  let w := w.modify c fun k => k.assert .doRead
    (k.myState = .accepted || k.myState = .sent || k.myState = .sending ||
      k.myState = .receiving)
  let w := w.modify c (·.setState .receiving)
  let res := uv.readStart c (w.clients c)
  let w := w.modify c (·.uvReadStart res)
  if res < 0 then ((close c w).1, res) else (w, 0)

/-- `NetClientBase::isConnected`. -/
def isConnected (k : Client) : Bool :=
  if k.myUvStream = none then false
  else if k.myState = .undefined ∨ k.myState = .notConnected ∨ k.myState = .connecting ∨
      k.myState = .closing ∨ k.myState = .closed then false
  else
    match uv.fileno c k with
    | none => false
    | some fd => 0 < fd

/-! ## `NetClientOut` -/

/-- `NetClientOut::connect`. -/
def connect (w : World σ) : World σ × Int :=
  let s := (w.clients c).myState
  if State.connected.toNat ≤ s.toNat ∧ s.toNat < State.closed.toNat then (w, -1)
  else
    let w := w.modify c fun k =>
      { ((k.log .connectCall).setState .connecting).setUvStream with mySendCounter := 0 }
    let res := uv.tcpConnect c (w.clients c)
    if res ≠ 0 then (w, res)
    else (w.modify c fun k => { k with tcp := { k.tcp with connecting := true } }, 0)

/-- `NetClientOut::process`. -/
def NetClientOut.process (w : World σ) : World σ :=
  let k := w.clients c
  match k.myState with
  | .connected =>
      let w := w.modify c fun k => { k with mySendCounter := 0 }
      (sendMessage uv c
        (.handshake textV01 (w.clients c).myPeerAddr (BaseApp.getName w.app)) w).1
  | .sending =>
      let w := w.modify c fun k => { k with mySendCounter := k.mySendCounter + 1 }
      (doRead uv c w).1
  | .sent => (doRead uv c w).1
  | .receiving => (doRead uv c w).1
  | .received =>
      if (1 + k.myPingToSend).toInt ≤ k.mySendCounter then (close c w).1
      else if 1 ≤ k.mySendCounter then
        (sendMessage uv c
          (.ping (pingText (BaseApp.getName w.app) k.myPeerAddr k.mySendCounter)) w).1
      else w
  | _ => w.modify c (·.log (.assertFailed .unhandledState))

end

/-! ## `PeerClientOut`, and the callbacks that reach the app -/

section

variable {σ : Type} [App σ] (uv : Uv) (c : ClientId)

/-- `PeerClientOut::onTimer`. -/
def onTimer (w : World σ) : World σ :=
  let k := w.clients c
  let w := (sendMessage uv c
    (.ping (pingText (BaseApp.getName w.app) k.myPeerAddr k.peerSendCounter)) w).1
  App.sendOtherPeers uv c w

/-- `PeerClientOut::process`. -/
def PeerClientOut.process (w : World σ) : World σ :=
  match (w.clients c).myState with
  | .connected =>
      let w := w.modify c fun k => { k with myTimer := true }
      let w := onTimer uv c w
      let w := w.modify c fun k => { k with timerActive := true, peerSendCounter := 0 }
      let w := (sendMessage uv c
        (.handshake textV01 (w.clients c).myPeerAddr (BaseApp.getName w.app)) w).1
      App.sendOtherPeers uv c w
  | .sending =>
      let w := w.modify c fun k => { k with peerSendCounter := k.peerSendCounter + 1 }
      (doRead uv c w).1
  | .sent => (doRead uv c w).1
  | .receiving => (doRead uv c w).1
  | .received => w
  | _ => w.modify c (·.log (.assertFailed .unhandledState))

/-- `process()`, by the dynamic class of the object. -/
def process (w : World σ) : World σ :=
  match (w.clients c).kind with
  | .netClientIn => w
  | .netClientOut => NetClientOut.process uv c w
  | .peerClientOut => PeerClientOut.process uv c w

/-- `NetClientOut::onConnect`; a `NetClientIn` has `IUvSocket`'s empty method. -/
def onConnect (status : Int) (w : World σ) : World σ :=
  if (w.clients c).kind = .netClientIn then w
  else if status ≠ 0 then w
  else
    let k := w.clients c
    let remoteHost := (getRemoteAddressHostPort uv (uv.getpeername c k.tcp.handle)).1
    let w := if remoteHost ≠ k.myHost then
        w.modify c fun k =>
          { k with myCanonPeerAddr := remoteHost ++ ':' :: stdToString k.myPort.toInt }
      else w
    process uv c (w.modify c (·.setState .connected))

/-- `NetClientBase::onWrite`. -/
def onWrite (status : Int) (w : World σ) : World σ :=
  let w := w.modify c fun k => k.assert .onWrite
    (k.myState = .sending || k.myState = .receiving || k.myState = .received)
  if status ≠ 0 then (close c w).1 else process uv c w

/-- The condition and the two `substr` calls of the receive loop: the next terminated
    line and what follows it. `terminatorIdx` is a 32-bit `int`. -/
def cutLine (buffer : Str) : Except StdException (Option (Str × Str)) :=
  let terminatorIdx : Int32 := Int32.ofNat (find buffer '\n')
  if 0 < buffer.length ∧ 0 ≤ terminatorIdx then
    match substr buffer 0 (toSizeT terminatorIdx),
        substrFrom buffer (toSizeT (terminatorIdx + 1)) with
    | .ok msg1, .ok rest => .ok (some (msg1, rest))
    | .error e, _ => .error e
    | _, .error e => .error e
  else .ok none

/-- The loop of `NetClientBase::doProcessReceivedBuffer`. -/
def receiveLoop : Nat → World σ → Outcome σ
  | 0, w => .returns w
  | fuel + 1, w =>
      match cutLine (w.clients c).myReceiveBuffer with
      | .error e => .throws e w
      | .ok none => .returns w
      | .ok (some (msg1, rest)) =>
          let w := w.modify c (Client.setReceiveBuffer rest)
          match parseLine msg1 with
          | .error e => .throws e w
          | .ok none => receiveLoop fuel w
          | .ok (some msg) =>
              let w := w.modify c (Client.handOver msg)
              (App.messageReceived uv c msg w).andThen (receiveLoop fuel)

/-- `NetClientBase::doProcessReceivedBuffer`. -/
def doProcessReceivedBuffer (w : World σ) : Outcome σ :=
  receiveLoop uv c (w.clients c).myReceiveBuffer.length w

/-- `NetClientBase::onRead`; `buf` is `none` for a null buffer. -/
def onRead (nread : Int) (buf : Option Str) (w : World σ) : Outcome σ :=
  if nread < 0 then .returns (close c w).1
  else if nread = 0 then .returns (close c w).1
  else
    let o : Outcome σ := match buf with
      | none => .returns w
      | some base =>
          doProcessReceivedBuffer uv c
            (w.modify c fun k => k.setReceiveBuffer (k.myReceiveBuffer ++ base.take nread.toNat))
    o.andThen fun w => .returns (process uv c w)

/-! ## Callbacks as libuv delivers them -/

/-- The callbacks libuv can deliver for one client. -/
inductive Callback where
  | connected (status : Int)
  | read (nread : Int) (buf : Option Str)
  | wrote (status : Int)
  | closed
  | timer
  deriving DecidableEq, Repr

/-- One callback: libuv's own bookkeeping, then the method it lands in. -/
def callback (w : World σ) : Callback → Outcome σ
  | .connected status =>
      .returns (onConnect uv c status
        (w.modify c fun k => { k with tcp := { k.tcp with connecting := false } }))
  | .read nread buf => onRead uv c nread buf w
  | .wrote status =>
      .returns (onWrite uv c status
        (w.modify c fun k => { k with tcp := { k.tcp with writes := k.tcp.writes - 1 } }))
  | .closed =>
      .returns (onClose c (w.modify c fun k => { k with tcp := { k.tcp with closed := true } }))
  | .timer => .returns (onTimer uv c w)

end

/-- `UV_ECANCELED` -/
def uvECanceled : Int := -125
/-- `UV_EALREADY` -/
def uvEAlready : Int := -114

/-- A libuv under which nothing fails; a stream that reads already says so. -/
def Uv.cooperative : Uv where
  write _ _ := 0
  readStart _ k := if k.tcp.reading then uvEAlready else 0
  tcpConnect _ _ := 0
  fileno _ _ := some 5
  getpeername _ _ := .inet 127 0 0 1 (19, 137)
  tcpBind _ := 0
  listen _ := 0
  bigEndian := false

/-- What libuv may deliver to a client in a given state: a connect callback for a pending
    attempt; reads while reading and before `uv_close`; one write callback for each
    `uv_write`, those left over at `uv_close` with `UV_ECANCELED` or 0; the close callback
    last; the timer while it runs. -/
def Callback.allowed (k : Client) : Callback → Prop
  | .connected status => k.tcp.connecting = true ∧ (k.tcp.closing = true → status ≠ 0)
  | .read nread buf => k.tcp.reading = true ∧ k.tcp.closing = false ∧
      (0 < nread → ∃ base, buf = some base ∧ (base.length : Int) = nread)
  | .wrote status => 0 < k.tcp.writes ∧ k.tcp.closed = false ∧
      (k.tcp.closing = true → status = uvECanceled ∨ status = 0)
  | .closed => k.tcp.closing = true ∧ k.tcp.closed = false ∧ k.tcp.writes = 0 ∧
      k.tcp.connecting = false
  | .timer => k.timerActive = true

instance Callback.decidableAllowed (k : Client) : ∀ cb : Callback, Decidable (cb.allowed k)
  | .connected status => inferInstanceAs (Decidable
      (k.tcp.connecting = true ∧ (k.tcp.closing = true → status ≠ 0)))
  | .read nread none => decidable_of_iff
      (k.tcp.reading = true ∧ k.tcp.closing = false ∧ nread ≤ 0) (by simp [Callback.allowed])
  | .read nread (some base) => decidable_of_iff
      (k.tcp.reading = true ∧ k.tcp.closing = false ∧ (0 < nread → (base.length : Int) = nread))
      (by simp [Callback.allowed])
  | .wrote status => inferInstanceAs (Decidable
      (0 < k.tcp.writes ∧ k.tcp.closed = false ∧
        (k.tcp.closing = true → status = uvECanceled ∨ status = 0)))
  | .closed => inferInstanceAs (Decidable
      (k.tcp.closing = true ∧ k.tcp.closed = false ∧ k.tcp.writes = 0 ∧ k.tcp.connecting = false))
  | .timer => inferInstanceAs (Decidable (k.timerActive = true))

end TcpUv
