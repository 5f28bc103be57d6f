import TcpUv.Message
import Mathlib.Logic.Function.Basic

/-!
# The world of one process — client objects, their sockets, libuv, and the app

One event loop drives every connection of a process, so the model's state is one
record: the client objects by identity, the app object (a type parameter, because the
connection code only ever reaches it through virtual functions), and what the process
has running. Each client carries, next to the fields of the C++ class, libuv's view of
the `uv_tcp_t` it created last and the history of what it did (`acts`). The history is
what the results about *never* and *at most once* speak of.

libuv itself is a parameter `Uv`: what its calls answer, as a function of the client
that calls. A client's history is part of the client, so such a function can answer
every call differently — quantifying over `Uv` is quantifying over every sequence of
results.
-/

set_option autoImplicit false

namespace TcpUv

/-- The identity of a client object (its address, in the source). -/
abbrev ClientId := Nat

/-- One `uv_tcp_t` a client created: they are numbered in the order of creation. -/
abbrev Handle := Nat

/-- `NetClientBase::State`. -/
inductive State where
  | undefined | notConnected | connecting | connected | accepted | sending | sent
  | receiving | received | closing | closed
  deriving DecidableEq, Repr

/-- The numeric order of the enumeration, which `connect`'s guard compares by. -/
def State.toNat : State → Nat
  | .undefined => 0 | .notConnected => 1 | .connecting => 2 | .connected => 3
  | .accepted => 4 | .sending => 5 | .sent => 6 | .receiving => 7 | .received => 8
  | .closing => 9 | .closed => 10

/-- The dynamic class of a client object. -/
inductive ClientKind where
  | netClientIn
  | netClientOut
  | peerClientOut
  deriving DecidableEq, Repr

/-- The assertions of the sources that can be reached by a connection's callbacks. -/
inductive Assertion where
  | onWrite
  | doRead
  /-- `assert(false)` in the default branch of `process` -/
  | unhandledState
  /-- `assert(false)` in the default branch of an app's `messageReceived` -/
  | unhandledMessage
  deriving DecidableEq, Repr

/-- What a client object did: the entries of its history. -/
inductive Act where
  /-- `myState = s` -/
  | state (s : State)
  /-- `connect()` entered, past its guard -/
  | connectCall
  /-- `close()` entered -/
  | closeCall
  /-- `sendMessage(m)` entered -/
  | sendMessage (m : Message)
  /-- `uv_write(…, stream, frame, …)` -/
  | uvWrite (stream : Option Handle) (frame : Str)
  /-- `uv_read_start(stream, …)` -/
  | uvReadStart (stream : Option Handle)
  | uvClose (handle : Handle)
  | deleteHandle
  /-- `myApp->messageReceived(*this, m)` -/
  | messageReceived (m : Message)
  /-- `myApp->connectionClosed(this)` -/
  | connectionClosed
  | assertFailed (site : Assertion)
  /-- the last owner let go: the destructor ran -/
  | destructor
  deriving DecidableEq, Repr

/-- The message an entry records as handed to the app. -/
def Act.handedOver : Act → Option Message
  | .messageReceived m => some m
  | _ => none

/-- The bytes an entry records as handed to `uv_write`. -/
def Act.writtenFrame : Act → Option Str
  | .uvWrite _ fr => some fr
  | _ => none

/-- The frame an entry records as handed to `uv_write` on a stream the client holds. -/
def Act.streamedFrame : Act → Option Str
  | .uvWrite (some _) fr => some fr
  | _ => none

/-- What libuv knows of a `uv_tcp_t`. -/
structure UvTcp where
  handle : Handle := 0
  /-- a `uv_tcp_connect` awaits its callback -/
  connecting : Bool := false
  reading : Bool := false
  /-- `uv_write` requests that await their callback -/
  writes : Nat := 0
  /-- `uv_close` was called -/
  closing : Bool := false
  /-- the close callback was delivered -/
  closed : Bool := false
  deriving DecidableEq, Repr

/-- A client object: `NetClientBase`, `NetClientOut` and `PeerClientOut`, with libuv's
    view of its socket and its history. -/
structure Client where
  kind : ClientKind
  myState : State
  myPeerAddr : Str
  myCanonPeerAddr : Str := []
  myReceiveBuffer : Str := []
  myUvStream : Option Handle := none
  myHost : Str := []
  myPort : Int32 := 0
  myPingToSend : Int32 := 0
  /-- `NetClientOut::mySendCounter` -/
  mySendCounter : Int := 0
  /-- `PeerClientOut::mySendCounter`, which shadows the one above -/
  peerSendCounter : Int := 0
  /-- `myTimer != nullptr` -/
  myTimer : Bool := false
  /-- the timer was started and not stopped -/
  timerActive : Bool := false
  tcp : UvTcp := {}
  acts : List Act := []
  deriving DecidableEq, Repr

namespace Client

def log (a : Act) (k : Client) : Client := { k with acts := k.acts ++ [a] }

/-- `myState = s`. -/
def setState (s : State) (k : Client) : Client :=
  { k with myState := s, acts := k.acts ++ [.state s] }

/-- `assert(b)`. The default build defines `NDEBUG`: a violated assertion is recorded,
    and execution goes on. -/
def assert (site : Assertion) (b : Bool) (k : Client) : Client :=
  if b then k else k.log (.assertFailed site)

/-- `uv_write` on `myUvStream`, answered `res`. -/
def uvWrite (frame : Str) (res : Int) (k : Client) : Client :=
  { k with
    tcp := if res = 0 ∧ k.myUvStream.isSome then { k.tcp with writes := k.tcp.writes + 1 }
      else k.tcp
    acts := k.acts ++ [.uvWrite k.myUvStream frame] }

/-- `uv_read_start` on `myUvStream`, answered `res`. -/
def uvReadStart (res : Int) (k : Client) : Client :=
  { k with
    tcp := if 0 ≤ res ∧ k.myUvStream.isSome then { k.tcp with reading := true } else k.tcp
    acts := k.acts ++ [.uvReadStart k.myUvStream] }

/-- `uv_close(handle, on_close)`: libuv stops reading at once. -/
def uvClose (h : Handle) (k : Client) : Client :=
  { k with
    tcp := { k.tcp with closing := true, reading := false }
    acts := k.acts ++ [.uvClose h] }

/-- `setUvStream(new uv_tcp_t())`: a fresh handle, numbered after the previous one. -/
def setUvStream (k : Client) : Client :=
  { k with myUvStream := some (k.tcp.handle + 1), tcp := { handle := k.tcp.handle + 1 } }

/-- `myReceiveBuffer = b`. -/
def setReceiveBuffer (b : Str) (k : Client) : Client := { k with myReceiveBuffer := b }

/-- The state is set and `messageReceived` is called. -/
def handOver (m : Message) (k : Client) : Client := (k.setState .received).log (.messageReceived m)

/-- `getNicePeerAddr`. -/
def getNicePeerAddr (k : Client) : Str :=
  if 0 < k.myCanonPeerAddr.length then k.myCanonPeerAddr else k.myPeerAddr

/-- The messages handed to the app so far, in order. -/
def delivered (k : Client) : List Message := k.acts.filterMap Act.handedOver

theorem delivered_handOver (m : Message) (k : Client) :
    (k.handOver m).delivered = k.delivered ++ [m] := by
  show (k.acts ++ [Act.state .received] ++ [Act.messageReceived m]).filterMap Act.handedOver = _
  rw [List.append_assoc, List.filterMap_append]
  rfl

/-- The bytes handed to `uv_write` so far, frame by frame. -/
def written (k : Client) : List Str := k.acts.filterMap Act.writtenFrame

/-- The frames put on the client's stream so far. -/
def streamed (k : Client) : List Str := k.acts.filterMap Act.streamedFrame

end Client

/-- What `uv_tcp_getpeername` and `uv_inet_ntop` find at the other end. -/
inductive PeerName where
  | error (res : Int)
  /-- `AF_INET`: the four address bytes, and the two bytes of `sin_port` as stored -/
  | inet (a b c d : UInt8) (sinPort : UInt8 × UInt8)
  | inet6 (text : Str) (sin6Port : UInt8 × UInt8)
  | other
  deriving DecidableEq, Repr

/-- libuv and the platform, as seen by the client objects. -/
structure Uv where
  /-- result of `uv_write` -/
  write : ClientId → Client → Int
  /-- result of `uv_read_start` -/
  readStart : ClientId → Client → Int
  /-- result of `uv_tcp_connect` -/
  tcpConnect : ClientId → Client → Int
  /-- the descriptor `uv_fileno` finds, or its failure -/
  fileno : ClientId → Client → Option Int
  /-- the peer of an accepted or connected socket -/
  getpeername : ClientId → Handle → PeerName
  /-- result of `uv_tcp_bind` to a port -/
  tcpBind : Int32 → Int
  /-- result of `uv_listen` on a port -/
  listen : Int32 → Int
  bigEndian : Bool

/-- The state of the app's `NetHandler`. -/
structure NetHandler where
  /-- a socket is bound and listening -/
  listening : Bool := false
  /-- `myUvAsync` points to an initialised handle -/
  uvAsync : Bool := false
  /-- `myBgThread` holds a joinable thread -/
  bgThread : Bool := false
  myBgThreadStop : Bool := false
  deriving DecidableEq, Repr

/-- The state of one process. -/
structure World (σ : Type) where
  clients : ClientId → Client
  /-- the number of client objects created so far -/
  next : ClientId
  net : NetHandler
  /-- an exception left a libuv callback: the process is gone -/
  terminated : Option StdException
  app : σ

/-- How a call that may throw ends. -/
inductive Outcome (σ : Type) where
  | returns (w : World σ)
  | throws (e : StdException) (w : World σ)

namespace Outcome

variable {σ : Type}

/-- The world at the end, whichever way it came. -/
def world : Outcome σ → World σ
  | .returns w => w
  | .throws _ w => w

/-- Sequencing: an exception skips the rest. -/
def andThen (o : Outcome σ) (f : World σ → Outcome σ) : Outcome σ :=
  match o with
  | .returns w => f w
  | .throws e w => .throws e w

/-- An exception that reaches the event loop ends the process. -/
def settle : Outcome σ → World σ
  | .returns w => w
  | .throws e w => { w with terminated := some e }

/-- An exception left the call. -/
def threw : Outcome σ → Bool
  | .returns _ => false
  | .throws _ _ => true

@[simp] theorem world_returns (w : World σ) : (Outcome.returns w).world = w := rfl
@[simp] theorem world_throws (e : StdException) (w : World σ) :
    (Outcome.throws e w).world = w := rfl
@[simp] theorem andThen_returns (w : World σ) (f : World σ → Outcome σ) :
    (Outcome.returns w).andThen f = f w := rfl
@[simp] theorem andThen_throws (e : StdException) (w : World σ) (f : World σ → Outcome σ) :
    (Outcome.throws e w).andThen f = .throws e w := rfl
/-- Sequencing keeps what the first part keeps, thrown or not, and the second. -/
theorem world_andThen {I : World σ → Prop} {o : Outcome σ} {f : World σ → Outcome σ}
    (h : I o.world) (hf : ∀ w, I w → I (f w).world) : I (o.andThen f).world := by
  cases o with
  | returns w => exact hf w h
  | throws e w => exact h

/-- What comes after an exception does not take it back. -/
theorem threw_andThen {o : Outcome σ} (h : o.threw = true) (f : World σ → Outcome σ) :
    (o.andThen f).threw = true := by
  cases o with
  | returns w => cases h
  | throws e w => rfl

@[simp] theorem settle_returns (w : World σ) : (Outcome.returns w).settle = w := rfl
@[simp] theorem clients_settle (o : Outcome σ) : o.settle.clients = o.world.clients := by
  cases o <;> rfl
@[simp] theorem app_settle (o : Outcome σ) : o.settle.app = o.world.app := by
  cases o <;> rfl
@[simp] theorem next_settle (o : Outcome σ) : o.settle.next = o.world.next := by
  cases o <;> rfl

end Outcome

namespace World

variable {σ : Type}

/-- A write to one client object. -/
def modify (w : World σ) (c : ClientId) (f : Client → Client) : World σ :=
  { w with clients := Function.update w.clients c (f (w.clients c)) }

/-- `new`: the next identity, holding the given object. -/
def create (w : World σ) (k : Client) : World σ :=
  { w with clients := Function.update w.clients w.next k, next := w.next + 1 }

@[simp] theorem clients_modify_self (w : World σ) (c : ClientId) (f : Client → Client) :
    (w.modify c f).clients c = f (w.clients c) := by simp [modify]

theorem clients_modify_ne (w : World σ) {c d : ClientId} (f : Client → Client) (h : d ≠ c) :
    (w.modify c f).clients d = w.clients d := by simp [modify, Function.update_of_ne h]

theorem clients_modify (w : World σ) (c d : ClientId) (f : Client → Client) :
    (w.modify c f).clients d = if d = c then f (w.clients d) else w.clients d := by
  by_cases h : d = c
  · subst h; simp
  · simp [h, clients_modify_ne]

@[simp] theorem app_modify (w : World σ) (c : ClientId) (f : Client → Client) :
    (w.modify c f).app = w.app := rfl
@[simp] theorem next_modify (w : World σ) (c : ClientId) (f : Client → Client) :
    (w.modify c f).next = w.next := rfl
@[simp] theorem net_modify (w : World σ) (c : ClientId) (f : Client → Client) :
    (w.modify c f).net = w.net := rfl
@[simp] theorem terminated_modify (w : World σ) (c : ClientId) (f : Client → Client) :
    (w.modify c f).terminated = w.terminated := rfl

@[simp] theorem modify_modify (w : World σ) (c : ClientId) (f g : Client → Client) :
    (w.modify c f).modify c g = w.modify c (g ∘ f) := by
  simp [modify]

@[simp] theorem clients_create_next (w : World σ) (k : Client) :
    (w.create k).clients w.next = k := by simp [create]

theorem clients_create_ne (w : World σ) {d : ClientId} (k : Client) (h : d ≠ w.next) :
    (w.create k).clients d = w.clients d := by simp [create, Function.update_of_ne h]

@[simp] theorem app_create (w : World σ) (k : Client) : (w.create k).app = w.app := rfl
@[simp] theorem next_create (w : World σ) (k : Client) :
    (w.create k).next = w.next + 1 := rfl
@[simp] theorem net_create (w : World σ) (k : Client) :
    (w.create k).net = w.net := rfl
@[simp] theorem terminated_create (w : World σ) (k : Client) :
    (w.create k).terminated = w.terminated := rfl

end World

/-- What stands at an identity no object has been created for. -/
def Client.absent : Client :=
  { kind := .netClientIn, myState := .undefined, myPeerAddr := [] }

/-- A process before anything happened. -/
def World.init {σ : Type} (app : σ) : World σ :=
  { clients := fun _ => Client.absent, next := 0, net := {}, terminated := none,
    app := app }

/-! ## The app, through its virtual functions -/

/-- The part of `BaseApp` that `close` and `process` call. -/
class BaseApp (σ : Type) where
  getName : σ → Str
  /-- `connectionClosed(client)` -/
  connectionClosed : ClientId → World σ → World σ

/-- The rest of `BaseApp`; `sendOtherPeers` is `NodeApp`'s, which `PeerClientOut`
    reaches by casting its app. -/
class App (σ : Type) extends BaseApp σ where
  listenStarted : Uv → Int32 → World σ → World σ
  inConnectionReceived : ClientId → World σ → World σ
  messageReceived : Uv → ClientId → Message → World σ → Outcome σ
  sendOtherPeers : Uv → ClientId → World σ → World σ

end TcpUv
