import TcpUv.NetHandler
import TcpUv.Lib.SortedMap
import TcpUv.Lib.System
import Mathlib.Data.Char

/-!
# The two small programs — `lib/app.{hpp,cpp}`

`ClientApp` owns three outgoing connections and lets them run their script; its virtual
functions do nothing. `ServerApp` answers handshakes and pings, and keeps the clients it
accepted in a map under their address text. The map owns them: when the last entry of a
client goes, the client is destroyed.

Each program is put together as a reactive system. The server's includes the main thread's
way through `start`, because the loop thread serves connections before `start` has
returned.
-/

set_option autoImplicit false

namespace TcpUv

open Lib

/-! ## Texts of the sources -/

/-- `"localhost"` -/
def textLocalhost : Str := ['l', 'o', 'c', 'a', 'l', 'h', 'o', 's', 't']
/-- `"Resp_from_"` -/
def textRespFrom : Str := ['R', 'e', 's', 'p', '_', 'f', 'r', 'o', 'm', '_']
/-- `"_NONE_"` -/
def textNone : Str := ['_', 'N', 'O', 'N', 'E', '_']

/-- `AppParams`. -/
structure AppParams where
  extraPeers : List Str := []
  listenPort : Int32
  listenPortRange : Int32

/-! ## `ClientApp` -/

/-- `ClientApp`; the array of clients is a local of `start`. -/
structure ClientApp where
  deriving DecidableEq, Repr

instance : BaseApp ClientApp where
  getName _ := textNone
  connectionClosed _ w := w

/-- `messageReceived` prints, and `listenStarted` is the base class's, which prints too. No
    `PeerClientOut` belongs to this app, so nothing asks it for gossip. -/
instance : App ClientApp where
  listenStarted _ _ w := w
  inConnectionReceived _ w := w
  messageReceived _ _ _ w := .returns w
  sendOtherPeers _ _ w := w

namespace ClientApp

/-- `new NetClientOut(this, host, port, ping)` and its `connect()`. -/
def newClient (uv : Uv) (host : Str) (port : Int32) (pingToSend : Int32) (w : World ClientApp) :
    World ClientApp :=
  (connect uv w.next (w.create (NetClientOut.new host port pingToSend))).1

/-- `ClientApp::start`, up to where it runs the loop. -/
def start (uv : Uv) (params : AppParams) (w : World ClientApp) : World ClientApp :=
  [0, 1, 2].foldl (fun w i =>
    newClient uv textLocalhost (params.listenPort + Int32.ofNat i) (3 + Int32.ofNat i) w) w

end ClientApp

/-- What can happen to the client program. -/
inductive ClientEvent where
  | newClient (host : Str) (port : Int32) (pingToSend : Int32)
  | client (c : ClientId) (cb : Callback)

def clientStep (uv : Uv) (w : World ClientApp) : ClientEvent → World ClientApp
  | .newClient host port pingToSend => ClientApp.newClient uv host port pingToSend w
  | .client c cb => (callback uv c w cb).settle

/-- Any number of outgoing connections, each with any number of pings to send. -/
def clientSystem (uv : Uv) : Lib.System (World ClientApp) ClientEvent where
  step := clientStep uv
  allowed w e := w.terminated = none ∧
    match e with
    | .newClient _ _ _ => True
    | .client c cb => c < w.next ∧ cb.allowed (w.clients c)

instance decidableClientAllowed (uv : Uv) (w : World ClientApp) :
    ∀ e, Decidable ((clientSystem uv).allowed w e)
  | .newClient _ _ _ => inferInstanceAs (Decidable (w.terminated = none ∧ True))
  | .client c cb => inferInstanceAs (Decidable
      (w.terminated = none ∧ c < w.next ∧ cb.allowed (w.clients c)))

/-! ## `ServerApp` -/

/-- `ServerApp`; `myClients` holds shared pointers. -/
structure ServerApp where
  myName : Str := []
  myClients : SortedMap Str ClientId := .empty

namespace ServerApp

/-- The clients the map holds, entry by entry. -/
def held (a : ServerApp) : List ClientId := a.myClients.entries.map Prod.snd

/-- An entry gave its client up: unless another entry holds it, the client is destroyed. -/
def release (d : ClientId) (w : World ServerApp) : World ServerApp :=
  if d ∈ w.app.held then w else w.modify d (·.log .destructor)

/-- `ServerApp::inConnectionReceived`. -/
def inConnectionReceived (c : ClientId) (w : World ServerApp) : World ServerApp :=
  let cliaddr := (w.clients c).getNicePeerAddr
  let overwritten := w.app.myClients.find? cliaddr
  let w := { w with app := { w.app with myClients := w.app.myClients.insert cliaddr c } }
  match overwritten with
  | none => w
  | some d => release d w

/-- `ServerApp::connectionClosed`: the first entry that holds the client is erased. -/
def connectionClosed (c : ClientId) (w : World ServerApp) : World ServerApp :=
  match w.app.myClients.entries.find? fun e => e.2 = c with
  | none => w
  | some e =>
      release c { w with app := { w.app with myClients := w.app.myClients.erase e.1 } }

instance : BaseApp ServerApp where
  getName a := a.myName
  connectionClosed := connectionClosed

/-- `ServerApp::messageReceived`. -/
def messageReceived (uv : Uv) (c : ClientId) (msg : Message) (w : World ServerApp) :
    Outcome ServerApp :=
  match msg with
  | .handshake myVersion _ _ =>
      if myVersion ≠ textV01 then .returns (close c w).1
      else
        .returns (sendMessage uv c
          (.handshakeResponse textV01 w.app.myName (w.clients c).myPeerAddr) w).1
  | .ping text =>
      .returns (sendMessage uv c
        (.pingResponse (textRespFrom ++ w.app.myName ++ textTo ++ text)) w).1
  | _ => .returns (w.modify c (·.log (.assertFailed .unhandledMessage)))

/-- `listenStarted` is the base class's, which prints. `sendOtherPeers` is `NodeApp`'s. -/
instance : App ServerApp where
  listenStarted _ _ w := w
  inConnectionReceived := inConnectionReceived
  messageReceived := messageReceived
  sendOtherPeers _ _ w := w

/-- `myName = ":" + to_string(actualPort)`. -/
def setName (actualPort : Int32) (w : World ServerApp) : World ServerApp :=
  { w with app := { w.app with myName := ':' :: stdToString actualPort.toInt } }

/-- `ServerApp::start`. -/
def start (uv : Uv) (params : AppParams) (w : World ServerApp) : World ServerApp :=
  let (w, actualPort) := startWithListen uv params.listenPort params.listenPortRange w
  if actualPort ≤ 0 then w else setName actualPort w

/-- `ServerApp::stop`. -/
def stop (w : World ServerApp) : Except StopFault (World ServerApp) := TcpUv.stop w

end ServerApp

/-! ## The server as a reactive system -/

/-- How far the main thread has come in `start`. -/
inductive StartUp where
  | notStarted
  /-- `doListen` has returned this port -/
  | listening (actualPort : Int32)
  /-- the loop thread runs, the name is still to be set -/
  | looping (actualPort : Int32)
  | returned
  deriving DecidableEq, Repr

/-- The server program: its objects, and where its main thread is. -/
structure ServerRun where
  world : World ServerApp
  startUp : StartUp

/-- What can happen to the server: a step of `start`, or a callback in the loop thread. -/
inductive ServerEvent where
  | listen (params : AppParams)
  | startUvLoop
  | setName
  /-- the connection callback of the listening socket -/
  | newConnection (status acceptRes : Int)
  | client (c : ClientId) (cb : Callback)

def serverStep (uv : Uv) (s : ServerRun) : ServerEvent → ServerRun
  | .listen params =>
      let (w, actualPort) := doListen uv params.listenPort params.listenPortRange s.world
      ⟨w, if actualPort ≤ 0 then .returned else .listening actualPort⟩
  | .startUvLoop =>
      match s.startUp with
      | .listening actualPort => ⟨startUvLoop s.world, .looping actualPort⟩
      | _ => s
  | .setName =>
      match s.startUp with
      | .looping actualPort => ⟨ServerApp.setName actualPort s.world, .returned⟩
      | _ => s
  | .newConnection status acceptRes =>
      { s with world := onNewConnection uv status acceptRes s.world }
  | .client c cb => { s with world := (callback uv c s.world cb).settle }

/-- The server and its environment: `start` is called once, and callbacks are delivered
    while the loop thread runs. -/
def serverSystem (uv : Uv) : Lib.System ServerRun ServerEvent where
  step := serverStep uv
  allowed s e := s.world.terminated = none ∧
    match e with
    | .listen _ => s.startUp = .notStarted
    | .startUvLoop => ∃ actualPort, s.startUp = .listening actualPort
    | .setName => ∃ actualPort, s.startUp = .looping actualPort
    | .newConnection _ _ => s.world.net.bgThread = true ∧ s.world.net.listening = true
    | .client c cb => s.world.net.bgThread = true ∧ c < s.world.next ∧
        cb.allowed (s.world.clients c)

instance decidableServerAllowed (uv : Uv) (s : ServerRun) :
    ∀ e, Decidable ((serverSystem uv).allowed s e)
  | .listen _ => inferInstanceAs (Decidable
      (s.world.terminated = none ∧ s.startUp = .notStarted))
  | .startUvLoop => match h : s.startUp with
    | .listening p => decidable_of_iff (s.world.terminated = none)
        ⟨fun ht => ⟨ht, p, h⟩, fun ha => ha.1⟩
    | .notStarted => .isFalse fun ha => by simp [serverSystem, h] at ha
    | .looping _ => .isFalse fun ha => by simp [serverSystem, h] at ha
    | .returned => .isFalse fun ha => by simp [serverSystem, h] at ha
  | .setName => match h : s.startUp with
    | .looping p => decidable_of_iff (s.world.terminated = none)
        ⟨fun ht => ⟨ht, p, h⟩, fun ha => ha.1⟩
    | .notStarted => .isFalse fun ha => by simp [serverSystem, h] at ha
    | .listening _ => .isFalse fun ha => by simp [serverSystem, h] at ha
    | .returned => .isFalse fun ha => by simp [serverSystem, h] at ha
  | .newConnection _ _ => inferInstanceAs (Decidable
      (s.world.terminated = none ∧ s.world.net.bgThread = true ∧ s.world.net.listening = true))
  | .client c cb => inferInstanceAs (Decidable
      (s.world.terminated = none ∧ s.world.net.bgThread = true ∧ c < s.world.next ∧
        cb.allowed (s.world.clients c)))

/-- The server before `start`. -/
def ServerRun.init : ServerRun := ⟨World.init {}, .notStarted⟩

/-- **`start` is its three steps**, when nothing comes between them. -/
theorem ServerApp.start_eq (uv : Uv) (params : AppParams) (w : World ServerApp) :
    let s := serverStep uv ⟨w, .notStarted⟩ (.listen params)
    ServerApp.start uv params w =
      (serverStep uv (serverStep uv s .startUvLoop) .setName).world := by
  unfold ServerApp.start startWithListen
  dsimp only [serverStep]
  by_cases hport : (doListen uv params.listenPort params.listenPortRange w).2 ≤ 0
  · simp only [if_pos hport]
  · simp only [if_neg hport]

end TcpUv
