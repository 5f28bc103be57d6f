import TcpUv.NetHandler
import TcpUv.Lib.System

/-!
# One connection under an arbitrary app

The results about a single connection hold whatever its app does, so the app here is a
*script*: before each callback the environment writes down how the app will react to the
messages the callback delivers, reaction by reaction, and what the gossip of a
`PeerClientOut` will send. A reaction is a list of calls into the client's public
interface — with the answer `uv_write` gives to each of them, so that a whole event,
failures included, is a value one can read a condition off.

`soloSystem` is the connection and its environment: `connect()` by the owner, and every
callback libuv may deliver.
-/

set_option autoImplicit false

namespace TcpUv

/-- One call an app makes on a client, from inside a callback. -/
inductive AppCall where
  /-- `sendMessage(m)`, where `uv_write` answers `res` -/
  | reply (m : Message) (res : Int)
  | close
  | setCanonPeerAddr (a : Str)
  deriving DecidableEq, Repr

/-- An app that does as it is told. -/
structure Script where
  myName : Str := []
  /-- what the next calls of `messageReceived` do, one list a call; nothing after that -/
  reactions : List (List AppCall) := []
  /-- what the next calls of `sendOtherPeers` send, with the answers of `uv_write` -/
  gossip : List (List (Message × Int)) := []

/-- `ClientApp::connectionClosed` does nothing, and neither does a script. -/
instance : BaseApp Script where
  getName a := a.myName
  connectionClosed _ w := w

/-- libuv, with the answer to the next `uv_write` fixed. -/
def Uv.answering (uv : Uv) (res : Int) : Uv := { uv with write := fun _ _ => res }

@[simp] theorem Uv.write_answering (uv : Uv) (res : Int) (c : ClientId) (k : Client) :
    (uv.answering res).write c k = res := rfl

namespace Script

variable (uv : Uv) (c : ClientId)

def call (w : World Script) : AppCall → World Script
  | .reply m res => (TcpUv.sendMessage (uv.answering res) c m w).1
  | .close => (TcpUv.close c w).1
  | .setCanonPeerAddr a => w.modify c fun k => { k with myCanonPeerAddr := a }

def calls (cs : List AppCall) (w : World Script) : World Script := cs.foldl (call uv c) w

/-- `messageReceived`: the next reaction of the script. -/
def messageReceived (w : World Script) : World Script :=
  calls uv c (w.app.reactions.headD [])
    { w with app := { w.app with reactions := w.app.reactions.tail } }

/-- `sendOtherPeers`: the next gossip of the script. -/
def sendOtherPeers (w : World Script) : World Script :=
  calls uv c ((w.app.gossip.headD []).map fun s => .reply s.1 s.2)
    { w with app := { w.app with gossip := w.app.gossip.tail } }

end Script

instance : App Script where
  listenStarted _ _ w := w
  inConnectionReceived _ w := w
  messageReceived uv c _ w := .returns (Script.messageReceived uv c w)
  sendOtherPeers := Script.sendOtherPeers

/-! ## The system -/

/-- What can happen to a connection. -/
inductive SoloEvent where
  /-- its owner calls `connect()` -/
  | connect
  /-- libuv delivers a callback, during which the app acts like this -/
  | callback (cb : Callback) (reactions : List (List AppCall))
      (gossip : List (List (Message × Int)))

def soloStep (uv : Uv) (c : ClientId) (w : World Script) : SoloEvent → World Script
  | .connect => (connect uv c w).1
  | .callback cb reactions gossip =>
      (callback uv c { w with app := { w.app with reactions := reactions, gossip := gossip } }
        cb).settle

/-- A connection and its environment. The owner does not call `connect()` while an attempt
    is pending, and callbacks come as libuv may deliver them. -/
def soloSystem (uv : Uv) (c : ClientId) : Lib.System (World Script) SoloEvent where
  step := soloStep uv c
  allowed w e := w.terminated = none ∧
    match e with
    | .connect => (w.clients c).kind ≠ .netClientIn ∧ (w.clients c).tcp.connecting = false
    | .callback cb _ _ => cb.allowed (w.clients c)

instance decidableSoloAllowed (uv : Uv) (c : ClientId) (w : World Script) :
    ∀ e, Decidable ((soloSystem uv c).allowed w e)
  | .connect => inferInstanceAs (Decidable (w.terminated = none ∧
      (w.clients c).kind ≠ .netClientIn ∧ (w.clients c).tcp.connecting = false))
  | .callback cb _ _ => inferInstanceAs (Decidable
      (w.terminated = none ∧ cb.allowed (w.clients c)))

/-- How a connection comes into being: constructed by its owner, or accepted. -/
inductive SoloInit (uv : Uv) (c : ClientId) : World Script → Prop where
  | netClientOut (w : World Script) (host : Str) (port : Int32) (pingToSend : Int32)
      (hc : w.next = c) : SoloInit uv c (w.create (NetClientOut.new host port pingToSend))
  | peerClientOut (w : World Script) (host : Str) (port : Int32) (hc : w.next = c) :
      SoloInit uv c (w.create (PeerClientOut.new host port))
  | netClientIn (w : World Script) (hc : w.next = c) : SoloInit uv c (onNewConnection uv 0 0 w)

end TcpUv
