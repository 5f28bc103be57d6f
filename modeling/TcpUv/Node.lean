import TcpUv.App
import TcpUv.Endpoint

/-!
# The node — `node/node.{hpp,cpp}`

`NodeApp`: the table of peer candidates (`myPeerCands`, a map in key order), the list of
current peers (`myPeers`), and the methods that read and write them. The list owns its
clients, so taking the last entry of a client out of it destroys the client.

At the end of the file the node is put together as a reactive system: the events its
environment can deliver, what each does, and which are possible when.
-/

set_option autoImplicit false

namespace TcpUv

open Lib

/-- The host texts `tryOutConnection` takes for this machine. -/
def loopbackHosts : List Str :=
  [textLocalhost, ['1', '2', '7', '.', '0', '.', '0', '.', '1'], [':', ':', '1'],
    ['[', ':', ':', '1', ']']]

/-! ## State -/

/-- `NodeApp::PeerCandidateInfo`. -/
structure PeerCandidateInfo where
  myHost : Str
  myPort : Int32
  myToTry : Int
  myConnTryCount : Int := 0
  myConnectedCount : Int := 0
  deriving DecidableEq, Repr

/-- `NodeApp::PeerInfo`; the client is a shared pointer. -/
structure PeerInfo where
  myClient : Option ClientId
  myOutFlag : Bool
  deriving DecidableEq, Repr

/-- `NodeApp`. -/
structure NodeApp where
  myName : Str := []
  myPeerCands : SortedMap Str PeerCandidateInfo := .empty
  myPeers : List PeerInfo := []

/-- A process that runs a node. -/
abbrev NodeWorld := World NodeApp

namespace NodeApp

/-! ## The two tables -/

/-- `NodeApp::addOutPeerCandidate`. -/
def addOutPeerCandidate (host : Str) (port : Int32) (toTry : Int) (a : NodeApp) : NodeApp :=
  let key := endpointText host port
  match a.myPeerCands.find? key with
  | some _ =>
      { a with myPeerCands :=
          a.myPeerCands.modify key fun pc => { pc with myToTry := toTry + pc.myConnTryCount } }
  | none =>
      { a with myPeerCands :=
          a.myPeerCands.insert key { myHost := host, myPort := port, myToTry := toTry } }

/-- An entry of `myPeers` that answers to an address. -/
def PeerInfo.matches (w : NodeWorld) (peerAddr : Str) (p : PeerInfo) : Bool :=
  match p.myClient with
  | none => false
  | some c => (w.clients c).myPeerAddr = peerAddr || (w.clients c).myCanonPeerAddr = peerAddr

/-- `NodeApp::isPeerConnected`. -/
def isPeerConnected (w : NodeWorld) (peerAddr : Str) (outDir : Bool) : Bool :=
  w.app.myPeers.any fun p => p.myOutFlag = outDir && PeerInfo.matches w peerAddr p

/-- `PeerClientOut::~PeerClientOut` for an outgoing peer; other clients have nothing to
    release. -/
def destroy (k : Client) : Client :=
  (if k.kind = .peerClientOut ∧ k.myTimer = true then
    { k with timerActive := false, myTimer := false } else k).log .destructor

/-- The marking pass of `connectionClosed`: the entry of the closed client, or of any
    client with the same address text, gives its client up. -/
def PeerInfo.reset (w : NodeWorld) (c : ClientId) (cliaddr : Str) (p : PeerInfo) : PeerInfo :=
  match p.myClient with
  | none => p
  | some d => if d = c ∨ (w.clients d).myPeerAddr = cliaddr then { p with myClient := none } else p

/-- The clients the marking pass lets go of. -/
def released (w : NodeWorld) (c : ClientId) (cliaddr : Str) : List ClientId :=
  (w.app.myPeers.filterMap fun p => p.myClient).filter fun d =>
    d = c ∨ (w.clients d).myPeerAddr = cliaddr

/-- The erase loop of `connectionClosed`: erase the first null entry and start over, until
    there is none; `n` bounds the rounds. -/
def eraseDisconnected : Nat → List PeerInfo → List PeerInfo
  | 0, l => l
  | n + 1, l =>
      if l.any fun p => p.myClient.isNone then
        eraseDisconnected n (l.eraseP fun p => p.myClient.isNone)
      else l

/-- `NodeApp::connectionClosed`. -/
def connectionClosed (c : ClientId) (w : NodeWorld) : NodeWorld :=
  let cliaddr := (w.clients c).myPeerAddr
  let marked := w.app.myPeers.map (PeerInfo.reset w c cliaddr)
  let w := (released w c cliaddr).dedup.foldl (fun w d => w.modify d destroy) w
  { w with app := { w.app with myPeers := eraseDisconnected marked.length marked } }

instance : BaseApp NodeApp where
  getName a := a.myName
  connectionClosed := connectionClosed

/-! ## Outgoing connections -/

section

variable (uv : Uv)

/-- `NodeApp::tryOutConnection`. -/
def tryOutConnection (host : Str) (port : Int32) (w : NodeWorld) : NodeWorld × Int :=
  if ':' :: stdToString port.toInt = w.app.myName ∧ host ∈ loopbackHosts then (w, 0)
  else
    let c := w.next
    let w := w.create (PeerClientOut.new host port)
    let w := { w with app := { w.app with myPeers := w.app.myPeers ++ [⟨some c, true⟩] } }
    connect uv c w

/-- An update of one candidate in place. -/
def modifyCand (key : Str) (f : PeerCandidateInfo → PeerCandidateInfo) (w : NodeWorld) :
    NodeWorld :=
  { w with app := { w.app with myPeerCands := w.app.myPeerCands.modify key f } }

/-- The body of the loop in `NodeApp::tryOutConnections`. -/
def tryCandidate (w : NodeWorld) (key : Str) : NodeWorld :=
  match w.app.myPeerCands.find? key with
  | none => w
  | some i =>
      if i.myConnTryCount = 0 ∨ i.myConnTryCount < i.myToTry then
        if isPeerConnected w key true then w
        else
          let w := modifyCand key (fun i => { i with myConnTryCount := i.myConnTryCount + 1 }) w
          let (w, res) := tryOutConnection uv i.myHost i.myPort w
          if res = 0 then
            modifyCand key (fun i => { i with myConnectedCount := i.myConnectedCount + 1 }) w
          else w
      else w

/-- `NodeApp::tryOutConnections`: the candidates in key order. -/
def tryOutConnections (w : NodeWorld) : NodeWorld :=
  w.app.myPeerCands.keys.foldl (tryCandidate uv) w

/-! ## Gossip -/

/-- The keys `getConnectedPeers` collects: the canonical address of a connected peer. -/
def connectedCanon (w : NodeWorld) (p : PeerInfo) : Option Str :=
  match p.myClient with
  | none => none
  | some c =>
      if isConnected uv c (w.clients c) = true ∧ 0 < (w.clients c).myCanonPeerAddr.length then
        some (w.clients c).myCanonPeerAddr
      else none

/-- `NodeApp::getConnectedPeers`. -/
def getConnectedPeers (w : NodeWorld) : List Endpoint :=
  let peers : SortedMap Str Unit :=
    (w.app.myPeers.filterMap (connectedCanon uv w)).foldl (fun m k => m.insert k ()) .empty
  peers.keys.map Endpoint.ofString

/-- The loop of `NodeApp::sendOtherPeers`. -/
def sendOtherPeersLoop (c : ClientId) : List Endpoint → NodeWorld → NodeWorld
  | [], w => w
  | i :: rest, w =>
      if isConnected uv c (w.clients c) = false then w
      else if i.getEndpoint ≠ (w.clients c).myPeerAddr then
        sendOtherPeersLoop c rest (sendMessage uv c (.otherPeer i.myHost i.myPort) w).1
      else sendOtherPeersLoop c rest w

/-- `NodeApp::sendOtherPeers`. -/
def sendOtherPeers (c : ClientId) (w : NodeWorld) : NodeWorld :=
  sendOtherPeersLoop uv c (getConnectedPeers uv w) w

/-! ## Messages -/

/-- What `messageReceived` does once the canonical address of a handshaking peer has been
    worked out: remember it, and try to connect back to it. -/
def learnCanonical (c : ClientId) (canonHost : Str) (canonPort : Int32) (w : NodeWorld) :
    NodeWorld :=
  let w := w.modify c fun k => { k with myCanonPeerAddr := endpointText canonHost canonPort }
  let w := { w with app := w.app.addOutPeerCandidate canonHost canonPort 1 }
  tryOutConnections uv w

/-- `NodeApp::messageReceived`. -/
def messageReceived (c : ClientId) (msg : Message) (w : NodeWorld) : Outcome NodeApp :=
  match msg with
  | .handshake myVersion _ myAddr =>
      if myVersion ≠ textV01 then .returns (close c w).1
      else
        let peerEp := (w.clients c).myPeerAddr
        if isPeerConnected w peerEp false = false then .returns w
        else
          let w := (sendMessage uv c (.handshakeResponse textV01 w.app.myName peerEp) w).1
          let canonHost := (Endpoint.ofString peerEp).myHost
          if myAddr.take 1 ≠ [':'] then .returns (sendOtherPeers uv c w)
          else
            match stoi (myAddr.drop 1) with
            | .error e => .throws e w
            | .ok canonPort =>
                let w := if endpointText canonHost canonPort ≠ peerEp then
                    learnCanonical uv c canonHost canonPort w
                  else w
                .returns (sendOtherPeers uv c w)
  | .ping text =>
      .returns (sendMessage uv c (.pingResponse (textRespFrom ++ w.app.myName ++ textTo ++ text)) w).1
  | .otherPeer host port =>
      .returns (tryOutConnections uv { w with app := w.app.addOutPeerCandidate host port 1 })
  | .handshakeResponse _ _ _ => .returns w
  | .pingResponse _ => .returns w

/-- `NodeApp::listenStarted`. -/
def listenStarted (port : Int32) (w : NodeWorld) : NodeWorld :=
  tryOutConnections uv
    { w with app := { w.app with myName := ':' :: stdToString port.toInt } }

/-- `NodeApp::inConnectionReceived`. -/
def inConnectionReceived (c : ClientId) (w : NodeWorld) : NodeWorld :=
  { w with app := { w.app with myPeers := w.app.myPeers ++ [⟨some c, false⟩] } }

end

instance : App NodeApp where
  listenStarted := listenStarted
  inConnectionReceived := inConnectionReceived
  messageReceived := messageReceived
  sendOtherPeers := sendOtherPeers

/-- An extra peer of the start parameters: a candidate with a large budget. -/
def addExtraPeer (a : NodeApp) (extraPeer : Str) : NodeApp :=
  let extraPeerEp := Endpoint.ofString extraPeer
  a.addOutPeerCandidate extraPeerEp.myHost extraPeerEp.myPort 1000000

/-- The candidates `NodeApp::start` adds before it listens. -/
def addStartCandidates (extraPeers : List Str) (a : NodeApp) : NodeApp :=
  let a := (a.addOutPeerCandidate textLocalhost 5000 1).addOutPeerCandidate textLocalhost 5001 1
  (extraPeers.filter fun p => 0 < p.length).foldl addExtraPeer a

/-- `NodeApp::start`. -/
def start (uv : Uv) (params : AppParams) (w : NodeWorld) : NodeWorld :=
  let w := { w with app := w.app.addStartCandidates params.extraPeers }
  (startWithListen uv params.listenPort params.listenPortRange w).1

/-- `NodeApp::stop`. -/
def stop (w : NodeWorld) : Except StopFault NodeWorld := TcpUv.stop w

end NodeApp

/-! ## The node as a reactive system -/

/-- What can happen to a node. -/
inductive NodeEvent where
  | start (params : AppParams)
  | listenStarted (port : Int32)
  /-- the connection callback of the listening socket -/
  | newConnection (status acceptRes : Int)
  | client (c : ClientId) (cb : Callback)

/-- One event, from the event loop's point of view. -/
def nodeStep (uv : Uv) (w : NodeWorld) : NodeEvent → NodeWorld
  | .start params => NodeApp.start uv params w
  | .listenStarted port => NodeApp.listenStarted uv port w
  | .newConnection status acceptRes => onNewConnection uv status acceptRes w
  | .client c cb => (callback uv c w cb).settle

/-- The node and its environment: connections arrive on a listening socket, and each
    existing client gets the callbacks libuv may deliver to it. -/
def nodeSystem (uv : Uv) : Lib.System NodeWorld NodeEvent where
  step := nodeStep uv
  allowed w e := w.terminated = none ∧
    match e with
    | .start _ => True
    | .listenStarted _ => True
    | .newConnection _ _ => w.net.listening = true
    | .client c cb => c < w.next ∧ cb.allowed (w.clients c)

instance decidableNodeAllowed (uv : Uv) (w : NodeWorld) :
    ∀ e, Decidable ((nodeSystem uv).allowed w e)
  | .start _ => inferInstanceAs (Decidable (w.terminated = none ∧ True))
  | .listenStarted _ => inferInstanceAs (Decidable (w.terminated = none ∧ True))
  | .newConnection _ _ => inferInstanceAs (Decidable
      (w.terminated = none ∧ w.net.listening = true))
  | .client c cb => inferInstanceAs (Decidable
      (w.terminated = none ∧ c < w.next ∧ cb.allowed (w.clients c)))

/-- The node before `start`. -/
def NodeWorld.init : NodeWorld := World.init {}

/-- The states a node can be in. -/
def NodeReachable (uv : Uv) (w : NodeWorld) : Prop :=
  (nodeSystem uv).Reachable NodeWorld.init w

end TcpUv
