import TcpUv.NetClient

/-!
# Listening and accepting — `lib/net_handler.cpp`

The part of `NetHandler` that touches connections: trying ports until one can be
listened on, starting and stopping the loop thread, and turning an accepted socket into a
client object the app is told about and reads are started on.

`stopUvLoop` uses what `startUvLoop` made, an async handle and a thread. What happens
without them is not left open: the model answers with the fault.
-/

set_option autoImplicit false

namespace TcpUv

variable {σ : Type} [App σ] (uv : Uv)

/-- `NetHandler::doBindAndListen`. -/
def doBindAndListen (port : Int32) : Int :=
  let res := uv.tcpBind port
  if res ≠ 0 then res
  else
    let res := uv.listen port
    if res ≠ 0 then res else 0

/-- The loop of `NetHandler::doListen`, with the number of ports still to try. -/
def doListenFrom : Nat → Int32 → World σ → World σ × Int32
  | 0, _, w => (w, -1)
  | n + 1, port, w =>
      if doBindAndListen uv port = 0 then
        (App.listenStarted uv port { w with net := { w.net with listening := true } }, port)
      else doListenFrom n (port + 1) w

/-- `NetHandler::doListen`. -/
def doListen (portIn tryNextPorts : Int32) (w : World σ) : World σ × Int32 :=
  doListenFrom uv (max (min tryNextPorts.toInt 10) 1).toNat portIn w

/-- `NetHandler::startUvLoop`. -/
def startUvLoop (w : World σ) : World σ :=
  { w with net := { w.net with myBgThreadStop := false, uvAsync := true, bgThread := true } }

/-- `NetHandler::startWithListen`. -/
def startWithListen (portIn tryNextPorts : Int32) (w : World σ) : World σ × Int32 :=
  let (w, actualPort) := doListen uv portIn tryNextPorts w
  if actualPort ≤ 0 then (w, actualPort) else (startUvLoop w, actualPort)

/-- What `stopUvLoop` can run into. -/
inductive StopFault where
  /-- `uv_async_send` on a `myUvAsync` that was never set -/
  | asyncUninitialised
  /-- `join` on a thread object that holds no thread: `std::system_error` -/
  | notJoinable
  deriving DecidableEq, Repr

/-- `NetHandler::stopUvLoop`. -/
def stopUvLoop {τ : Type} (w : World τ) : Except StopFault (World τ) :=
  let w := { w with net := { w.net with myBgThreadStop := true } }
  if w.net.uvAsync = false then .error .asyncUninitialised
  else if w.net.bgThread = false then .error .notJoinable
  else .ok { w with net := { w.net with bgThread := false } }

/-- `NetHandler::stop`. -/
def stop {τ : Type} (w : World τ) : Except StopFault (World τ) := stopUvLoop w

/-- `NetHandler::onNewConnection`; `acceptRes` is what `uv_accept` answers. -/
def onNewConnection (status acceptRes : Int) (w : World σ) : World σ :=
  if status < 0 then w
  else if acceptRes < 0 then w
  else
    let c := w.next
    let w := w.create (NetClientIn.new (getRemoteAddress uv (uv.getpeername c 1)))
    let w := App.inConnectionReceived c w
    (doRead uv c w).1

end TcpUv
