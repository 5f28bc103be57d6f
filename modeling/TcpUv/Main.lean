import TcpUv.Node

/-!
# The three programs' `main` — `node/main.cpp`, `client/client.cpp`, `server/server.cpp`

What each of them starts, and with which parameters. The node's are read off the command line:
`processArgs` walks over the words, takes the one after a flag for the flag's value, and passes
over words it does not know. A port that `stoi` rejects ends the program.
-/

set_option autoImplicit false

namespace TcpUv

/-- `"-peer"` -/
def textPeer : Str := ['-', 'p', 'e', 'e', 'r']
/-- `"-port"` -/
def textPort : Str := ['-', 'p', 'o', 'r', 't']

/-- The parameters of the client program and of the server. -/
def AppParams.small : AppParams := { listenPort := 5000, listenPortRange := 5 }

/-- `main` of the client program, up to where it runs the loop. -/
def ClientApp.main (uv : Uv) : World ClientApp := start uv .small (World.init {})

/-- **The client program as it is started** is a run of its three connections. -/
theorem ClientApp.main_eq (uv : Uv) :
    ClientApp.main uv = (clientSystem uv).run (World.init {})
      [.newClient textLocalhost 5000 3, .newClient textLocalhost 5001 4,
        .newClient textLocalhost 5002 5] := rfl

/-- `main` of the server, up to where it waits for Enter. -/
def ServerApp.main (uv : Uv) : World ServerApp := start uv .small ServerRun.init.world

/-- **The server as it is started** takes the three steps of `start`, if nothing comes between
    them. -/
theorem ServerApp.main_eq (uv : Uv) :
    ServerApp.main uv = ((serverSystem uv).run ServerRun.init
      [.listen .small, .startUvLoop, .setName]).world :=
  ServerApp.start_eq uv .small ServerRun.init.world

namespace NodeApp

/-- The loop of `processArgs`, over the words that are left. -/
def processArgsFrom : List Str → AppParams → Except StdException AppParams
  | [], params => .ok params
  | arg :: rest, params =>
      if arg = textPeer then
        match rest with
        | [] => .ok params
        | peer :: rest =>
            processArgsFrom rest { params with extraPeers := params.extraPeers ++ [peer] }
      else if arg = textPort then
        match rest with
        | [] => .ok params
        | port :: rest =>
            match stoi port with
            | .error e => .error e
            | .ok listenPort =>
                processArgsFrom rest { params with listenPort := listenPort, listenPortRange := 1 }
      else processArgsFrom rest params

/-- `processArgs`. -/
def processArgs (params : AppParams) (argv : List Str) : Except StdException AppParams :=
  processArgsFrom argv { params with extraPeers := [] }

/-- `main` of the node, up to where it waits for Enter. -/
def main (uv : Uv) (argv : List Str) : Except StdException NodeWorld :=
  match processArgs { listenPort := 5000, listenPortRange := 10 } argv with
  | .error e => .error e
  | .ok params => .ok (start uv params NodeWorld.init)

/-- **The node as it is started**, on a command line it takes. -/
theorem main_ok {uv : Uv} {argv : List Str} {w : NodeWorld} (h : main uv argv = .ok w) :
    ∃ params, processArgs { listenPort := 5000, listenPortRange := 10 } argv = .ok params ∧
      w = (nodeSystem uv).run NodeWorld.init [.start params] := by
  unfold main at h
  cases hparams : processArgs { listenPort := 5000, listenPortRange := 10 } argv with
  | error e =>
    rw [hparams] at h
    cases h
  | ok params =>
    rw [hparams] at h
    exact ⟨params, rfl, (Except.ok.inj h).symm⟩

end NodeApp

end TcpUv
