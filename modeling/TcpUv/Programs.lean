import TcpUv.Lib.Network
import TcpUv.Node

/-!
# The three programs, and networks of them

The repository builds a client program, a server and a node. Each is a reactive system
already; here they become one type, so that a result can be about a connection of any of them,
and components of a network: what was put on the stream of a connection is read off its
history, and what a read callback brings is what it takes off.

A network joins connections to connections. Which of them is not decided here: `link` says
where the bytes that come in on a connection were put in, for any number of processes.
-/

set_option autoImplicit false

namespace TcpUv

open Lib (Component Network System)

/-- The bytes a callback brings. -/
def Callback.chunk : Callback → Option Str
  | .read nread (some base) => if 0 < nread then some base else none
  | _ => none

/-- The programs of the repository, each with the libuv it runs on. -/
inductive Program where
  | client (uv : Uv)
  | server (uv : Uv)
  | node (uv : Uv)

namespace Program

def uv : Program → Uv
  | .client uv => uv
  | .server uv => uv
  | .node uv => uv

/-- The state of a process that runs the program. -/
@[reducible] def Process : Program → Type
  | .client _ => World ClientApp
  | .server _ => ServerRun
  | .node _ => NodeWorld

@[reducible] def Event : Program → Type
  | .client _ => ClientEvent
  | .server _ => ServerEvent
  | .node _ => NodeEvent

/-- The process before `start`. -/
def init : (p : Program) → p.Process
  | .client _ => World.init {}
  | .server _ => ServerRun.init
  | .node _ => NodeWorld.init

def system : (p : Program) → System p.Process p.Event
  | .client uv => clientSystem uv
  | .server uv => serverSystem uv
  | .node uv => nodeSystem uv

/-- The connections of a process. -/
def conn : (p : Program) → p.Process → ClientId → Client
  | .client _, w => w.clients
  | .server _, s => s.world.clients
  | .node _, w => w.clients

/-- How many of them were created. -/
def count : (p : Program) → p.Process → ClientId
  | .client _, w => w.next
  | .server _, s => s.world.next
  | .node _, w => w.next

/-- The exception that ended the process. -/
def terminated : (p : Program) → p.Process → Option StdException
  | .client _, w => w.terminated
  | .server _, s => s.world.terminated
  | .node _, w => w.terminated

/-- The callback an event delivers, and to which connection. -/
def callback : (p : Program) → p.Event → Option (ClientId × Callback)
  | .client _, .client c cb => some (c, cb)
  | .server _, .client c cb => some (c, cb)
  | .node _, .client c cb => some (c, cb)
  | _, _ => none

instance decidableAllowed (p : Program) (s : p.Process) (e : p.Event) :
    Decidable (p.system.allowed s e) :=
  match p, s, e with
  | .client uv, w, e => decidableClientAllowed uv w e
  | .server uv, s, e => decidableServerAllowed uv s e
  | .node uv, w, e => decidableNodeAllowed uv w e

/-- Every connection of the process has the property. -/
def EachConn (p : Program) (J : Client → Prop) (s : p.Process) : Prop :=
  ∀ c < p.count s, J (p.conn s c)

/-! ## Networks -/

/-- The program as a network sees it. -/
def component (p : Program) : Component p.Process p.Event ClientId Char where
  toSystem := p.system
  sent s c := if c < p.count s then (p.conn s c).streamed.flatten else []
  takes e := (p.callback e).bind fun x => x.2.chunk.map fun chunk => (x.1, chunk)

end Program

section

variable {ι : Type} (prog : ι → Program) (link : ι → ClientId → Option (ι × ClientId))

/-- Processes that run these programs, their connections joined by `link`. -/
def network : Network ι (fun i => (prog i).Process) (fun i => (prog i).Event) ClientId Char where
  component i := (prog i).component
  link := link

/-- A state of the network. -/
abbrev NetworkState := Network.State (fun i => (prog i).Process) ClientId Char

/-- An event of one of its processes. -/
abbrev NetworkEvent := (i : ι) × (prog i).Event

/-- Before any of the programs has started. -/
def networkInit : NetworkState prog := .init fun i => (prog i).init

instance decidableNetworkAllowed [DecidableEq ι] (n : NetworkState prog) (e : NetworkEvent prog) :
    Decidable ((network prog link).system.allowed n e) :=
  have : ∀ i (s : (prog i).Process) (e : (prog i).Event),
      Decidable (((network prog link).component i).allowed s e) :=
    fun i s e => Program.decidableAllowed (prog i) s e
  Network.decidableAllowed (network prog link) n e

end

end TcpUv
