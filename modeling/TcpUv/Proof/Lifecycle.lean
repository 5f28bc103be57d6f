import TcpUv.Proof.NodeRules

/-!
# Starting and stopping

`startWithListen` against its description: the ports are tried in order, the app is told
of the first one that can be listened on, and nothing else is done to it (`started_eq`).
`stop` uses the async handle and the loop thread that `startUvLoop` makes; but `start`
returns before it gets there when no port is found, or when the port found is not
positive, and both programs call `stop` all the same. The result says for which outcomes
of the binds `stop` returns.
-/

set_option autoImplicit false

namespace TcpUv

open Lib

/-- An app that leaves the `NetHandler` to itself while it is told of the port. -/
class KeepsNet (σ : Type) [App σ] : Prop where
  listenStarted : ∀ (uv : Uv) (port : Int32) (w : World σ),
    (App.listenStarted uv port w).net = w.net

instance : KeepsNet ClientApp := ⟨fun _ _ _ => rfl⟩

instance : KeepsNet ServerApp := ⟨fun _ _ _ => rfl⟩

theorem net_connect {σ : Type} [BaseApp σ] (uv : Uv) (c : ClientId) (w : World σ) :
    (connect uv c w).1.net = w.net := by
  rcases connect_cases uv c w with ⟨-, heq⟩ | ⟨-, res, heq⟩
  · rw [heq]
  · rw [heq, World.net_modify]

theorem net_tryCandidate (uv : Uv) (w : NodeWorld) (key : Str) :
    (NodeApp.tryCandidate uv w key).net = w.net := by
  have hround := NodeApp.round_tryCandidate uv w key
  generalize NodeApp.tryCandidate uv w key = w' at hround ⊢
  cases hround with
  | skipped => rfl
  | self => rfl
  | attempted => exact net_connect uv w.next _
  | failed => exact net_connect uv w.next _

instance : KeepsNet NodeApp where
  listenStarted uv _ w :=
    NodeApp.rounds_preserve (I := fun w' => w'.net = w.net)
      (fun key _ w' h => (net_tryCandidate uv w' key).trans h) rfl

/-! ## The ports -/

/-- The first `n` ports from `portIn` on. -/
def portsFrom (n : Nat) (portIn : Int32) : List Int32 :=
  (List.range n).map fun i => portIn + Int32.ofNat i

/-- The ports `doListen` tries: `max(1, min(range, 10))` of them. -/
def listenPorts (portIn tryNextPorts : Int32) : List Int32 :=
  portsFrom (max (min tryNextPorts.toInt 10) 1).toNat portIn

/-- The first of them that can be bound and listened on. -/
def firstPort (uv : Uv) (portIn tryNextPorts : Int32) : Option Int32 :=
  (listenPorts portIn tryNextPorts).find? fun port => doBindAndListen uv port = 0

theorem portsFrom_succ (n : Nat) (portIn : Int32) :
    portsFrom (n + 1) portIn = portIn :: portsFrom n (portIn + 1) := by
  have hnext : ∀ i : Nat, portIn + Int32.ofNat (i + 1) = portIn + 1 + Int32.ofNat i := by
    intro i
    rw [Int32.add_assoc, Int32.add_comm 1, Int32.ofNat_add]
    rfl
  unfold portsFrom
  rw [List.range_succ_eq_map, List.map_cons, List.map_map]
  refine congrArg₂ List.cons (by simp) (List.map_congr_left fun i _ => ?_)
  exact hnext i

section

variable {σ : Type} [App σ] (uv : Uv)

/-- What `doListen` makes of the world when it listens on a port. -/
def listening (port : Int32) (w : World σ) : World σ :=
  App.listenStarted uv port { w with net := { w.net with listening := true } }

/-- **The loop is a search.** Induction on the number of ports left. -/
theorem doListenFrom_eq : ∀ (n : Nat) (portIn : Int32) (w : World σ),
    doListenFrom uv n portIn w =
      match (portsFrom n portIn).find? fun port => doBindAndListen uv port = 0 with
      | none => (w, -1)
      | some port => (listening uv port w, port) := by
  intro n
  induction n with
  | zero => intro portIn w; rfl
  | succ n ih =>
    intro portIn w
    rw [doListenFrom, portsFrom_succ]
    by_cases hbound : doBindAndListen uv portIn = 0
    · rw [if_pos hbound, List.find?_cons_of_pos (by simpa using hbound)]
      rfl
    · rw [if_neg hbound, List.find?_cons_of_neg (by simpa using hbound), ih]

/-- What `startWithListen` does, by the first port that can be listened on. -/
def started (portIn tryNextPorts : Int32) (w : World σ) : World σ × Int32 :=
  match firstPort uv portIn tryNextPorts with
  | none => (w, -1)
  | some port =>
      if port ≤ 0 then (listening uv port w, port)
      else (startUvLoop (listening uv port w), port)

theorem started_eq (portIn tryNextPorts : Int32) (w : World σ) :
    startWithListen uv portIn tryNextPorts w = started uv portIn tryNextPorts w := by
  unfold startWithListen doListen started firstPort listenPorts
  rw [doListenFrom_eq]
  generalize (portsFrom (max (min tryNextPorts.toInt 10) 1).toNat portIn).find?
    (fun port => doBindAndListen uv port = 0) = found
  cases found with
  | none => rfl
  | some port => rfl

/-! ## `stop` -/

/-- `stop` returns exactly if there is a handle to wake the loop by, and a thread to join. -/
theorem stop_returns_iff {τ : Type} (w : World τ) :
    (∃ w', stop w = .ok w') ↔ w.net.uvAsync = true ∧ w.net.bgThread = true := by
  unfold stop stopUvLoop
  dsimp only
  cases w.net.uvAsync with
  | false => simp
  | true =>
    cases w.net.bgThread with
    | false => simp
    | true => simp

variable [KeepsNet σ]

theorem net_listening (port : Int32) (w : World σ) :
    (listening uv port w).net = { w.net with listening := true } :=
  KeepsNet.listenStarted uv port _

/-- After `startWithListen` there is a loop thread exactly if a positive port was found. -/
theorem stop_started_iff (portIn tryNextPorts : Int32) {w : World σ} (hw : w.net = {}) :
    (∃ w', stop (startWithListen uv portIn tryNextPorts w).1 = .ok w') ↔
      ∃ port, firstPort uv portIn tryNextPorts = some port ∧ 0 < port := by
  rw [stop_returns_iff, started_eq]
  unfold started
  cases firstPort uv portIn tryNextPorts with
  | none => simp [hw]
  | some port =>
    have hnet := net_listening uv port w
    by_cases hpos : port ≤ 0
    · simp [hpos, hnet, hw]
    · have hlt : 0 < port := Int32.not_le.mp hpos
      simp [hpos, startUvLoop, hlt]

/-- **Starting and stopping.** The ports are tried in order; `listenStarted` is called once,
    with the first that can be listened on, or not at all; and a `stop` that follows
    returns exactly if there is such a port and it is positive. -/
theorem start_stop (portIn tryNextPorts : Int32) {w : World σ} (hw : w.net = {}) :
    startWithListen uv portIn tryNextPorts w = started uv portIn tryNextPorts w ∧
      ((∃ w', stop (startWithListen uv portIn tryNextPorts w).1 = .ok w') ↔
        ∃ port, firstPort uv portIn tryNextPorts = some port ∧ 0 < port) :=
  ⟨started_eq uv portIn tryNextPorts w, stop_started_iff uv portIn tryNextPorts hw⟩

end

/-- A libuv on which every port is taken (`UV_EADDRINUSE`). -/
def Uv.occupied : Uv := { Uv.cooperative with tcpBind := fun _ => -98 }

/-- A libuv on which port 5000 alone is taken. -/
def Uv.occupied5000 : Uv := { Uv.cooperative with tcpBind := fun p => if p = 5000 then -98 else 0 }

/-- A node that finds port 5000 taken listens on 5001, and can be stopped. -/
theorem start_stop_second_port :
    startWithListen Uv.occupied5000 5000 10 NodeWorld.init =
        (startUvLoop (listening Uv.occupied5000 5001 NodeWorld.init), 5001) ∧
      ∃ w', stop (startWithListen Uv.occupied5000 5000 10 NodeWorld.init).1 = .ok w' := by
  have hfirst : firstPort Uv.occupied5000 5000 10 = some 5001 := by decide
  obtain ⟨hstart, hstop⟩ := start_stop Uv.occupied5000 5000 10 (w := NodeWorld.init) rfl
  refine ⟨?_, hstop.mpr ⟨5001, hfirst, by decide⟩⟩
  rw [hstart, started, hfirst]
  rfl

/-- Where no port can be bound, `start` returns without a word, and `stop` wakes the loop
    through a pointer that was never set. -/
theorem stop_faults :
    ¬ ∃ w', NodeApp.stop (NodeApp.start Uv.occupied { listenPort := 5000, listenPortRange := 10 }
      NodeWorld.init) = .ok w' := by
  have hfault : NodeApp.stop (NodeApp.start Uv.occupied
      { listenPort := 5000, listenPortRange := 10 } NodeWorld.init) =
      .error .asyncUninitialised := rfl
  rw [hfault]
  simp

/-- The two programs: both return from `start` without a word where they found no port, and
    stop the same way. -/
theorem programs_stop_iff (uv : Uv) (params : AppParams) :
    ((∃ w', NodeApp.stop (NodeApp.start uv params NodeWorld.init) = .ok w') ↔
      ∃ port, firstPort uv params.listenPort params.listenPortRange = some port ∧ 0 < port) ∧
    ((∃ w', ServerApp.stop (ServerApp.start uv params ServerRun.init.world) = .ok w') ↔
      ∃ port, firstPort uv params.listenPort params.listenPortRange = some port ∧ 0 < port) := by
  refine ⟨stop_started_iff uv _ _ rfl, ?_⟩
  have hname : (ServerApp.start uv params ServerRun.init.world).net =
      (startWithListen uv params.listenPort params.listenPortRange ServerRun.init.world).1.net := by
    unfold ServerApp.start
    dsimp only
    split <;> rfl
  rw [← stop_started_iff uv params.listenPort params.listenPortRange
    (w := ServerRun.init.world) rfl, stop_returns_iff, ← hname]
  exact stop_returns_iff _

end TcpUv
