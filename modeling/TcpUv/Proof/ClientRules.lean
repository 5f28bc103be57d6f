import TcpUv.App
import TcpUv.Proof.Local

/-!
# Runs of the client program

The app of the client program does nothing, so each of its connections is on its own: an
event creates one (`dial`) or moves one (`moved`), and the others stay where they are.
`ClientRule` turns a property of one connection that its own callbacks preserve into a
property of every run. A parser exception ends the process in the middle of a callback;
what still holds there is the weaker `K` of the rule.
-/

set_option autoImplicit false

namespace TcpUv

open Lib

/-- A libuv under which nothing fails, and a stream that reads already may be started again. -/
def Uv.lenient : Uv := { Uv.cooperative with readStart := fun _ _ => 0 }

namespace Client

/-- `onClose` under an app that does nothing. -/
def finish (k : Client) : Client :=
  ((({ k with tcp := { k.tcp with closed := true } } : Client).log .connectionClosed).log
    .deleteHandle).setState .closed

/-- A callback under an app that does nothing. -/
def moved (uv : Uv) (c : ClientId) (cb : Callback) (k : Client) : Client :=
  match cb with
  | .closed => k.finish
  | cb => k.move uv c textNone (fun _ k => k) cb

/-- What every connection of the client program is. -/
structure Scripted (k : Client) : Prop where
  kind : k.kind = .netClientOut
  attached : k.Attached
  timerActive : k.timerActive = false

theorem moved_eq {uv : Uv} {c : ClientId} {cb : Callback} (h : cb ≠ .closed) (k : Client) :
    k.moved uv c cb = k.move uv c textNone (fun _ k => k) cb := by
  cases cb with
  | closed => exact absurd rfl h
  | _ => rfl

end Client

/-! ## One event -/

section

variable (uv : Uv) {c d : ClientId} {w : World ClientApp}

theorem takesAs_clientApp (a : ClientApp) (m : Message) : TakesAs uv c a (fun _ k => k) m :=
  fun w _ _ => congrArg Outcome.returns (modify_id w c rfl).symm

theorem newClient_spec (host : Str) (port : Int32) (pingToSend : Int32) (w : World ClientApp) :
    (∃ res, (ClientApp.newClient uv host port pingToSend w).clients w.next =
        (NetClientOut.new host port pingToSend).dial res) ∧
      (∀ d, d ≠ w.next → (ClientApp.newClient uv host port pingToSend w).clients d = w.clients d) ∧
      (ClientApp.newClient uv host port pingToSend w).next = w.next + 1 := by
  have hguard : ¬ ((w.create (NetClientOut.new host port pingToSend)).clients w.next).Refuses :=
    Client.not_refuses_of_state .notConnected (by rw [World.clients_create_next]; rfl) (by decide)
  unfold ClientApp.newClient
  rw [connect_dial uv hguard]
  refine ⟨⟨_, by rw [World.clients_modify_self, World.clients_create_next]⟩, fun d hd => ?_, rfl⟩
  rw [World.clients_modify_ne _ _ hd, World.clients_create_ne _ _ hd]

/-- Callbacks of another connection leave this one alone. -/
theorem robustApp_elsewhere (hcd : c ≠ d) (k : Client) (n : ClientId) :
    RobustApp uv d (fun w : World ClientApp => w.clients c = k ∧ w.next = n) where
  quiet _ h := ⟨(World.clients_modify_ne _ _ hcd).trans h.1, h.2⟩
  connectionClosed h := h
  greets _ h := ⟨(World.clients_modify_ne _ _ hcd).trans h.1, h.2⟩
  sendOtherPeers h := h
  connected h _ := ⟨(World.clients_modify_ne _ _ hcd).trans h.1, h.2⟩
  buffer _ h := ⟨(World.clients_modify_ne _ _ hcd).trans h.1, h.2⟩
  message _ h := ⟨(World.clients_modify_ne _ _ hcd).trans h.1, h.2⟩

/-- The connection's own callback. -/
theorem clientStep_spec (h : (w.clients c).Scripted) {cb : Callback}
    (ha : cb.allowed (w.clients c)) :
    (clientStep uv w (.client c cb)).clients c = (w.clients c).moved uv c cb ∧
      (clientStep uv w (.client c cb)).next = w.next ∧
      ((clientStep uv w (.client c cb)).terminated = none ↔
        w.terminated = none ∧ cb.throws (w.clients c) = false) := by
  by_cases hclosed : cb = .closed
  · subst hclosed
    show (onClose c (w.modify c fun k =>
      { k with tcp := { k.tcp with closed := true } })).clients c = _ ∧ _
    refine ⟨?_, rfl, fun hnone => ⟨hnone, rfl⟩, fun h => h.1⟩
    rw [clients_onClose (fun _ => rfl), World.clients_modify_self]
    rfl
  · have htimer : cb ≠ .timer := by
      rintro rfl
      exact absurd (h.timerActive.symm.trans ha) (by simp)
    have hname : BaseApp.getName w.app = textNone := rfl
    obtain ⟨hworld, hthrew⟩ := callback_move uv reaction_none h.attached hname
      ⟨hclosed, htimer⟩ (fun hk => absurd (h.kind.symm.trans hk) (by simp))
      (fun m _ => takesAs_clientApp uv w.app m)
    refine ⟨?_, ?_, ?_⟩
    · show (callback uv c w cb).settle.clients c = _
      rw [Outcome.clients_settle, hworld, World.clients_modify_self, Client.moved_eq hclosed]
    · show (callback uv c w cb).settle.next = _
      rw [Outcome.next_settle, hworld]
      rfl
    · show (callback uv c w cb).settle.terminated = none ↔ _
      rw [← hthrew]
      cases hend : callback uv c w cb with
      | returns w' =>
        rw [hend] at hworld
        change w' = _ at hworld
        rw [hworld]
        exact ⟨fun hnone => ⟨hnone, rfl⟩, fun h => h.1⟩
      | throws e w' =>
        exact ⟨fun hnone => (by cases hnone), fun h => (by cases h.2)⟩

theorem clientStep_elsewhere (hcd : c ≠ d) (cb : Callback) :
    (clientStep uv w (.client d cb)).clients c = w.clients c ∧
      (clientStep uv w (.client d cb)).next = w.next := by
  have hthere := (robustApp_elsewhere uv hcd (w.clients c) w.next).callback (w := w) cb ⟨rfl, rfl⟩
  show (callback uv d w cb).settle.clients c = _ ∧ (callback uv d w cb).settle.next = _
  rw [Outcome.clients_settle, Outcome.next_settle]
  exact hthere

end

/-! ## Every run -/

/-- A property `J` of a connection that holds when it starts out, and that its callbacks
    preserve under a condition `P`; `K` is what is left of it when a callback throws. -/
structure ClientRule (uv : Uv) (c : ClientId) (P : Client → Callback → Prop)
    (J K : Client → Prop) : Prop where
  scripted : ∀ {k : Client}, J k → k.Scripted
  weaken : ∀ {k : Client}, J k → K k
  start : ∀ (host : Str) (port : Int32) (pingToSend : Int32) (res : Int),
    J ((NetClientOut.new host port pingToSend).dial res)
  move : ∀ {k : Client} {cb : Callback}, J k → cb.allowed k → P k cb →
    K (k.moved uv c cb) ∧ (cb.throws k = false → J (k.moved uv c cb))

/-- The condition, on the connection's own callbacks. -/
def OnClient (c : ClientId) (P : Client → Callback → Prop) (w : World ClientApp) :
    ClientEvent → Prop
  | .newClient _ _ _ => True
  | .client d cb => d = c → P (w.clients c) cb

namespace ClientRule

variable {uv : Uv} {c : ClientId} {P : Client → Callback → Prop} {J K : Client → Prop}

/-- The connection, once it exists, has the property. -/
def At (c : ClientId) (J K : Client → Prop) (w : World ClientApp) : Prop :=
  c < w.next → K (w.clients c) ∧ (w.terminated = none → J (w.clients c))

theorem step (h : ClientRule uv c P J K) (w : World ClientApp) (e : ClientEvent)
    (hw : At c J K w) (ha : (clientSystem uv).allowed w e) (hp : OnClient c P w e) :
    At c J K ((clientSystem uv).step w e) := by
  cases e with
  | newClient host port pingToSend =>
    obtain ⟨⟨res, hnew⟩, hold, hnext⟩ := newClient_spec uv host port pingToSend w
    intro hc
    change c < (ClientApp.newClient uv host port pingToSend w).next at hc
    rw [hnext] at hc
    show K ((ClientApp.newClient uv host port pingToSend w).clients c) ∧ (_ →
      J ((ClientApp.newClient uv host port pingToSend w).clients c))
    by_cases hself : c = w.next
    · subst hself
      rw [hnew]
      exact ⟨h.weaken (h.start host port pingToSend res),
        fun _ => h.start host port pingToSend res⟩
    · rw [hold c hself]
      obtain ⟨hK, hJ⟩ := hw (Nat.lt_of_le_of_ne (Nat.lt_succ_iff.mp hc) hself)
      exact ⟨hK, fun _ => hJ ha.1⟩
  | client d cb =>
    obtain ⟨hnone, hd, hcb⟩ := ha
    by_cases hcd : c = d
    · subst hcd
      have hJ := (hw hd).2 hnone
      obtain ⟨hclient, -, hthrows⟩ := clientStep_spec uv (h.scripted hJ) hcb
      obtain ⟨hK', hJ'⟩ := h.move hJ hcb (hp rfl)
      intro _
      show K ((clientStep uv w (.client c cb)).clients c) ∧ (_ →
        J ((clientStep uv w (.client c cb)).clients c))
      rw [hclient]
      exact ⟨hK', fun hterm => hJ' (hthrows.mp hterm).2⟩
    · obtain ⟨hclient, hnext⟩ := clientStep_elsewhere uv hcd cb (w := w)
      intro hc
      change c < (clientStep uv w (.client d cb)).next at hc
      show K ((clientStep uv w (.client d cb)).clients c) ∧ (_ →
        J ((clientStep uv w (.client d cb)).clients c))
      rw [hnext] at hc
      rw [hclient]
      exact ⟨(hw hc).1, fun _ => (hw hc).2 hnone⟩

/-- **Every run of the client program** whose callbacks on the connection meet the
    condition. -/
theorem run (h : ClientRule uv c P J K) {es : List ClientEvent}
    (hv : (clientSystem uv).Valid (World.init {}) es)
    (hp : (clientSystem uv).Along (OnClient c P) (World.init {}) es) :
    At c J K ((clientSystem uv).run (World.init {}) es) :=
  System.run_invariant_along (I := At c J K) h.step (fun hc => absurd hc (Nat.not_lt_zero c)) hv hp

end ClientRule

end TcpUv
