import TcpUv.Lib.System
import Mathlib.Logic.Function.Basic

/-!
# Networks of components

Reactive components with ports, joined port to port by streams that keep what is put on them in
order. What a component has put on a port so far is read off its state; what an event takes off
the stream that comes in on a port is read off the event. A network takes one component's event
at a time, and lets it take only what stands next on the wire: in pieces of any size, any time
after it was put there.

The rule is assume–guarantee (`Contract`). A component promises something about what it puts on
its ports as long as what it takes off them is part of something promised at the other end; then
all of them keep their promises in every run (`Contract.run`). The circle is broken by the run:
what is taken was put on the wire before. That what was taken is a beginning of what was sent
comes with it (`Contract.fromWire`).
-/

set_option autoImplicit false

namespace TcpUv.Lib

/-- A reactive component as a network sees it. -/
structure Component (S E P β : Type) extends System S E where
  /-- what was put on the stream of a port so far -/
  sent : S → P → List β
  /-- what an event takes off the stream that comes in on a port -/
  takes : E → Option (P × List β)

/-- Components, and what each port is joined to. -/
structure Network (ι : Type) (S E : ι → Type) (P β : Type) where
  component : ∀ i, Component (S i) (E i) P β
  link : ι → P → Option (ι × P)

/-- What has been taken off each port, one event later. -/
def absorb {P β : Type} [DecidableEq P] (taken : P → List β) :
    Option (P × List β) → P → List β
  | none => taken
  | some (p, piece) => Function.update taken p (taken p ++ piece)

section

variable {P β : Type} [DecidableEq P] (taken : P → List β)

@[simp] theorem absorb_none : absorb taken none = taken := rfl

@[simp] theorem absorb_self (p : P) (piece : List β) :
    absorb taken (some (p, piece)) p = taken p ++ piece := Function.update_self ..

theorem absorb_ne {p q : P} (h : q ≠ p) (piece : List β) :
    absorb taken (some (p, piece)) q = taken q := Function.update_of_ne h ..

end

namespace Network

variable {ι : Type} {S E : ι → Type} {P β : Type}

/-- The components' states, and what each has taken off each of its ports. -/
structure State (S : ι → Type) (P β : Type) where
  node : ∀ i, S i
  taken : ι → P → List β

/-- Before anything was taken. -/
def State.init (node : ∀ i, S i) : State S P β := ⟨node, fun _ _ => []⟩

variable (N : Network ι S E P β)

/-- What is on the wire towards a port begins like this. -/
def Carries (n : State S P β) (i : ι) (p : P) (l : List β) : Prop :=
  ∃ q ∈ N.link i p, l <+: (N.component q.1).sent (n.node q.1) q.2

instance decidableCarries [DecidableEq β] (n : State S P β) (i : ι) (p : P) (l : List β) :
    Decidable (N.Carries n i p l) :=
  match h : N.link i p with
  | none => .isFalse fun ⟨_, hq, _⟩ => by simp [h] at hq
  | some q => decidable_of_iff (l <+: (N.component q.1).sent (n.node q.1) q.2)
      ⟨fun hl => ⟨q, h, hl⟩, fun ⟨_, hq, hl⟩ => Option.some.inj (h.symm.trans hq) ▸ hl⟩

variable [DecidableEq ι] [DecidableEq P]

def step (n : State S P β) (e : (i : ι) × E i) : State S P β where
  node := Function.update n.node e.1 ((N.component e.1).step (n.node e.1) e.2)
  taken := Function.update n.taken e.1 (absorb (n.taken e.1) ((N.component e.1).takes e.2))

/-- The network as a system of its own: any component may take its next event, and takes off the
    wire what stands there. -/
def system : System (State S P β) ((i : ι) × E i) where
  step := N.step
  allowed n e := (N.component e.1).allowed (n.node e.1) e.2 ∧
    ∀ x ∈ (N.component e.1).takes e.2, N.Carries n e.1 x.1 (n.taken e.1 x.1 ++ x.2)

instance decidableAllowed [DecidableEq β]
    [∀ i (s : S i) (e : E i), Decidable ((N.component i).allowed s e)] (n : State S P β)
    (e : (i : ι) × E i) : Decidable (N.system.allowed n e) :=
  have : Decidable (∀ x ∈ (N.component e.1).takes e.2,
      N.Carries n e.1 x.1 (n.taken e.1 x.1 ++ x.2)) :=
    match h : (N.component e.1).takes e.2 with
    | none => .isTrue fun _ hx => by simp at hx
    | some x => decidable_of_iff (N.Carries n e.1 x.1 (n.taken e.1 x.1 ++ x.2)) (by simp)
  inferInstanceAs (Decidable (_ ∧ _))

section

variable {N} {n : State S P β} {i : ι}

theorem node_self (e : E i) : (N.system.step n ⟨i, e⟩).node i = (N.component i).step (n.node i) e :=
  Function.update_self ..

theorem node_ne {j : ι} (h : j ≠ i) (e : E i) : (N.system.step n ⟨i, e⟩).node j = n.node j :=
  Function.update_of_ne h ..

theorem taken_self (e : E i) :
    (N.system.step n ⟨i, e⟩).taken i = absorb (n.taken i) ((N.component i).takes e) :=
  Function.update_self ..

theorem taken_ne {j : ι} (h : j ≠ i) (e : E i) : (N.system.step n ⟨i, e⟩).taken j = n.taken j :=
  Function.update_of_ne h ..

end

/-! ## One component's part of a run -/

/-- The events of one component, in order. -/
def mine (i : ι) (es : List ((i : ι) × E i)) : List (E i) :=
  es.filterMap fun e => if h : e.1 = i then some (h ▸ e.2) else none

omit [DecidableEq P] in
theorem mine_self (i : ι) (e : E i) (es : List ((i : ι) × E i)) :
    mine i (⟨i, e⟩ :: es) = e :: mine i es :=
  List.filterMap_cons_some (dif_pos rfl)

omit [DecidableEq P] in
theorem mine_ne {i j : ι} (h : j ≠ i) (e : E j) (es : List ((i : ι) × E i)) :
    mine i (⟨j, e⟩ :: es) = mine i es :=
  List.filterMap_cons_none (dif_neg h)

/-- **A run of the network is a run of each of its components.** -/
theorem node_run (i : ι) : ∀ {es : List ((i : ι) × E i)} {n : State S P β}, N.system.Valid n es →
    (N.component i).Valid (n.node i) (mine i es) ∧
      (N.system.run n es).node i = (N.component i).run (n.node i) (mine i es) := by
  intro es
  induction es with
  | nil => intro n _; exact ⟨trivial, rfl⟩
  | cons e es ih =>
    intro n hv
    obtain ⟨j, e⟩ := e
    obtain ⟨hvalid, hrun⟩ := ih hv.2
    by_cases hj : j = i
    · subst hj
      rw [node_self] at hvalid hrun
      rw [mine_self]
      exact ⟨⟨hv.1.1, hvalid⟩, hrun⟩
    · rw [node_ne (Ne.symm hj)] at hvalid hrun
      rw [mine_ne hj]
      exact ⟨hvalid, hrun⟩

/-! ## Assume and guarantee -/

/-- An invariant `I` of each component and of what it has taken; a promise `G` about what is put on
    each port; and conditions, `C` on the states the components go through and `D` on the events
    they meet there. -/
structure Contract (C : ∀ i, S i → Prop) (D : ∀ i, S i → E i → Prop)
    (I : ∀ i, S i → (P → List β) → Prop) (G : ι → P → List β → Prop) : Prop where
  /-- the promise is kept … -/
  guarantee : ∀ {i s a}, I i s a → C i s → ∀ p, G i p ((N.component i).sent s p)
  /-- … as long as what is taken is part of what was promised at the other end -/
  step : ∀ {i s a} {e : E i}, I i s a → C i s → D i s e → (N.component i).allowed s e →
    (∀ x ∈ (N.component i).takes e, ∃ q ∈ N.link i x.1, ∃ l, G q.1 q.2 l ∧ a x.1 ++ x.2 <+: l) →
    I i ((N.component i).step s e) (absorb a ((N.component i).takes e))
  /-- nothing is taken back -/
  grows : ∀ {i s a} {e : E i}, I i s a → (N.component i).allowed s e → ∀ p,
    (N.component i).sent s p <+: (N.component i).sent ((N.component i).step s e) p

/-- The conditions of a contract, on one event of a run. -/
def Meets (C : ∀ i, S i → Prop) (D : ∀ i, S i → E i → Prop) (n : State S P β)
    (e : (i : ι) × E i) : Prop :=
  (∀ i, C i (n.node i)) ∧ D e.1 (n.node e.1) e.2

namespace Contract

variable {N} {C : ∀ i, S i → Prop} {D : ∀ i, S i → E i → Prop}
  {I : ∀ i, S i → (P → List β) → Prop} {G : ι → P → List β → Prop} (h : N.Contract C D I G)

include h

/-- One event of one of them. -/
theorem preserved (n : State S P β) (e : (i : ι) × E i) (hI : ∀ i, I i (n.node i) (n.taken i))
    (ha : N.system.allowed n e) (hC : Meets C D n e) (j : ι) :
    I j ((N.system.step n e).node j) ((N.system.step n e).taken j) := by
  obtain ⟨i, e⟩ := e
  by_cases hj : j = i
  · subst hj
    rw [node_self, taken_self]
    refine h.step (hI j) (hC.1 j) hC.2 ha.1 fun x hx => ?_
    obtain ⟨q, hq, hpiece⟩ := ha.2 x hx
    exact ⟨q, hq, _, h.guarantee (hI q.1) (hC.1 q.1) q.2, hpiece⟩
  · rw [node_ne hj, taken_ne hj]
    exact hI j

/-- **All promises are kept** in a run that meets the conditions. -/
theorem run {n : State S P β} {es : List ((i : ι) × E i)} (hI : ∀ i, I i (n.node i) (n.taken i))
    (hv : N.system.Valid n es) (hC : N.system.Along (Meets C D) n es) :
    ∀ i, I i ((N.system.run n es).node i) ((N.system.run n es).taken i) :=
  System.run_invariant_along (I := fun n => ∀ i, I i (n.node i) (n.taken i)) h.preserved hI hv hC

/-- What was taken off a port is a beginning of what was put on its wire. -/
def FromWire (N : Network ι S E P β) (n : State S P β) : Prop :=
  ∀ i p, n.taken i p ≠ [] → N.Carries n i p (n.taken i p)

/-- What is on a wire stays on it. -/
theorem carries_step {n : State S P β} {e : (i : ι) × E i} (hI : ∀ i, I i (n.node i) (n.taken i))
    (ha : N.system.allowed n e) {j : ι} {p : P} {l : List β} (hl : N.Carries n j p l) :
    N.Carries (N.system.step n e) j p l := by
  obtain ⟨i, e⟩ := e
  obtain ⟨q, hq, hl⟩ := hl
  refine ⟨q, hq, hl.trans ?_⟩
  by_cases hqi : q.1 = i
  · obtain ⟨j', p'⟩ := q
    obtain rfl : j' = i := hqi
    rw [node_self]
    exact h.grows (hI j') ha.1 p'
  · simp only [node_ne hqi, List.prefix_rfl]

theorem fromWire_step (n : State S P β) (e : (i : ι) × E i)
    (hI : ∀ i, I i (n.node i) (n.taken i)) (hw : FromWire N n) (ha : N.system.allowed n e) :
    FromWire N (N.system.step n e) := by
  have hgrown : ∀ {j p l}, N.Carries n j p l → N.Carries (N.system.step n e) j p l :=
    fun hl => h.carries_step hI ha hl
  obtain ⟨i, e⟩ := e
  intro j p hne
  by_cases hj : j = i
  · subst hj
    rw [taken_self] at hne ⊢
    cases hx : (N.component j).takes e with
    | none =>
      rw [hx] at hne
      exact hgrown (hw j p hne)
    | some x =>
      obtain ⟨p', piece⟩ := x
      rw [hx] at hne
      by_cases hp : p = p'
      · subst hp
        rw [absorb_self]
        exact hgrown (ha.2 (p, piece) hx)
      · rw [absorb_ne _ hp] at hne ⊢
        exact hgrown (hw j p hne)
  · rw [taken_ne hj] at hne ⊢
    exact hgrown (hw j p hne)

/-- **Nothing is taken that was not sent**, and nothing out of turn. -/
theorem fromWire {node : ∀ i, S i} {es : List ((i : ι) × E i)} (hI : ∀ i, I i (node i) fun _ => [])
    (hv : N.system.Valid (.init node) es)
    (hC : N.system.Along (Meets C D) (.init node) es) :
    FromWire N (N.system.run (.init node) es) :=
  (System.run_invariant_along
    (I := fun n => (∀ i, I i (n.node i) (n.taken i)) ∧ FromWire N n)
    (fun n e hn ha hC => ⟨h.preserved n e hn.1 ha hC, h.fromWire_step n e hn.1 hn.2 ha⟩)
    ⟨hI, fun _ _ hne => absurd rfl hne⟩ hv hC).2

end Contract

end Network

end TcpUv.Lib
