import TcpUv.Lib.Network

/-!
# Talkers

The network of components that keeps nothing but what it is for: each component tells what it
likes on its ports, and hears, in order, what was told at the other end. It is what a network of
programs over byte streams comes to once the bytes are read as messages (`refines_talkers`): a
forward simulation, in which one event is one talk.

A reading of streams (`ρ`) and what each component has told by now (`v`) make the abstraction. The
reading of a piece is part of the reading of the whole, what is read off a wire was told, and
nothing told is taken back.
-/

set_option autoImplicit false

namespace TcpUv.Lib

variable {ι : Type} {P M : Type}

/-- What a component does at once: it hears something on a port, or nothing, and then tells
    something on each of them. -/
structure Talk (P M : Type) where
  hears : Option (P × List M)
  tells : P → List M

/-- A component that talks, and is what it has told. -/
def talker (P M : Type) : Component (P → List M) (Talk P M) P M where
  step told t := fun p => told p ++ t.tells p
  allowed _ _ := True
  sent told := told
  takes t := t.hears

/-- Talkers, joined like this. -/
def talkers (M : Type) (link : ι → P → Option (ι × P)) :
    Network ι (fun _ => P → List M) (fun _ => Talk P M) P M := ⟨fun _ => talker P M, link⟩

/-- What is left of a list after a beginning of it. -/
theorem append_drop_of_prefix {l l' : List M} (h : l <+: l') : l ++ l'.drop l.length = l' :=
  List.prefix_iff_eq_append.mp h

namespace Network

variable {S E : ι → Type} {β : Type} (N : Network ι S E P β) (ρ : List β → List M)
  (v : ∀ i, S i → P → List M)

/-- A state of the network, as a state of talkers. -/
def abstracted (n : State S P β) : State (fun _ : ι => P → List M) P M :=
  ⟨fun i => v i (n.node i), fun i p => ρ (n.taken i p)⟩

/-- What is read off the wires was told, and the event takes nothing of it back. -/
def Speaks (n : State S P β) (e : (i : ι) × E i) : Prop :=
  (∀ i p, ρ ((N.component i).sent (n.node i) p) <+: v i (n.node i) p) ∧
    ∀ p, v e.1 (n.node e.1) p <+: v e.1 ((N.component e.1).step (n.node e.1) e.2) p

variable [DecidableEq ι] [DecidableEq P]

/-- The talk of an event: what it adds to what was heard and told. -/
def talk (n : State S P β) (e : (i : ι) × E i) : (_ : ι) × Talk P M :=
  ⟨e.1,
    { hears := ((N.component e.1).takes e.2).map fun x =>
        (x.1, (ρ (n.taken e.1 x.1 ++ x.2)).drop (ρ (n.taken e.1 x.1)).length)
      tells := fun p => (v e.1 ((N.component e.1).step (n.node e.1) e.2) p).drop
        (v e.1 (n.node e.1) p).length }⟩

variable {N ρ v} {n : State S P β} {e : (i : ι) × E i}
  (hmono : ∀ {l l' : List β}, l <+: l' → ρ l <+: ρ l')

include hmono

/-- **One event is one talk.** -/
theorem step_talk (hs : N.Speaks ρ v n e) :
    (talkers M N.link).system.step (abstracted ρ v n) (N.talk ρ v n e) =
      abstracted ρ v (N.system.step n e) := by
  obtain ⟨i, e⟩ := e
  have hnode : ((talkers M N.link).system.step (abstracted ρ v n) (N.talk ρ v n ⟨i, e⟩)).node =
      (abstracted ρ v (N.system.step n ⟨i, e⟩)).node := by
    funext j p
    by_cases hj : j = i
    · subst hj
      show ((talkers M N.link).system.step _ ⟨j, (N.talk ρ v n ⟨j, e⟩).2⟩).node j p =
        v j ((N.system.step n ⟨j, e⟩).node j) p
      rw [node_self, node_self]
      exact append_drop_of_prefix (hs.2 p)
    · show ((talkers M N.link).system.step _ ⟨i, (N.talk ρ v n ⟨i, e⟩).2⟩).node j p =
        v j ((N.system.step n ⟨i, e⟩).node j) p
      rw [node_ne hj, node_ne hj]
      rfl
  have htaken : ((talkers M N.link).system.step (abstracted ρ v n) (N.talk ρ v n ⟨i, e⟩)).taken =
      (abstracted ρ v (N.system.step n ⟨i, e⟩)).taken := by
    funext j p
    by_cases hj : j = i
    · subst hj
      show ((talkers M N.link).system.step _ ⟨j, (N.talk ρ v n ⟨j, e⟩).2⟩).taken j p =
        ρ ((N.system.step n ⟨j, e⟩).taken j p)
      rw [taken_self, taken_self]
      show absorb (fun p => ρ (n.taken j p)) (((N.component j).takes e).map _) p = _
      cases hx : (N.component j).takes e with
      | none => rfl
      | some x =>
        by_cases hp : p = x.1
        · subst hp
          rw [absorb_self]
          refine Eq.trans (absorb_self ..) ?_
          exact append_drop_of_prefix (hmono (List.prefix_append _ _))
        · rw [absorb_ne _ hp]
          exact absorb_ne _ hp _
    · show ((talkers M N.link).system.step _ ⟨i, (N.talk ρ v n ⟨i, e⟩).2⟩).taken j p =
        ρ ((N.system.step n ⟨i, e⟩).taken j p)
      rw [taken_ne hj, taken_ne hj]
      rfl
  exact congrArg₂ State.mk hnode htaken

omit [DecidableEq ι] [DecidableEq P] in
/-- What is heard was told before. -/
theorem carries_talk {i : ι} {p : P} {l : List β} (hc : N.Carries n i p l) (hs : N.Speaks ρ v n e) :
    (talkers M N.link).Carries (abstracted ρ v n) i p (ρ l) := by
  obtain ⟨q, hq, hl⟩ := hc
  exact ⟨q, hq, (hmono hl).trans (hs.1 q.1 q.2)⟩

theorem allowed_talk (ha : N.system.allowed n e) (hs : N.Speaks ρ v n e) :
    (talkers M N.link).system.allowed (abstracted ρ v n) (N.talk ρ v n e) := by
  refine ⟨trivial, fun x hx => ?_⟩
  obtain ⟨y, hy, rfl⟩ := Option.map_eq_some_iff.mp hx
  have hcarries := carries_talk hmono (ha.2 y hy) hs
  rw [← append_drop_of_prefix (hmono (List.prefix_append (n.taken e.1 y.1) y.2))] at hcarries
  exact hcarries

/-- **Refinement.** What a network of speaking components does is what talkers may do, talk by
    talk. -/
theorem refines_talkers (hnil : ρ [] = []) {node : ∀ i, S i} (hinit : ∀ i p, v i (node i) p = [])
    {es : List ((i : ι) × E i)} (hv : N.system.Valid (.init node) es)
    (hs : N.system.Along (N.Speaks ρ v) (.init node) es) :
    ∃ talks, talks.map Sigma.fst = es.map Sigma.fst ∧
      (talkers M N.link).system.Valid (.init fun _ _ => []) talks ∧
      (talkers M N.link).system.run (.init fun _ _ => []) talks =
        abstracted ρ v (N.system.run (.init node) es) := by
  induction es using List.reverseRecOn with
  | nil =>
    refine ⟨[], rfl, trivial, ?_⟩
    exact congrArg₂ State.mk (funext fun i => funext fun p => (hinit i p).symm)
      (funext fun _ => funext fun _ => hnil.symm)
  | append_singleton es e ih =>
    obtain ⟨hv, ha, -⟩ := (System.valid_append _ _ _ _).mp hv
    obtain ⟨hs, hspeaks, -⟩ := (System.along_append _ _ _ _ _).mp hs
    obtain ⟨talks, hsame, hvalid, hrun⟩ := ih hv hs
    refine ⟨talks ++ [N.talk ρ v (N.system.run (.init node) es) e], ?_, ?_, ?_⟩
    · rw [List.map_append, List.map_append, hsame]
      rfl
    · refine (System.valid_append _ _ _ _).mpr ⟨hvalid, ?_, trivial⟩
      rw [hrun]
      exact allowed_talk hmono ha hspeaks
    · rw [System.run_append, System.run_append, hrun]
      exact step_talk hmono hspeaks

end Network

end TcpUv.Lib
