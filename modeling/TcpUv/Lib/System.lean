import Mathlib.Data.List.Induction
import Mathlib.Tactic.Common

/-!
# Event-driven systems

A component that only ever reacts: a state, a total reaction to each event, and a
predicate saying which events its environment may deliver in which state. A *run* is a
list of events; it is *valid* when every event was allowed where it was delivered.

The rules: an invariant of one allowed reaction is an invariant of every valid run
(`run_invariant`), and the same when every step of the run meets a condition
(`run_invariant_along`) — the shape of a result that holds except where a known defect
is reached. `Reachable` is the existential form, and `reachable_invariant` its rule. A relation
between the states of two systems that every event preserves relates their runs (`run_related`).
-/

set_option autoImplicit false

namespace TcpUv.Lib

/-- A reactive component and what its environment may do to it. -/
structure System (S E : Type) where
  step : S → E → S
  allowed : S → E → Prop

namespace System

variable {S E : Type} (M : System S E)

/-- The state after a list of events. -/
def run (s : S) : List E → S
  | [] => s
  | e :: es => run (M.step s e) es

/-- Every step of the run, with the state it is taken from, meets a condition. -/
def Along (P : S → E → Prop) (s : S) : List E → Prop
  | [] => True
  | e :: es => P s e ∧ Along P (M.step s e) es

/-- Every event was one the environment may deliver where it delivered it. -/
def Valid (s : S) (es : List E) : Prop := M.Along M.allowed s es

@[simp] theorem run_nil (s : S) : M.run s [] = s := rfl

@[simp] theorem run_cons (s : S) (e : E) (es : List E) :
    M.run s (e :: es) = M.run (M.step s e) es := rfl

@[simp] theorem valid_nil (s : S) : M.Valid s [] := trivial

@[simp] theorem valid_cons (s : S) (e : E) (es : List E) :
    M.Valid s (e :: es) ↔ M.allowed s e ∧ M.Valid (M.step s e) es := Iff.rfl

theorem run_append (s : S) (es fs : List E) :
    M.run s (es ++ fs) = M.run (M.run s es) fs := by
  induction es generalizing s with
  | nil => rfl
  | cons e es ih => exact ih (M.step s e)

theorem along_append (P : S → E → Prop) (s : S) (es fs : List E) :
    M.Along P s (es ++ fs) ↔ M.Along P s es ∧ M.Along P (M.run s es) fs := by
  induction es generalizing s with
  | nil => simp [Along]
  | cons e es ih => simp [Along, ih, and_assoc]

theorem along_snoc (P : S → E → Prop) (s : S) (es : List E) (e : E) :
    M.Along P s (es ++ [e]) ↔ M.Along P s es ∧ P (M.run s es) e := by
  rw [along_append]
  exact and_congr_right fun _ => ⟨fun h => h.1, fun h => ⟨h, trivial⟩⟩

theorem valid_append (s : S) (es fs : List E) :
    M.Valid s (es ++ fs) ↔ M.Valid s es ∧ M.Valid (M.run s es) fs :=
  M.along_append M.allowed s es fs

theorem along_of_forall {P : S → E → Prop} (h : ∀ s e, P s e) (s : S) (es : List E) :
    M.Along P s es := by
  induction es generalizing s with
  | nil => trivial
  | cons e es ih => exact ⟨h s e, ih (M.step s e)⟩

/-- A condition that can be evaluated step by step can be evaluated along a run. -/
instance decidableAlong {P : S → E → Prop} [∀ s e, Decidable (P s e)] :
    ∀ (s : S) (es : List E), Decidable (M.Along P s es)
  | _, [] => .isTrue trivial
  | s, e :: es =>
      have : Decidable (M.Along P (M.step s e) es) := decidableAlong (M.step s e) es
      inferInstanceAs (Decidable (P s e ∧ M.Along P (M.step s e) es))

instance decidableValid [∀ s e, Decidable (M.allowed s e)] (s : S) (es : List E) :
    Decidable (M.Valid s es) := M.decidableAlong s es

variable {M}

/-- Two conditions on the steps of a run are one. -/
theorem Along.and {P Q : S → E → Prop} {es : List E} {s : S} (hp : M.Along P s es)
    (hq : M.Along Q s es) : M.Along (fun s e => P s e ∧ Q s e) s es := by
  induction es generalizing s with
  | nil => trivial
  | cons e es ih => exact ⟨⟨hp.1, hq.1⟩, ih hp.2 hq.2⟩

/-- **Invariants along conditioned runs**: what every allowed step that meets the
    condition preserves holds at the end of a valid run all of whose steps meet it. -/
theorem run_invariant_along {P : S → E → Prop} {I : S → Prop}
    (hstep : ∀ s e, I s → M.allowed s e → P s e → I (M.step s e)) :
    ∀ {es : List E} {s : S}, I s → M.Valid s es → M.Along P s es → I (M.run s es) := by
  intro es
  induction es with
  | nil => intro s hs _ _; exact hs
  | cons e es ih =>
    intro s hs hv hp
    exact ih (hstep s e hs hv.1 hp.1) hv.2 hp.2

/-- **Invariants that know the run**: the same, of a property of the state and of the events that
    led to it. -/
theorem run_invariant_recorded {P : S → E → Prop} {I : List E → S → Prop} {s₀ : S}
    (hstep : ∀ es e, I es (M.run s₀ es) → M.allowed (M.run s₀ es) e → P (M.run s₀ es) e →
      I (es ++ [e]) (M.step (M.run s₀ es) e))
    (hs : I [] s₀) {es : List E} (hv : M.Valid s₀ es) (hp : M.Along P s₀ es) :
    I es (M.run s₀ es) := by
  induction es using List.reverseRecOn with
  | nil => exact hs
  | append_singleton es e ih =>
    obtain ⟨hv, ha, -⟩ := (M.valid_append _ _ _).mp hv
    obtain ⟨hp, hpe, -⟩ := (M.along_append _ _ _ _).mp hp
    rw [run_append]
    exact hstep es e (ih hv hp) ha hpe

/-- **Invariants of valid runs.** -/
theorem run_invariant {I : S → Prop}
    (hstep : ∀ s e, I s → M.allowed s e → I (M.step s e))
    {es : List E} {s : S} (hs : I s) (hv : M.Valid s es) : I (M.run s es) := by
  induction es generalizing s with
  | nil => exact hs
  | cons e es ih => exact ih (hstep s e hs hv.1) hv.2

/-- **Conditions read off the end of a run**: what no event brings about held all along, where it
    holds at the end. -/
theorem along_of_run {C I : S → Prop} (hI : ∀ s e, I s → M.allowed s e → I (M.step s e))
    (hC : ∀ s e, I s → M.allowed s e → C (M.step s e) → C s) :
    ∀ {es : List E} {s : S}, I s → M.Valid s es → C (M.run s es) →
      C s ∧ M.Along (fun s _ => C s) s es := by
  intro es
  induction es with
  | nil => intro s _ _ hend; exact ⟨hend, trivial⟩
  | cons e es ih =>
    intro s hs hv hend
    obtain ⟨hnext, halong⟩ := ih (hI s e hs hv.1) hv.2 hend
    exact ⟨hC s e hs hv.1 hnext, hC s e hs hv.1 hnext, halong⟩

/-- A condition on the events of a run. -/
theorem along_of_mem {P : E → Prop} {s : S} {es : List E} (h : ∀ e ∈ es, P e) :
    M.Along (fun _ e => P e) s es := by
  induction es generalizing s with
  | nil => trivial
  | cons e es ih =>
    exact ⟨h e List.mem_cons_self, ih fun e' he' => h e' (List.mem_cons_of_mem e he')⟩

/-- **Conditions on runs**: what holds of each step of a kind of run that is closed under
    beginnings. -/
theorem along_of_runs {K : List E → Prop} {P : S → E → Prop} {s : S}
    (hbefore : ∀ es e, K (es ++ [e]) → K es)
    (hstep : ∀ es e, K (es ++ [e]) → P (M.run s es) e) :
    ∀ {es : List E}, K es → M.Along P s es := by
  intro es
  induction es using List.reverseRecOn with
  | nil => exact fun _ => trivial
  | append_singleton es e ih =>
    exact fun h => (M.along_snoc P s es e).mpr ⟨ih (hbefore es e h), hstep es e h⟩

/-- A state some valid run from `s₀` ends in. -/
def Reachable (M : System S E) (s₀ s : S) : Prop :=
  ∃ es, M.Valid s₀ es ∧ M.run s₀ es = s

theorem Reachable.refl (s : S) : M.Reachable s s := ⟨[], trivial, rfl⟩

theorem Reachable.step {s₀ s : S} {e : E} (h : M.Reachable s₀ s) (he : M.allowed s e) :
    M.Reachable s₀ (M.step s e) := by
  obtain ⟨es, hv, rfl⟩ := h
  refine ⟨es ++ [e], (M.valid_append _ _ _).mpr ⟨hv, he, trivial⟩, ?_⟩
  rw [run_append]
  rfl

/-- **Invariants of reachable states.** -/
theorem reachable_invariant {I : S → Prop} {s₀ s : S} (h : M.Reachable s₀ s) (h₀ : I s₀)
    (hstep : ∀ s e, I s → M.allowed s e → I (M.step s e)) : I s := by
  obtain ⟨es, hv, rfl⟩ := h
  exact run_invariant hstep h₀ hv

/-- **Two runs of the same events.** -/
theorem run_related {S' : Type} {M' : System S' E} {R : S → S' → Prop}
    (hstep : ∀ s s' e, R s s' → R (M.step s e) (M'.step s' e)) {es : List E} {s : S} {s' : S'}
    (hs : R s s') : R (M.run s es) (M'.run s' es) := by
  induction es generalizing s s' with
  | nil => exact hs
  | cons e es ih => exact ih (hstep s s' e hs)

end System

end TcpUv.Lib
