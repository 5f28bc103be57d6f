import Mathlib.Tactic.Common

/-!
# Monitors of a history

A safety property of what a component *did* is a monitor: a finite set of phases, and for
each phase the events it admits with the phase they lead to. A history is accepted when
the monitor runs through it. The rules: a history is accepted piece by piece
(`runFrom_append`), and while a history stays clear of the events that leave a set of
phases, every event in it is one such a phase admits (`stays`). An event that leads out of a
set of phases for good, and that no phase outside of it admits, happens once (`once`).
-/

set_option autoImplicit false

namespace TcpUv.Lib

/-- The phase an event leads to; `none` when the phase does not admit it. -/
structure Monitor (A Q : Type) where
  next : Q → A → Option Q

namespace Monitor

variable {A Q : Type} (M : Monitor A Q)

/-- The phase after a history, if the monitor admits it. -/
def runFrom (q : Q) : List A → Option Q
  | [] => some q
  | a :: as =>
      match M.next q a with
      | none => none
      | some q' => runFrom q' as

@[simp] theorem runFrom_nil (q : Q) : M.runFrom q [] = some q := rfl

theorem runFrom_cons_some {q q' : Q} {a : A} (h : M.next q a = some q') (as : List A) :
    M.runFrom q (a :: as) = M.runFrom q' as := by
  rw [runFrom, h]

theorem runFrom_append {q q' : Q} {l : List A} (h : M.runFrom q l = some q') (l' : List A) :
    M.runFrom q (l ++ l') = M.runFrom q' l' := by
  induction l generalizing q with
  | nil =>
    cases h
    rfl
  | cons a l ih =>
    rw [runFrom] at h
    cases hn : M.next q a with
    | none => rw [hn] at h; cases h
    | some q₁ =>
      rw [hn] at h
      rw [List.cons_append, runFrom_cons_some M hn]
      exact ih h

/-- The first piece of an admitted history is admitted. -/
theorem runFrom_split {q q'' : Q} {l l' : List A} (h : M.runFrom q (l ++ l') = some q'') :
    ∃ q', M.runFrom q l = some q' ∧ M.runFrom q' l' = some q'' := by
  induction l generalizing q with
  | nil => exact ⟨q, rfl, h⟩
  | cons a l ih =>
    rw [List.cons_append, runFrom] at h
    cases hn : M.next q a with
    | none => rw [hn] at h; cases h
    | some q₁ =>
      rw [hn] at h
      obtain ⟨q', hl, hl'⟩ := ih h
      exact ⟨q', by rw [runFrom_cons_some M hn]; exact hl, hl'⟩

variable {M}

/-- **Staying in a set of phases**: if from a phase in `P` an admitted event outside `X`
    satisfies `R` and leads to `P` again, then a history without `X` stays in `P`, and all
    of its events satisfy `R`. -/
theorem stays {P : Q → Prop} {X R : A → Prop}
    (hstep : ∀ q a q', P q → ¬ X a → M.next q a = some q' → P q' ∧ R a) :
    ∀ {l : List A} {q q' : Q}, P q → (∀ a ∈ l, ¬ X a) → M.runFrom q l = some q' →
      P q' ∧ ∀ a ∈ l, R a := by
  intro l
  induction l with
  | nil =>
    intro q q' hq _ h
    cases h
    exact ⟨hq, fun a ha => nomatch ha⟩
  | cons a l ih =>
    intro q q' hq hx h
    rw [runFrom] at h
    cases hn : M.next q a with
    | none => rw [hn] at h; cases h
    | some q₁ =>
      rw [hn] at h
      obtain ⟨hq₁, ha⟩ := hstep q a q₁ hq (hx a (by simp)) hn
      obtain ⟨hq', hl⟩ := ih hq₁ (fun b hb => hx b (List.mem_cons_of_mem a hb)) h
      refine ⟨hq', fun b hb => ?_⟩
      rcases List.mem_cons.mp hb with rfl | hb
      · exact ha
      · exact hl b hb

/-- **Once**: if an event `p` is admitted in `B` only and leads out of it, and no event but one of
    `X` leads back, then a history without `X` has at most one, and none from outside of `B`. -/
theorem once {B : Q → Prop} {X : A → Prop} {p : A → Bool}
    (hp : ∀ q a q', p a = true → M.next q a = some q' → B q ∧ ¬ B q')
    (hout : ∀ q a q', ¬ B q → ¬ X a → M.next q a = some q' → ¬ B q') :
    ∀ {l : List A} {q q' : Q}, (∀ a ∈ l, ¬ X a) → M.runFrom q l = some q' →
      l.countP p ≤ 1 ∧ (¬ B q → l.countP p = 0) := by
  intro l
  induction l with
  | nil => intro q q' _ _; exact ⟨Nat.zero_le 1, fun _ => rfl⟩
  | cons a l ih =>
    intro q q' hx h
    rw [runFrom] at h
    cases hn : M.next q a with
    | none => rw [hn] at h; cases h
    | some q₁ =>
      rw [hn] at h
      obtain ⟨hrest, hnone⟩ := ih (fun b hb => hx b (List.mem_cons_of_mem a hb)) h
      cases hpa : p a with
      | true =>
        obtain ⟨hb, hb₁⟩ := hp q a q₁ hpa hn
        rw [List.countP_cons_of_pos hpa, hnone hb₁]
        exact ⟨Nat.le_refl 1, fun hno => absurd hb hno⟩
      | false =>
        rw [List.countP_cons_of_neg (by simp [hpa])]
        exact ⟨hrest, fun hno => hnone (hout q a q₁ hno (hx a (by simp)) hn)⟩

end Monitor

end TcpUv.Lib
