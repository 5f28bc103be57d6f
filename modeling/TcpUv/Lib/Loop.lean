import Mathlib.Logic.Relation

/-!
# Loops

A `while` loop with its body as a function: a turn either leaves with a result or goes round
with a new state. `Comes` is the states the loop comes to from a state, `Ends` what it ends with,
and neither knows of any bound.

A model has to be a total function, so it runs the loop with fuel. `ends_run` is what makes that
harmless: under a measure that every turn lowers, a run with enough fuel is the loop itself.
-/

set_option autoImplicit false

namespace TcpUv.Lib

/-- What one turn of a loop does. -/
inductive Turn (S O : Type) where
  | exit (o : O)
  | again (s : S)

namespace Turn

variable {S O : Type} (body : S → Turn S O)

/-- The states the loop comes to. -/
def Comes : S → S → Prop := Relation.ReflTransGen fun s s' => body s = .again s'

/-- The loop ends, with this result. -/
def Ends (s : S) (o : O) : Prop := ∃ s', Comes body s s' ∧ body s' = .exit o

/-- The loop with fuel; `dflt` is what it gives when the fuel is gone. -/
def run (dflt : S → O) : Nat → S → O
  | 0, s => dflt s
  | fuel + 1, s =>
      match body s with
      | .exit o => o
      | .again s' => run dflt fuel s'

variable {body} {s s' : S} {o o' : O}

theorem Comes.refl (s : S) : Comes body s s := Relation.ReflTransGen.refl

theorem Comes.after {t : S} (h : body s = .again s') (ht : Comes body s' t) :
    Comes body s t := Relation.ReflTransGen.head h ht

/-- **Invariants of a loop**: what every turn that goes round preserves holds wherever the loop
    comes to. -/
theorem Comes.invariant {I : S → Prop} (h : Comes body s s') (hs : I s)
    (hstep : ∀ t t', I t → body t = .again t' → I t') : I s' := by
  induction h with
  | refl => exact hs
  | tail _ hturn ih => exact hstep _ _ ih hturn

theorem Ends.exit (h : body s = .exit o) : Ends body s o := ⟨s, .refl s, h⟩

theorem Ends.after (h : body s = .again s') (he : Ends body s' o) : Ends body s o := by
  obtain ⟨t, ht, hexit⟩ := he
  exact ⟨t, ht.after h, hexit⟩

/-- A loop ends with one result only. -/
theorem Ends.unique (h : Ends body s o) (h' : Ends body s o') : o = o' := by
  obtain ⟨t, ht, hexit⟩ := h
  obtain ⟨t', ht', hexit'⟩ := h'
  induction ht using Relation.ReflTransGen.head_induction_on with
  | refl =>
    cases ht' using Relation.ReflTransGen.head_induction_on with
    | refl => exact Turn.exit.inj (hexit.symm.trans hexit')
    | head hturn _ => exact absurd (hexit.symm.trans hturn) (by simp)
  | head hturn _ ih =>
    cases ht' using Relation.ReflTransGen.head_induction_on with
    | refl => exact absurd (hexit'.symm.trans hturn) (by simp)
    | head hturn' hrest =>
      obtain rfl := Turn.again.inj (hturn.symm.trans hturn')
      exact ih hrest

/-- **Enough fuel**: where every turn keeps `I` and lowers the measure, and a turn at measure
    zero leaves with the default, the loop ends with what the run computes. -/
theorem ends_run {dflt : S → O} {I : S → Prop} (measure : S → Nat)
    (hstep : ∀ s s', I s → body s = .again s' → I s' ∧ measure s' < measure s)
    (hzero : ∀ s, I s → measure s = 0 → body s = .exit (dflt s)) :
    ∀ (fuel : Nat) {s : S}, I s → measure s ≤ fuel → Ends body s (run body dflt fuel s) := by
  intro fuel
  induction fuel with
  | zero =>
    intro s hs hfuel
    exact .exit (hzero s hs (Nat.le_zero.mp hfuel))
  | succ fuel ih =>
    intro s hs hfuel
    rw [run]
    cases hturn : body s with
    | exit o => exact .exit hturn
    | again s' =>
      obtain ⟨hs', hlt⟩ := hstep s s' hs hturn
      exact .after hturn (ih hs' (by omega))

end Turn

end TcpUv.Lib
