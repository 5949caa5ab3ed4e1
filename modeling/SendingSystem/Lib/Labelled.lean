import Mathlib.Logic.Basic

/-!
# Runs of a labelled relation

A system whose steps are a relation, with a label on each that says what an
observer sees of it. A run grows at its end, as a log does, so an invariant may
speak of the labels so far next to the state they led to.

## Main definitions

* `Run`: A run, with the labels of its steps in order.

## Theorems

* `Run.invariant`: What holds at first and is kept by every step, labels included.
* `Run.trans`: Runs compose, and so do their labels.
* `Run.imp`: A run of fewer kinds of steps is one of more.
* `Run.length_le`: Steps that use something up come to an end.
-/

namespace SendingSystem

namespace Labelled

variable {σ ε : Type} {step : σ → ε → σ → Prop}

/-- A run from `s`, with the labels of its steps in order. -/
inductive Run (step : σ → ε → σ → Prop) (s : σ) : List ε → σ → Prop where
  | nil : Run step s [] s
  | snoc {ls : List ε} {s' s'' : σ} {e : ε} (h : Run step s ls s') (hstep : step s' e s'') :
      Run step s (ls ++ [e]) s''

/-- What holds at first and is kept by every step holds at the end of every run. -/
theorem Run.invariant (inv : List ε → σ → Prop) {s : σ} (hstart : inv [] s)
    (hkeep : ∀ ls s' e s'', inv ls s' → step s' e s'' → inv (ls ++ [e]) s'') {ls : List ε} {s' : σ}
    (h : Run step s ls s') : inv ls s' := by
  induction h with
  | nil => exact hstart
  | snoc _ hstep ih => exact hkeep _ _ _ _ ih hstep

/-- Runs compose, and so do their labels. -/
theorem Run.trans {s s' s'' : σ} {ls ls' : List ε} (h : Run step s ls s')
    (h' : Run step s' ls' s'') : Run step s (ls ++ ls') s'' := by
  induction h' with
  | nil =>
      rw [List.append_nil]
      exact h
  | snoc _ hstep ih =>
      rw [← List.append_assoc]
      exact .snoc ih hstep

/-- A run of fewer kinds of steps is one of more. -/
theorem Run.imp {step' : σ → ε → σ → Prop} (himp : ∀ s e s', step s e s' → step' s e s') {s s' : σ}
    {ls : List ε} (h : Run step s ls s') : Run step' s ls s' := by
  induction h with
  | nil => exact .nil
  | snoc _ hstep ih => exact .snoc ih (himp _ _ _ hstep)

/-- Steps that use something up come to an end: a run is no longer than what it used. -/
theorem Run.length_le (left : σ → Nat) (hless : ∀ s e s', step s e s' → left s' < left s) {s s' : σ}
    {ls : List ε} (h : Run step s ls s') : ls.length + left s' ≤ left s := by
  induction h with
  | nil =>
      exact Nat.le_of_eq (Nat.zero_add _)
  | snoc _ hstep ih =>
      have hlast := hless _ _ _ hstep
      rw [List.length_append, List.length_singleton]
      omega

end Labelled

end SendingSystem
