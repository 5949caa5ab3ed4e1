import Mathlib.Logic.Basic
import Mathlib.Tactic.Basic

/-!
# Runs of a partial step function

A system that takes one event at a time, where an event may be impossible. What
is said about every step of a run, `Along`, is said about the state before it and
the event, so two conditions that agree wherever an invariant holds agree along
every run.

## Main definitions

* `run`: The state after a sequence of events.
* `Along`: A condition on every step of a run.

## Theorems

* `run_invariant`: What every step that meets a condition keeps, a run of such
  steps keeps.
* `along_of_invariant`: A condition that an invariant gives holds along every run.
* `along_congr`: Conditions that agree under an invariant agree along every run.
-/

namespace SendingSystem

namespace Steps

variable {σ ε : Type} {step : σ → ε → Option σ} {p q : σ → ε → Prop}

/-- The state after a sequence of events, if each was possible. -/
def run (step : σ → ε → Option σ) : σ → List ε → Option σ
  | s, [] => some s
  | s, e :: l =>
    match step s e with
    | none => none
    | some s' => run step s' l

/-- Every event of the sequence happens in a state where the condition on it holds. -/
def Along (step : σ → ε → Option σ) (p : σ → ε → Prop) : σ → List ε → Prop
  | _, [] => True
  | s, e :: l => p s e ∧ ∀ s', step s e = some s' → Along step p s' l

instance decidableAlong [∀ s e, Decidable (p s e)] : ∀ s l, Decidable (Along step p s l)
  | _, [] => isTrue trivial
  | s, e :: l =>
    match h : step s e with
    | none =>
      decidable_of_iff (p s e) ⟨fun hp => ⟨hp, fun s' hs' => by rw [h] at hs'; cases hs'⟩, And.left⟩
    | some s' =>
      have := decidableAlong s' l
      decidable_of_iff (p s e ∧ Along step p s' l)
        ⟨fun hp => ⟨hp.1, fun s'' hs'' => by rw [h] at hs''; cases hs''; exact hp.2⟩,
          fun hp => ⟨hp.1, hp.2 s' h⟩⟩

theorem run_cons {s s' : σ} {e : ε} {l : List ε} (h : run step s (e :: l) = some s') :
    ∃ s₁, step s e = some s₁ ∧ run step s₁ l = some s' := by
  rw [run] at h
  cases hstep : step s e with
  | none => simp only [hstep, reduceCtorEq] at h
  | some s₁ =>
      simp only [hstep] at h
      exact ⟨s₁, rfl, h⟩

/-- What every step that meets a condition keeps, a run of such steps keeps. -/
theorem run_invariant (inv : σ → Prop)
    (hstep : ∀ s e s', inv s → p s e → step s e = some s' → inv s') :
    ∀ (l : List ε) (s s' : σ), Along step p s l → inv s → run step s l = some s' → inv s' := by
  intro l
  induction l with
  | nil =>
      intro s s' _ hinv h
      rw [run, Option.some.injEq] at h
      exact h ▸ hinv
  | cons e l ih =>
      intro s s' halong hinv h
      rcases run_cons h with ⟨s₁, h₁, h⟩
      exact ih s₁ s' (halong.2 s₁ h₁) (hstep s e s₁ hinv halong.1 h₁) h

/-- A condition that an invariant gives holds along every run. -/
theorem along_of_invariant (inv : σ → Prop) (hp : ∀ s e, inv s → p s e)
    (hstep : ∀ s e s', inv s → step s e = some s' → inv s') :
    ∀ (l : List ε) (s : σ), inv s → Along step p s l := by
  intro l
  induction l with
  | nil =>
      intro s _
      trivial
  | cons e l ih =>
      intro s hinv
      exact ⟨hp s e hinv, fun s' h => ih s' (hstep s e s' hinv h)⟩

/-- Conditions that agree under an invariant agree along every run. -/
theorem along_congr (inv : σ → Prop) (hpq : ∀ s e, inv s → (p s e ↔ q s e))
    (hstep : ∀ s e s', inv s → step s e = some s' → inv s') :
    ∀ (l : List ε) (s : σ), inv s → (Along step p s l ↔ Along step q s l) := by
  intro l
  induction l with
  | nil =>
      intro s _
      exact Iff.rfl
  | cons e l ih =>
      intro s hinv
      -- The conditions agree here, and the invariant takes that to the next state.
      rw [Along, Along, hpq s e hinv]
      exact and_congr_right fun _ =>
        forall_congr' fun s' => forall_congr' fun h => ih s' (hstep s e s' hinv h)

end Steps

end SendingSystem
