import Mathlib.Data.Fin.Basic
import Mathlib.Logic.Function.Basic
import Mathlib.Logic.Relation
import Mathlib.Tactic.Basic
import SendingSystem.Lib.Steps

/-!
# Interleaved workers

Any number of workers over one shared state. A worker has a local state, its
program counter and registers, and `act` says what its next atomic step does to
the shared state and to itself, or that it has none. A schedule is the list of
workers in the order they take their steps; it is a run when each step was
possible. Nothing is said about fairness: a statement about all schedules is
about all interleavings.

## Main definitions

* `Config`: The shared state and the local states.
* `step`: One worker's step.
* `run`: The steps of a schedule.
* `Solo`: A worker's steps while no other takes one.

## Theorems

* `step_eq_some`: What a step changes.
* `run_eq`: A run is one of `Steps`.
* `run_invariant`, `run_invariant_along`: What every step keeps, every run keeps.
* `run_of_solo`: Steps of one worker are a run.
-/

namespace SendingSystem

namespace Schedule

variable {n : Nat} {σ τ : Type}

/-- The shared state and the local state of each worker. -/
structure Config (n : Nat) (σ τ : Type) where
  shared : σ
  workers : Fin n → τ

/-- One step of worker `i`. -/
def step (act : σ → τ → Option (σ × τ)) (c : Config n σ τ) (i : Fin n) : Option (Config n σ τ) :=
  match act c.shared (c.workers i) with
  | none => none
  | some (s, t) => some ⟨s, Function.update c.workers i t⟩

/-- The steps of a schedule, one after the other. -/
def run (act : σ → τ → Option (σ × τ)) : Config n σ τ → List (Fin n) → Option (Config n σ τ)
  | c, [] => some c
  | c, i :: l =>
    match step act c i with
    | none => none
    | some c' => run act c' l

/-- A step changes the shared state and the worker that took it. -/
theorem step_eq_some {act : σ → τ → Option (σ × τ)} {c c' : Config n σ τ} {i : Fin n}
    (h : step act c i = some c') :
    ∃ t, act c.shared (c.workers i) = some (c'.shared, t) ∧
      c'.workers = Function.update c.workers i t := by
  unfold step at h
  cases hact : act c.shared (c.workers i) with
  | none => simp only [hact, reduceCtorEq] at h
  | some r =>
      simp only [hact, Option.some.injEq] at h
      subst h
      exact ⟨r.2, rfl, rfl⟩

theorem run_cons {act : σ → τ → Option (σ × τ)} {c c' : Config n σ τ} {i : Fin n}
    {l : List (Fin n)} (h : run act c (i :: l) = some c') :
    ∃ c₁, step act c i = some c₁ ∧ run act c₁ l = some c' := by
  rw [run] at h
  cases hstep : step act c i with
  | none => simp only [hstep, reduceCtorEq] at h
  | some c₁ =>
      simp only [hstep] at h
      exact ⟨c₁, rfl, h⟩

/-- What every step keeps, every run keeps. -/
theorem run_invariant {act : σ → τ → Option (σ × τ)} (inv : Config n σ τ → Prop)
    (hstep : ∀ c i c', inv c → step act c i = some c' → inv c') :
    ∀ (l : List (Fin n)) (c c' : Config n σ τ), inv c → run act c l = some c' → inv c' := by
  intro l
  induction l with
  | nil =>
      intro c c' hinv h
      rw [run, Option.some.injEq] at h
      exact h ▸ hinv
  | cons i l ih =>
      intro c c' hinv h
      rcases run_cons h with ⟨c₁, h₁, h⟩
      exact ih c₁ c' (hstep c i c₁ hinv h₁) h

/-- A schedule is a sequence of events of the system. -/
theorem run_eq (act : σ → τ → Option (σ × τ)) :
    ∀ (l : List (Fin n)) (c : Config n σ τ), run act c l = Steps.run (step act) c l := by
  intro l
  induction l with
  | nil =>
      intro c
      rfl
  | cons i l ih =>
      intro c
      rw [run, Steps.run]
      cases step act c i with
      | none => rfl
      | some c' => exact ih c'

/-- What every step that meets a condition keeps, a run of such steps keeps. -/
theorem run_invariant_along {act : σ → τ → Option (σ × τ)} {p : Config n σ τ → Fin n → Prop}
    (inv : Config n σ τ → Prop)
    (hstep : ∀ c i c', inv c → p c i → step act c i = some c' → inv c') (l : List (Fin n))
    (c c' : Config n σ τ) (halong : Steps.Along (step act) p c l) (hinv : inv c)
    (h : run act c l = some c') : inv c' := by
  rw [run_eq] at h
  exact Steps.run_invariant inv hstep l c c' halong hinv h

/-- A worker's steps while no other takes one. -/
def Solo (act : σ → τ → Option (σ × τ)) : σ × τ → σ × τ → Prop :=
  Relation.ReflTransGen fun a b => act a.1 a.2 = some b

/-- Steps of one worker are a run in which only it is scheduled. -/
theorem run_of_solo {act : σ → τ → Option (σ × τ)} {a b : σ × τ} (h : Solo act a b) (i : Fin n) :
    ∀ c : Config n σ τ, c.shared = a.1 → c.workers i = a.2 →
      ∃ k, run act c (List.replicate k i) = some ⟨b.1, Function.update c.workers i b.2⟩ := by
  induction h using Relation.ReflTransGen.head_induction_on with
  | refl =>
      intro c hshared hworker
      refine ⟨0, ?_⟩
      rw [List.replicate_zero, run, ← hshared, ← hworker, Function.update_eq_self]
  | @head a a' hstep _ ih =>
      intro c hshared hworker
      rcases ih ⟨a'.1, Function.update c.workers i a'.2⟩ rfl (Function.update_self ..) with ⟨k, hk⟩
      refine ⟨k + 1, ?_⟩
      rw [Function.update_idem] at hk
      have hact : step act c i = some ⟨a'.1, Function.update c.workers i a'.2⟩ := by
        simp only [step, hshared, hworker, hstep]
      rw [List.replicate_succ, run, hact]
      exact hk

end Schedule

end SendingSystem
