import Mathlib.Tactic.Basic

/-!
# Loops that may fault

A `while` loop of a language with undefined behaviour. One turn of the body
either faults, asks for another turn, or leaves the loop with a result; `run`
takes turns until one of the last two happens or the fuel is spent.

Fuel and faults both answer `none`, so `run body n s = some b` says three
things at once: no turn faulted, the loop ended within `n` turns, and it ended
with `b`. `run_total` is the rule that proves all three from an invariant and a
measure; a loop is reasoned about with it, not with an induction of its own.

## Main definitions

* `run`: Take turns of a body until it leaves the loop.
* `Visits`: The states a loop passes through.

## Theorems

* `run_total`: An invariant and a decreasing measure give a result.
* `visits_inv`: What every turn keeps holds of every state passed.
* `exists_last`: A loop that ends leaves from a state it passed.
* `run_mono`, `run_unique`: Fuel decides whether there is a result, not which.
-/

namespace SendingSystem

namespace Loop

/-- Take turns of `body` from `s`: a fault or an empty tank is `none`. -/
def run {σ β : Type} (body : σ → Option (σ ⊕ β)) : Nat → σ → Option β
  | 0, _ => none
  | n + 1, s =>
    match body s with
    | none => none
    | some (.inl s') => run body n s'
    | some (.inr b) => some b

/-- Total correctness. If every turn from a state of the invariant either stays
    in the invariant with a smaller measure or leaves with the postcondition,
    then a run whose fuel exceeds the measure leaves with the postcondition. -/
theorem run_total {σ β : Type} (body : σ → Option (σ ⊕ β)) (inv : σ → Prop) (post : β → Prop)
    (measure : σ → Nat)
    (hbody : ∀ s, inv s →
      (∃ s', body s = some (.inl s') ∧ inv s' ∧ measure s' < measure s) ∨
      (∃ b, body s = some (.inr b) ∧ post b)) :
    ∀ (n : Nat) (s : σ), inv s → measure s < n → ∃ b, run body n s = some b ∧ post b := by
  intro n
  induction n with
  | zero => intro s _ hlt; omega
  | succ k ih =>
      intro s hinv hlt
      rcases hbody s hinv with ⟨s', hs', hinv', hdec⟩ | ⟨b, hb, hpost⟩
      -- Another turn: the measure fell, so the remaining fuel still covers it.
      · rcases ih s' hinv' (by omega) with ⟨b, hrun, hpost⟩
        exact ⟨b, by simp only [run, hs', hrun], hpost⟩
      · exact ⟨b, by simp only [run, hb], hpost⟩

/-- More fuel gives the same result. -/
theorem run_mono {σ β : Type} {body : σ → Option (σ ⊕ β)} : ∀ {n m : Nat} {s : σ} {b : β},
    run body n s = some b → n ≤ m → run body m s = some b := by
  intro n
  induction n with
  | zero =>
      intro m s b h _
      simp only [run, reduceCtorEq] at h
  | succ k ih =>
      intro m s b h hle
      cases m with
      | zero => omega
      | succ m =>
          rw [run] at h ⊢
          -- A turn that is taken leaves one less of either bound.
          rcases hbody : body s with _ | s' | b'
          · simp only [hbody, reduceCtorEq] at h
          · simp only [hbody] at h ⊢
            exact ih h (by omega)
          · simp only [hbody] at h ⊢
            exact h

/-- A loop has one result. -/
theorem run_unique {σ β : Type} {body : σ → Option (σ ⊕ β)} {n m : Nat} {s : σ} {b b' : β}
    (h : run body n s = some b) (h' : run body m s = some b') : b = b' := by
  rcases Nat.le_total n m with hle | hle
  · exact Option.some.inj ((run_mono h hle).symm.trans h')
  · exact Option.some.inj (h.symm.trans (run_mono h' hle))

/-- The states at the head of the loop: where it starts, and where a turn ends that
    is not the last one. -/
inductive Visits {σ β : Type} (body : σ → Option (σ ⊕ β)) (s : σ) : σ → Prop
  | start : Visits body s s
  | turn {s' s'' : σ} : Visits body s s' → body s' = some (.inl s'') → Visits body s s''

/-- An invariant of the turns holds at the head of the loop, every time. -/
theorem visits_inv {σ β : Type} {body : σ → Option (σ ⊕ β)} {inv : σ → Prop}
    (hbody : ∀ {s s'}, inv s → body s = some (.inl s') → inv s') {s s' : σ} (hs : inv s)
    (h : Visits body s s') : inv s' := by
  induction h with
  | start => exact hs
  | turn _ hturn ih => exact hbody ih hturn

/-- A loop that ends leaves from a state it passed. -/
theorem exists_last {σ β : Type} {body : σ → Option (σ ⊕ β)} {n : Nat} {s : σ} {b : β}
    (h : run body n s = some b) : ∃ s', Visits body s s' ∧ body s' = some (.inr b) := by
  -- The states that are left to run through are visited from the start.
  have hgo : ∀ (n : Nat) (s' : σ), Visits body s s' → run body n s' = some b →
      ∃ s'', Visits body s s'' ∧ body s'' = some (.inr b) := by
    intro n
    induction n with
    | zero =>
        intro s' _ hrun
        simp only [run, reduceCtorEq] at hrun
    | succ n ih =>
        intro s' hs' hrun
        rw [run] at hrun
        rcases hbody : body s' with _ | s'' | b'
        · simp only [hbody, reduceCtorEq] at hrun
        · simp only [hbody] at hrun
          exact ih s'' (hs'.turn hbody) hrun
        · simp only [hbody, Option.some.injEq] at hrun
          exact ⟨s', hs', hrun ▸ hbody⟩
  exact hgo n s .start h

end Loop

end SendingSystem
