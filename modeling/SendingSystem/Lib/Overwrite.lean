import Mathlib.Data.List.Basic
import Mathlib.Logic.Function.Basic

/-!
# A sequence of writes

A map written to one key at a time. Of several writes to a key the last one
counts, so the map is unchanged exactly when for every key the last write put
back what was there.

## Main definitions

* `overwrite`: The map after a sequence of writes.

## Theorems

* `overwrite_of_not_mem`: A key that is not written keeps its value.
* `overwrite_last`: The last write to a key counts.
* `exists_last`: A key that is written is written a last time.
* `overwrite_eq_iff`: When a sequence of writes changes nothing.
-/

namespace SendingSystem

variable {κ α : Type} [DecidableEq κ]

/-- The map after a sequence of writes. -/
def overwrite (f : κ → α) : List (κ × α) → κ → α
  | [] => f
  | w :: ws => overwrite (Function.update f w.1 w.2) ws

/-- A key that is not written keeps its value. -/
theorem overwrite_of_not_mem {k : κ} : ∀ (ws : List (κ × α)) (f : κ → α),
    (∀ w ∈ ws, w.1 ≠ k) → overwrite f ws k = f k := by
  intro ws
  induction ws with
  | nil =>
      intro f _
      rfl
  | cons w ws ih =>
      intro f h
      rw [List.forall_mem_cons] at h
      rw [overwrite, ih _ h.2, Function.update_of_ne (fun heq => h.1 heq.symm)]

/-- The last write to a key counts. -/
theorem overwrite_last {w : κ × α} {after : List (κ × α)} (h : ∀ w' ∈ after, w'.1 ≠ w.1) :
    ∀ (before : List (κ × α)) (f : κ → α), overwrite f (before ++ w :: after) w.1 = w.2 := by
  intro before
  induction before with
  | nil =>
      intro f
      rw [List.nil_append, overwrite, overwrite_of_not_mem after _ h, Function.update_self]
  | cons w' before ih =>
      intro f
      exact ih _

/-- A key that is written is written a last time. -/
theorem exists_last {k : κ} : ∀ (ws : List (κ × α)), (∃ w ∈ ws, w.1 = k) →
    ∃ before w after, ws = before ++ w :: after ∧ w.1 = k ∧ ∀ w' ∈ after, w'.1 ≠ k := by
  intro ws
  induction ws with
  | nil =>
      rintro ⟨w, hw, _⟩
      exact absurd hw List.not_mem_nil
  | cons w ws ih =>
      intro h
      by_cases hlater : ∃ w' ∈ ws, w'.1 = k
      · rcases ih hlater with ⟨before, w', after, rfl, hw', hafter⟩
        exact ⟨w :: before, w', after, rfl, hw', hafter⟩
      -- The key is written, and not later, so it is written here.
      · rcases h with ⟨w', hw', hk⟩
        rcases List.mem_cons.mp hw' with rfl | hw'
        · exact ⟨[], w', ws, rfl, hk, fun w'' hw'' hk' => hlater ⟨w'', hw'', hk'⟩⟩
        · exact absurd ⟨w', hw', hk⟩ hlater

/-- A sequence of writes changes nothing exactly when the last write to each key
    puts back what was there. -/
theorem overwrite_eq_iff {ws : List (κ × α)} {f : κ → α} :
    overwrite f ws = f ↔ ∀ before w after, ws = before ++ w :: after →
      (∀ w' ∈ after, w'.1 ≠ w.1) → w.2 = f w.1 := by
  constructor
  · rintro h before w after rfl hlast
    rw [← overwrite_last hlast before f, h]
  · intro h
    ext k
    by_cases hwritten : ∃ w ∈ ws, w.1 = k
    · rcases exists_last ws hwritten with ⟨before, w, after, rfl, rfl, hlast⟩
      rw [overwrite_last hlast, h before w after rfl hlast]
    · exact overwrite_of_not_mem ws f fun w hw hk => hwritten ⟨w, hw, hk⟩

end SendingSystem
