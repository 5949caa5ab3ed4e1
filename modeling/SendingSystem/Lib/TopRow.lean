import Mathlib.Data.List.Forall2
import Mathlib.Order.Lattice
import Mathlib.Order.Monotone.Basic

/-!
# The first row of an ordered query

`SELECT … ORDER BY key DESC LIMIT 1` over a list of rows. When several rows have
the greatest key the engine is free in which of them it gives, so an answer is
related to the rows and not computed from them: `TopRow key rows a` says that `a`
is an answer the query may give.

Such a query stands in for "the last row" only where the last row has the one
greatest key.

## Main definitions

* `TopRow`: An answer the query may give.

## Theorems

* `exists_topRow`: The query has an answer.
* `topRow_only_iff`: When a given row is the only answer.
* `topRow_getLast_iff`: When the last row is the only answer.
* `topRow_getLast_values_iff`: The same in terms of what the keys are made from.
-/

namespace SendingSystem

variable {α κ : Type} [LinearOrder κ]

/-- An answer of `SELECT … ORDER BY key DESC LIMIT 1`. -/
def TopRow (key : α → κ) (rows : List α) : Option α → Prop
  | none => rows = []
  | some r => r ∈ rows ∧ ∀ r' ∈ rows, key r' ≤ key r

theorem exists_topRow (key : α → κ) (rows : List α) : ∃ a, TopRow key rows a := by
  induction rows with
  | nil => exact ⟨none, rfl⟩
  | cons r rows ih =>
      rcases ih with ⟨_ | top, htop⟩
      -- The only row.
      · refine ⟨some r, List.mem_cons_self, fun r' hr' => ?_⟩
        rw [show rows = [] from htop, List.mem_singleton] at hr'
        rw [hr']
      · rcases htop with ⟨hmem, hmax⟩
        rcases le_total (key r) (key top) with hle | hle
        · refine ⟨some top, List.mem_cons_of_mem r hmem, fun r' hr' => ?_⟩
          rcases List.mem_cons.mp hr' with rfl | hr'
          · exact hle
          · exact hmax r' hr'
        · refine ⟨some r, List.mem_cons_self, fun r' hr' => ?_⟩
          rcases List.mem_cons.mp hr' with rfl | hr'
          · exact le_refl _
          · exact le_trans (hmax r' hr') hle

/-- A row is the only answer when its key is above that of every other row. -/
theorem topRow_only_iff {key : α → κ} {rows : List α} {r : α} (hr : r ∈ rows) :
    (∀ a, TopRow key rows a → a = some r) ↔ ∀ r' ∈ rows, r' ≠ r → key r' < key r := by
  constructor
  · intro honly r' hr' hne
    rcases exists_topRow key rows with ⟨a, ha⟩
    have hmax : ∀ r' ∈ rows, key r' ≤ key r := by
      rw [honly a ha] at ha
      exact ha.2
    by_contra hlt
    -- A row with the same key would be an answer too.
    have hr'max : TopRow key rows (some r') :=
      ⟨hr', fun r'' hr'' => le_trans (hmax r'' hr'') (not_lt.mp hlt)⟩
    exact hne (Option.some.inj (honly _ hr'max))
  · intro habove a ha
    cases a with
    | none =>
        rw [show rows = [] from ha] at hr
        exact absurd hr List.not_mem_nil
    | some r' =>
        by_contra hne
        have hlt := habove r' ha.1 (fun h => hne (congrArg some h))
        exact absurd (ha.2 r hr) (not_le.mpr hlt)

/-- The last row is the only answer when its key is above that of every other. -/
theorem topRow_getLast_iff {key : α → κ} {rows : List α} :
    (∀ a, TopRow key rows a → a = rows.getLast?) ↔
      ∀ r, rows.getLast? = some r → ∀ r' ∈ rows, r' ≠ r → key r' < key r := by
  -- Without rows there is only the answer that there is none.
  rcases hlast : rows.getLast? with _ | r
  · rw [List.getLast?_eq_none_iff] at hlast
    subst hlast
    refine iff_of_true (fun a ha => ?_) (fun r hr => by simp only [reduceCtorEq] at hr)
    cases a with
    | none => rfl
    | some r => exact absurd ha.1 List.not_mem_nil
  · rw [topRow_only_iff (List.mem_of_getLast? hlast)]
    constructor
    · intro h r' hr'
      rw [Option.some.injEq] at hr'
      exact hr' ▸ h
    · intro h
      exact h r rfl

/-- Where keys are in the order of some values, the last row is the only answer when its
    value is above the others. -/
theorem topRow_getLast_values_iff {β : Type} [LinearOrder β] {key : α → κ} {rows : List α}
    {values : List β} {f : β → κ} {S : Set β} (hf : StrictMonoOn f S)
    (hvalues : List.Forall₂ (fun r v => v ∈ S ∧ key r = f v) rows values) (hnodup : rows.Nodup) :
    (∀ a, TopRow key rows a → a = rows.getLast?) ↔
      ∀ v, values.getLast? = some v → ∀ v' ∈ values.dropLast, v' < v := by
  rw [topRow_getLast_iff]
  rcases values.eq_nil_or_concat' with rfl | ⟨olderValues, v, rfl⟩
  · rw [List.forall₂_nil_right_iff.mp hvalues]
    exact iff_of_true (fun r hr => absurd hr.symm (Option.some_ne_none r))
      (fun v hv => absurd hv.symm (Option.some_ne_none v))
  rcases rows.eq_nil_or_concat' with rfl | ⟨older, r, rfl⟩
  · exact absurd hvalues.length_eq (by rw [List.length_append]; exact Nat.succ_ne_zero _ ∘ Eq.symm)
  -- The last ones belong together, and so do those before them.
  rw [← List.forall₂_reverse_iff, List.reverse_append, List.reverse_append, List.reverse_singleton,
    List.reverse_singleton, List.singleton_append, List.singleton_append, List.forall₂_cons,
    List.forall₂_reverse_iff] at hvalues
  rcases hvalues with ⟨⟨hv, hr⟩, holder⟩
  have hbefore : (∀ r' ∈ older, key r' < key r) ↔ ∀ v' ∈ olderValues, v' < v := by
    clear hnodup
    induction holder with
    | nil => exact iff_of_true (fun _ h => absurd h List.not_mem_nil) (fun _ h => absurd h
        List.not_mem_nil)
    | cons h _ ih =>
        rw [List.forall_mem_cons, List.forall_mem_cons, ih, h.2, hr, hf.lt_iff_lt h.1 hv]
  simp only [List.getLast?_concat, List.dropLast_concat, Option.some.injEq, forall_eq']
  rw [← hbefore]
  have hlast : r ∉ older := by
    intro h
    exact (List.nodup_append.mp hnodup).2.2 r h r List.mem_cons_self rfl
  constructor
  · intro h r' hr'
    exact h r' (List.mem_append_left _ hr') fun heq => hlast (heq ▸ hr')
  · intro h r' hr' hne
    rcases List.mem_append.mp hr' with hr' | hr'
    · exact h r' hr'
    · exact absurd (List.mem_singleton.mp hr') hne

end SendingSystem
