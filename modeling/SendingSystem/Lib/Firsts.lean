import Mathlib.Data.List.Basic
import Mathlib.Data.List.Induction

/-!
# The first of each key

Of a list, the elements that have a key no element before them has. A loop that
keeps the keys it has seen computes this list: one more element at the end adds
itself or nothing, and whether its key is new can be told from the elements kept.

## Main definitions

* `firsts`: The first element of each key, in list order.
* `FirstOfEach`: What it means to be that list.

## Theorems

* `firsts_concat`: One more element.
* `exists_firsts_iff`: The keys of the firsts are those of all.
* `firsts_sublist`, `firsts_pairwise`: They are in order, with different keys.
* `mem_firsts_iff`: Which elements are kept.
-/

namespace SendingSystem

section Firsts

variable {α κ : Type} [DecidableEq κ] (key : α → κ)

/-- The elements of a list with a key that none of those before has. -/
def firstsAfter : List α → List α → List α
  | _, [] => []
  | before, x :: l =>
    if ∃ y ∈ before, key y = key x then firstsAfter (before ++ [x]) l
    else x :: firstsAfter (before ++ [x]) l

/-- The first element of each key. -/
def firsts (l : List α) : List α := firstsAfter key [] l

theorem firstsAfter_append : ∀ (l m before : List α),
    firstsAfter key before (l ++ m)
      = firstsAfter key before l ++ firstsAfter key (before ++ l) m := by
  intro l m
  induction l with
  | nil =>
      intro before
      rw [List.nil_append, List.append_nil, firstsAfter, List.nil_append]
  | cons x l ih =>
      intro before
      -- The element is seen from here on, whether it was new or not.
      rw [List.cons_append, firstsAfter, firstsAfter, ih (before ++ [x]), List.append_assoc,
        List.singleton_append]
      split
      · rfl
      · rfl

/-- One more element is added unless its key was there. -/
theorem firsts_concat (l : List α) (x : α) :
    firsts key (l ++ [x])
      = firsts key l ++ if ∃ y ∈ l, key y = key x then [] else [x] := by
  rw [firsts, firstsAfter_append, List.nil_append]
  rfl

/-- The keys of the firsts are the keys of all. -/
theorem exists_firsts_iff (l : List α) (p : κ → Prop) :
    (∃ y ∈ firsts key l, p (key y)) ↔ ∃ y ∈ l, p (key y) := by
  induction l using List.reverseRecOn with
  | nil => exact Iff.rfl
  | append_singleton l x ih =>
      rw [firsts_concat]
      by_cases hold : ∃ y ∈ l, key y = key x
      · rw [if_pos hold, List.append_nil, ih]
        constructor
        · rintro ⟨y, hy, hp⟩
          exact ⟨y, List.mem_append_left _ hy, hp⟩
        · rintro ⟨y, hy, hp⟩
          rcases List.mem_append.mp hy with hy | hy
          · exact ⟨y, hy, hp⟩
          -- An earlier element has the key of the last one.
          · rcases hold with ⟨z, hz, hkey⟩
            rw [List.mem_singleton.mp hy] at hp
            exact ⟨z, hz, hkey ▸ hp⟩
      · rw [if_neg hold]
        constructor
        · rintro ⟨y, hy, hp⟩
          rcases List.mem_append.mp hy with hy | hy
          · rcases ih.mp ⟨y, hy, hp⟩ with ⟨z, hz, hp⟩
            exact ⟨z, List.mem_append_left _ hz, hp⟩
          · exact ⟨y, List.mem_append_right _ hy, hp⟩
        · rintro ⟨y, hy, hp⟩
          rcases List.mem_append.mp hy with hy | hy
          · rcases ih.mpr ⟨y, hy, hp⟩ with ⟨z, hz, hp⟩
            exact ⟨z, List.mem_append_left _ hz, hp⟩
          · exact ⟨y, List.mem_append_right _ hy, hp⟩

/-- The firsts stand in list order. -/
theorem firsts_sublist (l : List α) : (firsts key l).Sublist l := by
  induction l using List.reverseRecOn with
  | nil => exact List.Sublist.refl _
  | append_singleton l x ih =>
      rw [firsts_concat]
      refine ih.append ?_
      split
      · exact List.nil_sublist _
      · exact List.Sublist.refl _

/-- Their keys are different. -/
theorem firsts_pairwise (l : List α) :
    (firsts key l).Pairwise (fun x y => key x ≠ key y) := by
  induction l using List.reverseRecOn with
  | nil => exact List.Pairwise.nil
  | append_singleton l x ih =>
      rw [firsts_concat]
      split
      · rw [List.append_nil]
        exact ih
      · next hnew =>
          -- The element is kept as no earlier one has its key.
          rw [List.pairwise_append]
          refine ⟨ih, List.pairwise_singleton _ _, fun y hy z hz hkey => hnew ?_⟩
          rw [List.mem_singleton.mp hz] at hkey
          exact ⟨y, (firsts_sublist key l).subset hy, hkey⟩

/-- An element is kept when it is what a search for its key finds. -/
theorem mem_firsts_iff (l : List α) (x : α) :
    x ∈ firsts key l ↔ l.find? (fun y => key y = key x) = some x := by
  induction l using List.reverseRecOn with
  | nil => exact iff_of_false List.not_mem_nil (fun h => by cases h)
  | append_singleton l a ih =>
      rw [firsts_concat, List.find?_append]
      cases hfind : l.find? (fun y => key y = key x) with
      | some z =>
          -- The search ends before the last element, which is not new if it is `x`.
          rw [hfind] at ih
          rw [Option.some_or, ← ih, List.mem_append]
          refine ⟨fun h => h.elim id (fun h => ?_), Or.inl⟩
          have hfound := List.find?_some hfind
          have hz : key z = key x := of_decide_eq_true hfound
          have hmem := List.mem_of_find?_eq_some hfind
          split at h
          · exact absurd h List.not_mem_nil
          · next hnew =>
              rw [List.mem_singleton.mp h] at hz
              exact absurd ⟨z, hmem, hz⟩ hnew
      | none =>
          -- Only the last element can have the key.
          rw [hfind] at ih
          have hold : x ∉ firsts key l := fun h => by cases ih.mp h
          have hnone : ∀ y ∈ l, ¬ key y = key x := fun y hy h =>
            List.find?_eq_none.mp hfind y hy (decide_eq_true h)
          rw [Option.none_or, List.mem_append, List.find?_singleton]
          constructor
          · rintro (h | h)
            · exact absurd h hold
            · split at h
              · exact absurd h List.not_mem_nil
              · rw [List.mem_singleton.mp h, decide_eq_true rfl, if_pos rfl]
          · intro h
            rw [Option.ite_none_right_eq_some, Option.some.injEq] at h
            rw [h.2, if_neg (fun hex => hex.elim (fun y hy => hnone y hy.1 hy.2))]
            exact Or.inr List.mem_cons_self

/-- A list has the first element of each key, in order, and nothing else. -/
structure FirstOfEach (l heads : List α) : Prop where
  sublist : heads.Sublist l
  distinct : heads.Pairwise (fun x y => key x ≠ key y)
  first : ∀ x, x ∈ heads ↔ l.find? (fun y => key y = key x) = some x

theorem firstOfEach_firsts (l : List α) : FirstOfEach key l (firsts key l) :=
  ⟨firsts_sublist key l, firsts_pairwise key l, mem_firsts_iff key l⟩

end Firsts

end SendingSystem
