import Mathlib.Data.List.Lex
import Mathlib.Data.Nat.Digits.Lemmas
import Mathlib.Order.Monotone.Basic

/-!
# Numbers in text

Decimal digits, filled with zeros in front to a width, sort as a text like the
number they are of, as long as the number fits the width. So do several numbers in
a row, each in a field of its own with the same separators behind it: the texts
sort like the lists of numbers. What the digits are is up to the reader: any ten
symbols that are in order.

## Main definitions

* `numeral`: The digits of a number, filled up to a width.
* `fields`: Several numbers, each with a separator behind it.
* `extent`: How long fields are.
* `Fits`: Each number fits its field.

## Theorems

* `append_lt_append_iff`: Texts with fronts of one length.
* `numeral_of_le`: A number with enough digits is not filled up.
* `mem_fields`: What fields consist of.
* `numeral_strictMonoOn`: A numeral sorts like its number.
* `fields_strictMonoOn`: Fields sort like the list of their numbers.
-/

namespace SendingSystem

namespace Numerals

variable {α : Type}

/-- The digits of a number, filled with zeros in front to a width. -/
def numeral (digit : Nat → α) (width n : Nat) : List α :=
  ((Nat.digitsAppend 10 width n).map digit).reverse

/-- Numbers, each in a field of some width with a separator behind it. -/
def fields (digit : Nat → α) : List (Nat × List α) → List Nat → List α
  | field :: layout, n :: ns =>
    numeral digit field.1 n ++ (field.2 ++ fields digit layout ns)
  | _, _ => []

/-- How long fields are together. -/
def extent : List (Nat × List α) → Nat
  | [] => 0
  | field :: layout => field.1 + (field.2.length + extent layout)

/-- There is a number for each field, and it fits. -/
def Fits (layout : List (Nat × List α)) (ns : List Nat) : Prop :=
  List.Forall₂ (fun field n => n < 10 ^ field.1) layout ns

/-- The last digit is behind those of the other part. -/
theorem numeral_succ (digit : Nat → α) (width n : Nat) :
    numeral digit (width + 1) n = numeral digit width (n / 10) ++ [digit (n % 10)] := by
  have hdigits : Nat.digitsAppend 10 (width + 1) n
      = n % 10 :: Nat.digitsAppend 10 width (n / 10) := by
    unfold Nat.digitsAppend
    by_cases hn : n = 0
    · rw [hn, Nat.zero_mod, Nat.zero_div, Nat.digits_zero]
      exact List.replicate_succ
    · rw [Nat.digits_def' (by omega) (Nat.pos_of_ne_zero hn), List.length_cons,
        Nat.add_sub_add_right, List.cons_append]
  rw [numeral, hdigits, List.map_cons, List.reverse_cons, numeral]

theorem length_numeral (digit : Nat → α) {width n : Nat} (h : n < 10 ^ width) :
    (numeral digit width n).length = width := by
  rw [numeral, List.length_reverse, List.length_map, Nat.length_digitsAppend (by omega) _ h]

/-- A number is not filled up as long as it has the digits. -/
theorem numeral_of_le (digit : Nat → α) {width n : Nat} (h : 10 ^ width ≤ n) :
    numeral digit (width + 1) n = numeral digit 1 n := by
  have hwidth := (Nat.lt_digits_length_iff (by omega : 1 < 10) n).mpr h
  have hone : 0 < (Nat.digits 10 n).length := by omega
  rw [numeral, numeral, Nat.digitsAppend, Nat.digitsAppend, Nat.sub_eq_zero_of_le hwidth,
    Nat.sub_eq_zero_of_le hone]

theorem mem_numeral {digit : Nat → α} {width n : Nat} {a : α} (h : a ∈ numeral digit width n) :
    ∃ d < 10, a = digit d := by
  rw [numeral, List.mem_reverse, List.mem_map] at h
  rcases h with ⟨d, hd, rfl⟩
  exact ⟨d, Nat.lt_of_mem_digitsAppend (by omega) _ _ hd, rfl⟩

/-- Fields consist of digits and of what is behind them. -/
theorem mem_fields {digit : Nat → α} {layout : List (Nat × List α)} {ns : List Nat} {a : α}
    (h : a ∈ fields digit layout ns) :
    (∃ d < 10, a = digit d) ∨ ∃ field ∈ layout, a ∈ field.2 := by
  induction layout generalizing ns with
  | nil => exact absurd h List.not_mem_nil
  | cons field layout ih =>
      cases ns with
      | nil => exact absurd h List.not_mem_nil
      | cons n ns =>
          rw [fields, List.mem_append, List.mem_append] at h
          rcases h with h | h | h
          · exact Or.inl (mem_numeral h)
          · exact Or.inr ⟨field, List.mem_cons_self, h⟩
          · rcases ih h with hdigit | ⟨field', hmem, ha⟩
            · exact Or.inl hdigit
            · exact Or.inr ⟨field', List.mem_cons_of_mem field hmem, ha⟩

theorem length_fields (digit : Nat → α) {layout : List (Nat × List α)} {ns : List Nat}
    (h : Fits layout ns) : (fields digit layout ns).length = extent layout := by
  induction h with
  | nil => rfl
  | cons hn _ ih =>
      rw [fields, extent, List.length_append, List.length_append, length_numeral digit hn, ih]

variable [LinearOrder α]

/-- With fronts of one length the backs count only where the fronts are the same. -/
theorem append_lt_append_iff {s s' t t' : List α} (h : s.length = s'.length) :
    s ++ t < s' ++ t' ↔ s < s' ∨ s = s' ∧ t < t' := by
  induction s generalizing s' with
  | nil =>
      rw [List.length_nil, eq_comm, List.length_eq_zero_iff] at h
      simp only [h, List.nil_append, lt_irrefl, false_or, true_and]
  | cons a s ih =>
      cases s' with
      | nil => exact absurd h (Nat.succ_ne_zero _)
      | cons a' s' =>
          rw [List.cons_append, List.cons_append, List.cons_lt_cons_iff, List.cons_lt_cons_iff,
            ih (Nat.succ.inj h), List.cons.injEq]
          tauto

/-- A numeral sorts like its number. -/
theorem numeral_strictMonoOn {digit : Nat → α} (hdigit : StrictMonoOn digit (Set.Iio 10))
    (width : Nat) : StrictMonoOn (numeral digit width) (Set.Iio (10 ^ width)) := by
  induction width with
  | zero =>
      intro m hm n hn hlt
      rw [pow_zero, Set.mem_Iio] at hm hn
      omega
  | succ width ih =>
      intro m hm n hn hlt
      rw [Set.mem_Iio, pow_succ] at hm hn
      have hm' : m / 10 < 10 ^ width := by omega
      have hn' : n / 10 < 10 ^ width := by omega
      rw [numeral_succ, numeral_succ, append_lt_append_iff
        ((length_numeral digit hm').trans (length_numeral digit hn').symm)]
      -- The other digits decide, unless they are the same.
      by_cases heq : m / 10 = n / 10
      · have hlast : m % 10 < n % 10 := by omega
        refine Or.inr ⟨by rw [heq], List.cons_lt_cons_iff.mpr (Or.inl ?_)⟩
        exact hdigit (Nat.mod_lt m (by omega)) (Nat.mod_lt n (by omega)) hlast
      · exact Or.inl (ih hm' hn' (by omega))

/-- Fields sort like the list of their numbers. -/
theorem fields_strictMonoOn {digit : Nat → α} (hdigit : StrictMonoOn digit (Set.Iio 10))
    (layout : List (Nat × List α)) :
    StrictMonoOn (fields digit layout) {ns | Fits layout ns} := by
  induction layout with
  | nil =>
      intro ms hms ns hns hlt
      rw [List.forall₂_nil_left_iff.mp hms, List.forall₂_nil_left_iff.mp hns] at hlt
      exact absurd hlt (lt_irrefl _)
  | cons field layout ih =>
      intro ms hms ns hns hlt
      rcases List.forall₂_cons_left_iff.mp hms with ⟨m, ms, hm, hms', rfl⟩
      rcases List.forall₂_cons_left_iff.mp hns with ⟨n, ns, hn, hns', rfl⟩
      rw [fields, fields, append_lt_append_iff
        ((length_numeral digit hm).trans (length_numeral digit hn).symm)]
      rcases List.cons_lt_cons_iff.mp hlt with hfirst | ⟨rfl, hrest⟩
      · exact Or.inl (numeral_strictMonoOn hdigit field.1 hm hn hfirst)
      · exact Or.inr ⟨rfl, (append_lt_append_iff rfl).mpr (Or.inr ⟨rfl, ih hms' hns' hrest⟩)⟩

end Numerals

end SendingSystem
