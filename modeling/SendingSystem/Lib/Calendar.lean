import Mathlib.Data.List.Lex
import Mathlib.Data.Int.ConditionallyCompleteOrder
import Mathlib.Order.Interval.Set.Defs
import Mathlib.Order.Monotone.Basic
import SendingSystem.Lib.Numerals

/-!
# The calendar

Seconds since the start of 1970 as a year, a month, a day, an hour, a minute and a
second, by the rules of the Gregorian calendar: every fourth year has a day more, of
the hundredth years only each fourth. A later second is later in the calendar, which
compares its numbers from the year down.

## Main definitions

* `isLeap`, `yearStart`, `yearOf`: The years, as days since the start of 1970.
* `locate`: Where a number is in consecutive blocks.
* `monthLengths`, `dateOf`: The date of a day.
* `timeOf`: The date and time of a second.
* `fourDigitYears`: The seconds of the years of four digits.

## Theorems

* `yearStart_succ`: How long a year is.
* `yearOf_spec`, `le_yearOf_iff`: A day is in its year.
* `locate_lt`: Later in the blocks is later.
* `dateOf_strictMonoOn`, `timeOf_strictMonoOn`: A later second is later in the calendar.
* `timeOf_fits`: How many digits its numbers have.
-/

namespace SendingSystem

namespace Calendar

open Numerals

/-- Every fourth year, but of the hundredth ones only each fourth. -/
def isLeap (year : Int) : Bool := year % 4 = 0 ∧ (year % 100 ≠ 0 ∨ year % 400 = 0)

/-- The first day of a year, in days since the start of 1970. -/
def yearStart (year : Int) : Int :=
  365 * (year - 1970) + (year - 1) / 4 - (year - 1) / 100 + (year - 1) / 400 - 477

/-- The year of a day: the average length of a year gives it to within one year. -/
def yearOf (day : Int) : Int :=
  let year := 1970 + 400 * day / 146097
  if day < yearStart year then year - 1
  else if yearStart (year + 1) ≤ day then year + 1
  else year

/-- Consecutive blocks: the index of the one a number is in, and where in it. -/
def locate : List Nat → Nat → Nat × Nat
  | [], n => (0, n)
  | len :: lens, n =>
    if n < len then (0, n) else ((locate lens (n - len)).1 + 1, (locate lens (n - len)).2)

/-- The length of all blocks. -/
def total : List Nat → Nat
  | [] => 0
  | len :: lens => len + total lens

/-- The lengths of the months. -/
def monthLengths (year : Int) : List Nat :=
  [31, if isLeap year then 29 else 28, 31, 30, 31, 30, 31, 31, 30, 31, 30, 31]

/-- The year, the month and the day. -/
def dateOf (day : Int) : List Nat :=
  let year := yearOf day
  let inYear := locate (monthLengths year) (day - yearStart year).toNat
  [year.toNat, inYear.1 + 1, inYear.2 + 1]

/-- The year, the month, the day, the hour, the minute and the second. -/
def timeOf (second : Int) : List Nat :=
  let inDay := (second % 86400).toNat
  dateOf (second / 86400) ++ [inDay / 3600, inDay / 60 % 60, inDay % 60]

/-- The seconds of the years 1583, the first that had this calendar, to 9999. -/
def fourDigitYears : Set Int := Set.Ico (86400 * yearStart 1583) (86400 * yearStart 10000)

/-- The last second of February in a year that has a day more. -/
example : timeOf 1709251199 = [2024, 2, 29, 23, 59, 59] := by decide

/-- A year is as long as it has days. -/
theorem yearStart_succ (year : Int) :
    yearStart (year + 1) = yearStart year + if isLeap year then 366 else 365 := by
  unfold yearStart isLeap
  by_cases h : year % 4 = 0 ∧ (year % 100 ≠ 0 ∨ year % 400 = 0)
  · rw [decide_eq_true h, if_pos rfl]
    omega
  · rw [decide_eq_false h, if_neg Bool.false_ne_true]
    omega

theorem total_monthLengths (year : Int) :
    (total (monthLengths year) : Int) = if isLeap year then 366 else 365 := by
  unfold monthLengths
  cases isLeap year <;> rfl

/-- Years are of average length, up to a day or two. -/
theorem yearStart_bounds (year : Int) : 146097 * (year - 1970) - 506 ≤ 400 * yearStart year ∧
    400 * yearStart year ≤ 146097 * (year - 1970) + 589 := by
  unfold yearStart
  omega

theorem le_of_mem_monthLengths {year : Int} {len : Nat} (h : len ∈ monthLengths year) :
    len ≤ 31 := by
  have hall : ∀ leap : Bool, ∀ len ∈ [31, if leap then 29 else 28, 31, 30, 31, 30, 31, 31, 30, 31,
    30, 31], len ≤ 31 := by decide
  exact hall (isLeap year) len h

/-- A day is in its year. -/
theorem yearOf_spec (day : Int) :
    yearStart (yearOf day) ≤ day ∧ day < yearStart (yearOf day + 1) := by
  have hyear := Int.mul_ediv_self_le (by omega : (146097 : Int) ≠ 0) (x := 400 * day)
  have hnext := Int.lt_mul_ediv_self_add (by omega : (0 : Int) < 146097) (x := 400 * day)
  unfold yearOf
  simp only
  generalize 400 * day / 146097 = average at *
  by_cases hbefore : day < yearStart (1970 + average)
  · rw [if_pos hbefore, Int.sub_add_cancel]
    have hbounds := yearStart_bounds (1970 + average - 1)
    exact ⟨by omega, hbefore⟩
  · rw [if_neg hbefore]
    by_cases hafter : yearStart (1970 + average + 1) ≤ day
    · rw [if_pos hafter]
      have hbounds := yearStart_bounds (1970 + average + 1 + 1)
      exact ⟨hafter, by omega⟩
    · rw [if_neg hafter]
      exact ⟨by omega, by omega⟩

/-- A later year starts later. -/
theorem yearStart_mono : StrictMono yearStart := by
  refine strictMono_int_of_lt_succ fun year => ?_
  rw [yearStart_succ]
  split <;> omega

/-- A number is in a block as long as there are enough of them. -/
theorem locate_bounds {lens : List Nat} {n : Nat} (h : n < total lens) :
    (locate lens n).1 < lens.length ∧ ∃ len ∈ lens, (locate lens n).2 < len := by
  induction lens generalizing n with
  | nil => exact absurd h (Nat.not_lt_zero n)
  | cons len lens ih =>
      unfold locate
      by_cases hn : n < len
      · rw [if_pos hn]
        exact ⟨Nat.zero_lt_succ _, len, List.mem_cons_self, hn⟩
      · rw [if_neg hn]
        rw [total] at h
        rcases ih (by omega : n - len < total lens) with ⟨hindex, len', hmem, hlt⟩
        exact ⟨Nat.succ_lt_succ hindex, len', List.mem_cons_of_mem len hmem, hlt⟩

/-- A later number is in a later block, or later in the same one. -/
theorem locate_lt (lens : List Nat) {m n : Nat} (h : m < n) :
    (locate lens m).1 < (locate lens n).1 ∨
      (locate lens m).1 = (locate lens n).1 ∧ (locate lens m).2 < (locate lens n).2 := by
  induction lens generalizing m n with
  | nil => exact Or.inr ⟨rfl, h⟩
  | cons len lens ih =>
      unfold locate
      by_cases hm : m < len
      · by_cases hn : n < len
        · rw [if_pos hm, if_pos hn]
          exact Or.inr ⟨rfl, h⟩
        · rw [if_pos hm, if_neg hn]
          exact Or.inl (Nat.zero_lt_succ _)
      · rw [if_neg hm, if_neg (by omega : ¬ n < len)]
        rcases ih (by omega : m - len < n - len) with hlt | ⟨heq, hlt⟩
        · exact Or.inl (Nat.succ_lt_succ hlt)
        · exact Or.inr ⟨by rw [heq], hlt⟩

/-- A day is in a year or a later one if it is not before that year. -/
theorem le_yearOf_iff {year day : Int} : year ≤ yearOf day ↔ yearStart year ≤ day := by
  rcases yearOf_spec day with ⟨hstart, hnext⟩
  constructor
  · intro h
    exact (yearStart_mono.monotone h).trans hstart
  · intro h
    exact Int.lt_add_one_iff.mp (yearStart_mono.lt_iff_lt.mp (lt_of_le_of_lt h hnext))

/-- A later day has a later date. -/
theorem dateOf_strictMonoOn : StrictMonoOn dateOf (Set.Ici (yearStart 0)) := by
  intro day hday day' hday' hlt
  have hyear := le_yearOf_iff.mpr hday
  have hyear' := le_yearOf_iff.mpr hday'
  have hle : yearOf day ≤ yearOf day' := le_yearOf_iff.mpr ((yearOf_spec day).1.trans hlt.le)
  unfold dateOf
  simp only [List.cons_lt_cons_iff, List.lt_irrefl, and_false, or_false]
  by_cases hsame : yearOf day = yearOf day'
  · have hstart := (yearOf_spec day).1
    rw [hsame] at hstart ⊢
    -- In one year the months are the same blocks.
    rcases locate_lt (monthLengths (yearOf day')) (by omega :
      (day - yearStart (yearOf day')).toNat < (day' - yearStart (yearOf day')).toNat) with h | h
    · exact Or.inr ⟨rfl, Or.inl (by omega)⟩
    · exact Or.inr ⟨rfl, Or.inr ⟨by omega, by omega⟩⟩
  · exact Or.inl (by omega)

theorem yearOf_fourDigits {second : Int} (h : second ∈ fourDigitYears) :
    1583 ≤ yearOf (second / 86400) ∧ yearOf (second / 86400) < 10000 := by
  rcases h with ⟨hlow, hhigh⟩
  have hnot : ¬ (10000 ≤ yearOf (second / 86400)) := by
    rw [le_yearOf_iff]
    omega
  exact ⟨le_yearOf_iff.mpr (by omega), by omega⟩

/-- A later second is later in the calendar. -/
theorem timeOf_strictMonoOn : StrictMonoOn timeOf fourDigitYears := by
  intro second h second' h' hlt
  have hday := (yearStart_mono.monotone (by omega : (0 : Int) ≤ 1583)).trans
    (le_yearOf_iff.mp (yearOf_fourDigits h).1)
  have hday' := (yearStart_mono.monotone (by omega : (0 : Int) ≤ 1583)).trans
    (le_yearOf_iff.mp (yearOf_fourDigits h').1)
  have hlength : (dateOf (second / 86400)).length = (dateOf (second' / 86400)).length := rfl
  unfold timeOf
  simp only
  rw [append_lt_append_iff hlength]
  by_cases hsame : second / 86400 = second' / 86400
  · rw [hsame]
    refine Or.inr ⟨rfl, ?_⟩
    simp only [List.cons_lt_cons_iff, List.lt_irrefl, and_false, or_false]
    omega
  · exact Or.inl (dateOf_strictMonoOn hday hday' (by omega))

/-- How many digits the numbers have. -/
theorem timeOf_fits {second : Int} (h : second ∈ fourDigitYears) :
    List.Forall₂ (fun width n => n < 10 ^ width) [4, 2, 2, 2, 2, 2] (timeOf second) := by
  have hyear := yearOf_fourDigits h
  rcases yearOf_spec (second / 86400) with ⟨hstart, hnext⟩
  have hlength := yearStart_succ (yearOf (second / 86400))
  rw [← total_monthLengths] at hlength
  rcases locate_bounds (by omega : (second / 86400 - yearStart (yearOf (second / 86400))).toNat
    < total (monthLengths (yearOf (second / 86400)))) with ⟨hmonth, len, hlen, hday⟩
  have hlong := le_of_mem_monthLengths hlen
  have hmonths : (monthLengths (yearOf (second / 86400))).length = 12 := rfl
  unfold timeOf dateOf
  simp only [List.cons_append, List.nil_append, List.forall₂_cons, List.forall₂_nil_right_iff,
    and_true]
  omega

end Calendar

end SendingSystem
