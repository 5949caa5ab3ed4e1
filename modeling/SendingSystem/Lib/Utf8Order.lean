import Mathlib.Data.List.Lex
import Mathlib.Order.Lattice
import Mathlib.Order.Monotone.Basic
import Mathlib.Tactic.SplitIfs
import SendingSystem.Lib.Utf16

/-!
# The order of UTF-8

Bytes of a text in UTF-8 are in the order of its code points: a longer form starts
with a greater byte, and forms of one length are the point in a mixed radix. So a
store that compares texts by their bytes compares the points. A surrogate that is
left over is written as `?` and out of the order.

## Main definitions

* `Scalar`: A code point that is no surrogate.
* `pointBytes`: The bytes of points, as numbers.

## Theorems

* `pointBytes_ascii`: ASCII points are their own bytes.
* `utf8Point_lt`: A greater point has greater bytes, whatever is behind them.
* `pointBytes_strictMonoOn`: A greater text has greater bytes.
-/

namespace SendingSystem

namespace Utf16

/-- A code point that is no surrogate. -/
def Scalar (c : Nat) : Prop := c < 0xD800 ∨ 0xE000 ≤ c ∧ c < 0x110000

/-- The bytes of points, as numbers. -/
def pointBytes (l : List Nat) : List Nat := (l.flatMap utf8Point).map UInt8.toNat

theorem pointBytes_cons (c : Nat) (l : List Nat) :
    pointBytes (c :: l) = (utf8Point c).map UInt8.toNat ++ pointBytes l := by
  rw [pointBytes, List.flatMap_cons, List.map_append, pointBytes]

/-- The bytes of a point as numbers. -/
theorem toNat_utf8Point {c : Nat} (h : Scalar c) : (utf8Point c).map UInt8.toNat =
    if c < 0x80 then [c]
    else if c < 0x800 then [0xC0 + c / 0x40, 0x80 + c % 0x40]
    else if c < 0x10000 then [0xE0 + c / 0x40 / 0x40, 0x80 + c / 0x40 % 0x40, 0x80 + c % 0x40]
    else [0xF0 + c / 0x40 / 0x40 / 0x40, 0x80 + c / 0x40 / 0x40 % 0x40, 0x80 + c / 0x40 % 0x40,
      0x80 + c % 0x40] := by
  have hbyte : ∀ n : Nat, n < 256 → n.toUInt8.toNat = n := fun n hn => Nat.mod_eq_of_lt hn
  rw [Nat.div_div_eq_div_mul, Nat.div_div_eq_div_mul]
  unfold Scalar at h
  unfold utf8Point
  by_cases hone : c < 0x80
  · rw [if_pos hone, if_pos hone, List.map_singleton, hbyte c (by omega)]
  · rw [if_neg hone, if_neg hone]
    by_cases htwo : c < 0x800
    · rw [if_pos htwo, if_pos htwo, List.map_cons, List.map_singleton, hbyte _ (by omega),
        hbyte _ (by omega)]
    · rw [if_neg htwo, if_neg htwo, if_neg (by omega : ¬ (0xD800 ≤ c ∧ c < 0xE000))]
      by_cases hthree : c < 0x10000
      · rw [if_pos hthree, if_pos hthree, List.map_cons, List.map_cons, List.map_singleton,
          hbyte _ (by omega), hbyte _ (by omega), hbyte _ (by omega)]
      · rw [if_neg hthree, if_neg hthree, List.map_cons, List.map_cons, List.map_cons,
          List.map_singleton, hbyte _ (by omega), hbyte _ (by omega), hbyte _ (by omega),
          hbyte _ (by omega)]

/-- ASCII points are their own bytes. -/
theorem pointBytes_ascii {l : List Nat} (h : ∀ c ∈ l, c < 0x80) : pointBytes l = l := by
  induction l with
  | nil => rfl
  | cons c l ih =>
      have hc := h c List.mem_cons_self
      rw [pointBytes_cons, toNat_utf8Point (Or.inl (by omega)), if_pos hc,
        ih (fun c' hc' => h c' (List.mem_cons_of_mem c hc'))]
      rfl

/-- A greater point has greater bytes, whatever is behind them. -/
theorem utf8Point_lt {c d : Nat} (hc : Scalar c) (hd : Scalar d) (h : c < d) (s t : List Nat) :
    (utf8Point c).map UInt8.toNat ++ s < (utf8Point d).map UInt8.toNat ++ t := by
  rw [toNat_utf8Point hc, toNat_utf8Point hd]
  unfold Scalar at hc hd
  -- The shorter form starts with a smaller byte; within a form the point decides.
  split_ifs <;> simp only [List.cons_append, List.nil_append, List.cons_lt_cons_iff] <;> omega

/-- A greater text has greater bytes. -/
theorem pointBytes_strictMonoOn : StrictMonoOn pointBytes {l | ∀ c ∈ l, Scalar c} := by
  intro l hl
  induction l with
  | nil =>
      intro l' hl' hlt
      cases l' with
      | nil => exact absurd hlt (lt_irrefl _)
      | cons d l' =>
          rw [pointBytes_cons, toNat_utf8Point (hl' d List.mem_cons_self)]
          split_ifs <;> exact List.nil_lt_cons _ _
  | cons c l ih =>
      intro l' hl' hlt
      cases l' with
      | nil => exact absurd hlt (List.not_lt_nil _)
      | cons d l' =>
          rw [pointBytes_cons, pointBytes_cons]
          rcases List.cons_lt_cons_iff.mp hlt with hfirst | ⟨rfl, hrest⟩
          · exact utf8Point_lt (hl c List.mem_cons_self) (hl' d List.mem_cons_self) hfirst _ _
          · exact List.append_left_lt (ih (fun c' hc' => hl c' (List.mem_cons_of_mem c hc'))
              (fun c' hc' => hl' c' (List.mem_cons_of_mem c hc')) hrest)

end Utf16

end SendingSystem
