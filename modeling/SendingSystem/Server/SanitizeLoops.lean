import SendingSystem.Server.FileService

/-!
# The two loops of the sanitiser

What `sanitize_filename` does to its array, loop by loop.

The fill loop writes at `temp_len` and reads at `p`, and moves `p` by the whole
match even where the clamp cut the copy. While the array is not full the two are
equal, so the clamp is reached with `temp_len` below `MAX_FILENAME` and its two
subtractions cannot wrap; from then on the array is full and no turn follows. A
turn stores to the indices it copies to and to the one of the `_`, which are all
within the array, and the terminator goes to an index that is one of it, too.

The rewrite loop takes the leftmost `..` and closes the gap, as often as there is
one. What it comes to is said of the maximal runs of dots.

## Main definitions

* `Continues`: The condition of the fill loop.
* `clampLen`, `fillStores`: What a turn copies, and where it stores.
* `FillSafe`: What holds at the head of the fill loop.

## Theorems

* `fillTurn_cases`: What a turn can do.
* `fillTurn_other`: A turn stores nowhere else.
* `fillSafe_of_inv`: The fill invariant bounds what the next turn does.
* `fill_bounds`: The fill loop stays in its objects, and ends.
* `dotdot_halves`: What the rewrite loop leaves.
-/

namespace SendingSystem

namespace Server

open CString Runs

/-- `*p && temp_len < MAX_FILENAME`. -/
def Continues (src : CStr) (s : Fill) : Prop := src.read s.p ≠ some 0 ∧ s.tempLen < maxFilename

/-- The bytes that are copied of so many. -/
def clampLen (tempLen len : Nat) : Nat :=
  if maxFilename ≤ tempLen + len then sizeSub (sizeSub maxFilename tempLen) 1 else len

/-- The indices of `temp` a turn stores to. -/
def fillStores (src : CStr) (s : Fill) : List Nat :=
  match regexec (src.bytes.drop s.p) with
  | some so =>
    List.range' s.tempLen (clampLen s.tempLen so) ++
      if s.tempLen + clampLen s.tempLen so < maxFilename then
        [s.tempLen + clampLen s.tempLen so]
      else []
  | none => List.range' s.tempLen (clampLen s.tempLen (src.bytes.drop s.p).length)

/-- What holds each time the fill loop comes to its condition: the lengths are
    within the limits, the subtractions are those of natural numbers, and a turn
    stays in the array and stores to the indices above only. -/
structure FillSafe (src : CStr) (s : Fill) : Prop where
  tempLen_le : s.tempLen ≤ maxFilename
  p_le : s.p ≤ src.bytes.length
  noWrap : Continues src s → s.tempLen + 1 ≤ maxFilename ∧
    sizeSub (sizeSub maxFilename s.tempLen) 1 = maxFilename - s.tempLen - 1
  stores : Continues src s → ∀ i ∈ fillStores src s, i ≤ maxFilename
  turn : ∃ r, fillTurn src s = some r ∧
    ∀ i, i ∉ fillStores src s → (r.elim id id).temp.bytes[i]? = s.temp.bytes[i]?

/-- What a turn can do: leave the loop, copy up to a match with or without a `_`
    behind it, or copy the rest and leave. -/
theorem fillTurn_cases {src : CStr} {s : Fill} {r : Fill ⊕ Fill} (h : fillTurn src s = some r) :
    r = .inr s ∨
    (∃ so temp, regexec (src.bytes.drop s.p) = some so ∧
      s.temp.strncpy s.tempLen (src.bytes.drop s.p) (clampLen s.tempLen so) = some temp ∧
      ((∃ temp', s.tempLen + clampLen s.tempLen so < maxFilename ∧
          temp.write (s.tempLen + clampLen s.tempLen so) [underscore] = some temp' ∧
          r = .inl ⟨temp', s.tempLen + clampLen s.tempLen so + 1, s.p + (so + 1)⟩) ∨
        r = .inl ⟨temp, s.tempLen + clampLen s.tempLen so, s.p + (so + 1)⟩)) ∨
    (∃ temp, regexec (src.bytes.drop s.p) = none ∧
      s.temp.strncpy s.tempLen (src.bytes.drop s.p)
        (clampLen s.tempLen (src.bytes.drop s.p).length) = some temp ∧
      r = .inr ⟨temp, s.tempLen + clampLen s.tempLen (src.bytes.drop s.p).length, s.p⟩) := by
  have hclamp : ∀ n, (if maxFilename ≤ s.tempLen + n
      then sizeSub (sizeSub maxFilename s.tempLen) 1 else n) = clampLen s.tempLen n := fun _ => rfl
  rw [fillTurn, Option.bind_eq_bind, Option.bind_eq_some_iff] at h
  rcases h with ⟨c, _, h⟩
  by_cases hguard : c ≠ 0 ∧ s.tempLen < maxFilename
  · rw [if_pos hguard] at h
    cases hre : regexec (src.bytes.drop s.p) with
    | some so =>
        simp only [hre, hclamp, Option.bind_eq_bind, Option.bind_eq_some_iff] at h
        rcases h with ⟨temp, hcopy, h⟩
        refine Or.inr (Or.inl ⟨so, temp, rfl, hcopy, ?_⟩)
        -- The `_` is written only where a byte is left for it.
        by_cases hroom : s.tempLen + clampLen s.tempLen so < maxFilename
        · rw [if_pos hroom, Option.bind_eq_some_iff] at h
          rcases h with ⟨temp', hwrite, h⟩
          exact Or.inl ⟨temp', hroom, hwrite, (Option.some.inj h).symm⟩
        · rw [if_neg hroom] at h
          exact Or.inr (Option.some.inj h).symm
    | none =>
        simp only [hre, hclamp, Option.bind_eq_bind, Option.bind_eq_some_iff] at h
        rcases h with ⟨temp, hcopy, h⟩
        exact Or.inr (Or.inr ⟨temp, rfl, hcopy, (Option.some.inj h).symm⟩)
  · rw [if_neg hguard] at h
    exact Or.inl (Option.some.inj h).symm

/-- A turn stores nowhere else. -/
theorem fillTurn_other {src : CStr} {s : Fill} {r : Fill ⊕ Fill} (h : fillTurn src s = some r)
    {i : Nat} (hi : i ∉ fillStores src s) :
    (r.elim id id).temp.bytes[i]? = s.temp.bytes[i]? := by
  unfold fillStores at hi
  -- An index that is no store is in front of the copy or behind it.
  rcases fillTurn_cases h with rfl | ⟨so, temp, hre, hcopy, hbehind⟩ | ⟨temp, hre, hcopy, rfl⟩
  · rfl
  · simp only [hre, List.mem_append, List.mem_range'_1, not_or, not_and, Nat.not_lt] at hi
    have hcopied := strncpy_other hcopy (by omega : i < s.tempLen ∨ _ ≤ i)
    rcases hbehind with ⟨temp', hroom, hwrite, rfl⟩ | rfl
    · rw [if_pos hroom, List.mem_singleton] at hi
      refine (write_other hwrite ?_).trans hcopied
      rw [List.length_singleton]
      omega
    · exact hcopied
  · simp only [hre, List.mem_range'_1, not_and, Nat.not_lt] at hi
    exact strncpy_other hcopy (by omega)

/-- The read pointer stays where it is when the loop is left. -/
theorem fillTurn_last {src : CStr} {s s' : Fill} (h : fillTurn src s = some (.inr s')) :
    s'.p = s.p := by
  rcases fillTurn_cases h with hsame | ⟨so, temp, _, _, ⟨_, _, _, hnext⟩ | hnext⟩ |
    ⟨temp, _, _, htail⟩
  · cases hsame
    rfl
  · cases hnext
  · cases hnext
  · cases htail
    rfl

/-- While the loop goes on, the clamp leaves a byte of the array for the terminator
    and one for the `_`. -/
theorem clampLen_eq {tempLen : Nat} (h : tempLen < maxFilename) (len : Nat) :
    clampLen tempLen len = min (254 - tempLen) len := by
  rw [clampLen, clamp_eq h]
  unfold maxFilename
  split <;> omega

/-- The invariant of the fill loop bounds what the next turn does. -/
theorem fillSafe_of_inv {src : CStr} {s : Fill} (h : FillInv src s) : FillSafe src s := by
  have htempLen : s.tempLen ≤ maxFilename := by
    -- Either the two positions are equal, or the array is full.
    rcases h.2 with ⟨hlen, hlt, _⟩ | ⟨hlen, _⟩
    · omega
    · exact Nat.le_of_eq hlen
  refine ⟨htempLen, h.1, ?_, ?_, ?_⟩
  · rintro ⟨_, hlt⟩
    rw [clamp_eq hlt]
    unfold maxFilename at *
    omega
  · rintro ⟨_, hlt⟩ i hi
    unfold fillStores at hi
    cases hre : regexec (src.bytes.drop s.p) with
    | some so =>
        simp only [hre, clampLen_eq hlt, List.mem_append, List.mem_range'_1] at hi
        unfold maxFilename at *
        rcases hi with hi | hi
        · omega
        · split at hi
          · rw [List.mem_singleton] at hi
            omega
          · exact absurd hi List.not_mem_nil
    | none =>
        simp only [hre, clampLen_eq hlt, List.mem_range'_1] at hi
        unfold maxFilename at *
        omega
  -- Every turn from here succeeds, whichever way it goes.
  · rcases fillTurn_spec src s h with ⟨s', hturn, _⟩ | ⟨s', hturn, _⟩
    · exact ⟨_, hturn, fun i hi => fillTurn_other hturn hi⟩
    · exact ⟨_, hturn, fun i hi => fillTurn_other hturn hi⟩

/-- A turn that is not the last one keeps the invariant. -/
theorem fillInv_turn {src : CStr} {s s' : Fill} (h : FillInv src s)
    (hturn : fillTurn src s = some (.inl s')) : FillInv src s' := by
  rcases fillTurn_spec src s h with ⟨s'', hnext, hinv, _⟩ | ⟨s'', hlast, _⟩
  · rw [hturn, Option.some.injEq, Sum.inl.injEq] at hnext
    exact hnext ▸ hinv
  · rw [hturn] at hlast
    cases hlast

/-- For every name of any length and whatever the array held: each time the fill
    loop comes to its condition the bounds hold, and it ends, with the read pointer
    at the terminator at most and the NUL within the array. -/
theorem fill_bounds (src : CStr) (temp : Buf (maxFilename + 1)) :
    (∀ s, Loop.Visits (fillTurn src) ⟨temp, 0, 0⟩ s → FillSafe src s) ∧
    ∃ s, Loop.run (fillTurn src) (src.bytes.length + 1) ⟨temp, 0, 0⟩ = some s ∧
      s.tempLen ≤ maxFilename ∧ s.p ≤ src.bytes.length ∧
      (s.temp.write s.tempLen [0]).isSome := by
  have hstart : FillInv src ⟨temp, 0, 0⟩ :=
    ⟨Nat.zero_le _, Or.inl ⟨rfl, (by decide : 0 < maxFilename), rfl⟩⟩
  have hinv : ∀ s, Loop.Visits (fillTurn src) ⟨temp, 0, 0⟩ s → FillInv src s :=
    fun s hs => Loop.visits_inv fillInv_turn hstart hs
  refine ⟨fun s hs => fillSafe_of_inv (hinv s hs), ?_⟩
  rcases fill_spec src temp with ⟨s, hrun, hlen, _⟩
  -- The last turn does not move `p`, so it stands where the invariant left it.
  rcases Loop.exists_last hrun with ⟨s', hvisit, hlast⟩
  refine ⟨s, hrun, hlen, ?_, ?_⟩
  · rw [fillTurn_last hlast]
    exact (hinv s' hvisit).1
  · rcases write_eq s.temp s.tempLen [0] (by rw [List.length_singleton]; omega) with ⟨temp', h, _⟩
    rw [h]
    rfl

/-- For every string in an array: the rewrite loop ends, with the string in which
    each maximal run of dots is halved and everything else kept. It has no `..` and
    is no longer than the string there was. -/
theorem dotdot_halves {n : Nat} (temp : Buf n) (s : List UInt8) (h : HoldsAt temp 0 s) :
    ∃ temp', Loop.run dotdotTurn (s.length + 1) temp = some temp' ∧
      HoldsAt temp' 0 ((segments dot s).rewritten (halved dot underscore)) ∧
      ¬ [dot, dot] <:+: (segments dot s).rewritten (halved dot underscore) ∧
      ((segments dot s).rewritten (halved dot underscore)).length ≤ s.length := by
  rcases dotdot_spec temp s h (Nat.lt_succ_self _) with ⟨temp', hrun, hholds⟩
  rw [← mapRuns_eq]
  refine ⟨temp', hrun, hholds, ?_, ?_⟩
  · exact noPair_mapRuns dot _ (halved_noPair dot underscore (by decide)) s
  · refine length_mapRuns_le dot _ (fun k => ?_) s
    rw [length_halved]
    omega

/-- The array with a run of three dots in it. -/
def threeDots : Buf (maxFilename + 1) where
  bytes := ascii "a...b" ++ List.replicate 251 0
  size := by
    rw [List.length_append, List.length_replicate]
    rfl

theorem dotdot_halves_three :
    ∃ temp, Loop.run dotdotTurn 6 threeDots = some temp ∧ HoldsAt temp 0 (ascii "a_.b") := by
  rcases dotdot_halves threeDots (ascii "a...b") ⟨by decide, List.replicate 250 0, rfl⟩ with
    ⟨temp, hrun, hholds, _⟩
  exact ⟨temp, hrun, hholds⟩

end Server

end SendingSystem
