import Mathlib.Algebra.Group.Int.Defs
import SendingSystem.Server.Rows

/-!
# Reading whole tables

The `*_get_all` functions, one loop in seven repositories: while `sqlite3_step`
answers `SQLITE_ROW`, make room in the array and copy the row into it. Only
`message_get_all` copies by way of a struct of its own, which has to be
allocated for each row.

The loop goes on while the code is `SQLITE_ROW` and looks no further at a code
that is not, so an error in the middle of the table ends it like `SQLITE_DONE`
does. An allocation that fails is noticed; then the rows already copied are
given up and `NULL` is returned. So a table is cut short exactly when an error
follows some but not all of its rows and no allocation failed before.

The capacity is an `int` that doubles. From `2^30` on C leaves that undefined; it
is taken to wrap to a negative number, which as a `size_t` is more than any object
may have.

## Main definitions

* `ScanFault`: What the system can fail while a table is read.
* `sqliteStep`: The result of a step.
* `makeRoom`: The array's growth.
* `rowLoop`, `getAll`: The shape of the `*_get_all` functions.
* `AllOrNothing`: The whole table is reported, or a failure.
* `AllocFails`: An allocation for a row fails.
* `CutShort`: An error follows some but not all of the rows.

## Theorems

* `capOf_makeRoom`, `makeRoom_eq_none`: What making room does.
* `rowLoop_eq_some`, `rowLoop_eq_none`: What the loop does.
* `CutShort.count`: A table that is cut short is reported in part.
* `getAll_count_le`: The count never leaves the range of an `int`.
* `getAll_allOrNothing_iff`: When the result is all or nothing.
* `getAll_none`: The result when nothing fails.
-/

namespace SendingSystem

namespace Server

open CString

/-- What `sqlite3_step` answers. -/
inductive StepCode where
  | row
  | done
  | error (code : Int)
  deriving DecidableEq

/-- What the system can fail: `sqlite3_prepare_v2`; a step, after so many rows and
    with a code; the `realloc` made when the array is full with so many rows;
    the `malloc` of `row_to_message` for a row; the copies of its text columns. -/
structure ScanFault where
  prepare : Bool
  error : Option (Nat × Int)
  realloc : Nat → Bool
  malloc : Nat → Bool
  copy : Nat → Nat → Bool

/-- Nothing fails. -/
def ScanFault.none : ScanFault :=
  ⟨false, .none, fun _ => false, fun _ => false, fun _ _ => false⟩

/-- `sqlite3_step` after `count` rows, with `rest` still to come. -/
def sqliteStep {α : Type} (error : Option (Nat × Int)) (count : Nat) (rest : List α) : StepCode :=
  match error with
  | some (k, code) => if count = k then .error code else if rest.isEmpty then .done else .row
  | none => if rest.isEmpty then .done else .row

/-- `sizeof(*arr)`. -/
def sizeofRecord : Tab → Nat
  | .messageType => 16
  | .messageStatus => 16
  | .messageDirection => 16
  | .connectionRole => 16
  | .connection => 32
  | .message => 64
  | .namedConnection => 24

/-- The row is copied by way of a struct of its own. -/
def boxed : Tab → Bool
  | .message => true
  | _ => false

/-- `PTRDIFF_MAX`: no object is larger. -/
def ptrdiffMax : Nat := 9223372036854775807

/-- `cap ? cap * 2 : 8`, in 32 bits. The product is taken to wrap, which C leaves
    undefined for a capacity of `2^30` or more. -/
def growCap (cap : Int) : Int := if cap = 0 then 8 else (cap * 2).bmod (2 ^ 32)

/-- `(size_t)cap * sizeof(*arr)`, in 64 bits. -/
def reallocSize (t : Tab) (cap : Int) : Nat := ((cap % 2 ^ 64).toNat * sizeofRecord t) % 2 ^ 64

/-- Room for one more row: the capacity afterwards, `none` when `realloc` fails. -/
def makeRoom (fault : ScanFault) (t : Tab) (count : Nat) (cap : Int) : Option Int :=
  if cap ≤ count then
    if fault.realloc count || ptrdiffMax < reallocSize t (growCap cap) then none
    else some (growCap cap)
  else some cap

/-- The loop over the rows: the array it leaves, `none` when an allocation
    fails. -/
def rowLoop (fault : ScanFault) (t : Tab) (rest : List (Int × Row t)) (arr : List (Record t))
    (cap : Int) : Option (List (Record t)) :=
  match sqliteStep fault.error arr.length rest, rest with
  | .row, r :: rest =>
    match makeRoom fault t arr.length cap with
    | none => none
    | some cap =>
      if boxed t && fault.malloc arr.length then none
      else rowLoop fault t rest (arr ++ [readRow t (fault.copy arr.length) r]) cap
  -- `SQLITE_DONE` and an error leave the loop the same way.
  | _, _ => some arr

/-- The array returned, and what `*out_count` is set to. -/
structure AllResult (α : Type) where
  arr : Option (List α)
  outCount : Int
  deriving DecidableEq

/-- The shape of the `*_get_all` functions. -/
def getAll (fault : ScanFault) (db : Database) (t : Tab) : AllResult (Record t) :=
  if fault.prepare then ⟨none, 0⟩
  else
    match rowLoop fault t (Db.rows (S := serverSchema) db t) [] 0 with
    | none => ⟨none, 0⟩
    -- Without a row there was no `realloc`, and `arr` is still `NULL`.
    | some arr => ⟨if arr.isEmpty then none else some arr, arr.length⟩

/-- `message_type_get_all`. -/
def messageTypeGetAll (fault : ScanFault) (db : Database) : AllResult Reference :=
  getAll fault db .messageType

/-- `message_status_get_all`. -/
def messageStatusGetAll (fault : ScanFault) (db : Database) : AllResult Reference :=
  getAll fault db .messageStatus

/-- `message_direction_get_all`. -/
def messageDirectionGetAll (fault : ScanFault) (db : Database) : AllResult Reference :=
  getAll fault db .messageDirection

/-- `connection_role_get_all`. -/
def connectionRoleGetAll (fault : ScanFault) (db : Database) : AllResult Reference :=
  getAll fault db .connectionRole

/-- `connection_get_all`. -/
def connectionGetAll (fault : ScanFault) (db : Database) : AllResult Connection :=
  getAll fault db .connection

/-- `message_get_all`. -/
def messageGetAll (fault : ScanFault) (db : Database) : AllResult Message :=
  getAll fault db .message

/-- `named_connection_get_all`. -/
def namedConnectionGetAll (fault : ScanFault) (db : Database) : AllResult NamedConnection :=
  getAll fault db .namedConnection

/-- The structs of consecutive rows, from row `i` on. -/
def readRows (t : Tab) (copy : Nat → Nat → Bool) : Nat → List (Int × Row t) → List (Record t)
  | _, [] => []
  | i, r :: l => readRow t (copy i) r :: readRows t copy (i + 1) l

/-- Every row of the table is reported, once each and in id order, with their
    number; or failure is. -/
def AllOrNothing (fault : ScanFault) (db : Database) (t : Tab) (r : AllResult (Record t)) : Prop :=
  (r.arr.getD [] = readRows t fault.copy 0 (Db.rows (S := serverSchema) db t) ∧
    r.outCount = (Db.rows (S := serverSchema) db t).length) ∨
  (r.arr = none ∧ r.outCount = 0)

/-- The array is full with so many rows. -/
def Full (count : Nat) : Prop := count = 0 ∨ ∃ j, count = 8 * 2 ^ j

/-- An allocation for row `i` fails. -/
def AllocFails (fault : ScanFault) (t : Tab) (i : Nat) : Prop :=
  (boxed t = true ∧ fault.malloc i = true) ∨ (Full i ∧ (fault.realloc i = true ∨ 2 ^ 30 ≤ i))

/-- An error follows some but not all of the rows, and no allocation for these
    rows fails. -/
def CutShort (fault : ScanFault) (db : Database) (t : Tab) : Prop :=
  fault.prepare = false ∧ ∃ k code, fault.error = some (k, code) ∧ 0 < k ∧
    k < (Db.rows (S := serverSchema) db t).length ∧ ∀ i < k, ¬ AllocFails fault t i

/-- The capacity of an array that holds so many rows: the first that is enough. -/
def CapOf (count : Nat) (cap : Int) : Prop :=
  (count = 0 ∧ cap = 0) ∨
    ∃ j, j ≤ 27 ∧ cap = (8 * 2 ^ j : Nat) ∧ 0 < count ∧ count ≤ 8 * 2 ^ j ∧
      ∀ i, i < j → 8 * 2 ^ i < count

theorem pow_lt_pow_two {i j : Nat} (h : i < j) : 2 ^ i < 2 ^ j :=
  Nat.pow_lt_pow_right (by omega) h

theorem CapOf.count_le {count : Nat} {cap : Int} (h : CapOf count cap) : count ≤ 2 ^ 30 := by
  rcases h with ⟨rfl, _⟩ | ⟨j, hj, _, _, hle, _⟩
  · omega
  · have hpow : 2 ^ j ≤ 2 ^ 27 := Nat.pow_le_pow_right (by omega) hj
    omega

/-- The array is full when its count has reached the capacity. -/
theorem full_iff {count : Nat} {cap : Int} (h : CapOf count cap) : Full count ↔ cap ≤ count := by
  rcases h with ⟨rfl, rfl⟩ | ⟨j, _, rfl, hpos, hle, hlt⟩
  · exact iff_of_true (Or.inl rfl) (by omega)
  · constructor
    · rintro (hzero | ⟨i, hi⟩)
      · omega
      -- A smaller capacity is below the count, a greater one above it.
      · rcases Nat.lt_trichotomy i j with hij | rfl | hij
        · have hbelow := hlt i hij
          omega
        · omega
        · have habove := pow_lt_pow_two hij
          omega
    · intro hfull
      exact Or.inr ⟨j, by omega⟩

/-- What the array grows to: the next capacity, or from `2^30` elements on more
    than any object may have. The elements have up to 64 bytes each. -/
theorem grow_size {count size : Nat} {cap : Int} (h : CapOf count cap) (hfull : cap ≤ count)
    (hpos : 8 ≤ size) (hsize : size ≤ 64) :
    (count < 2 ^ 30 ∧ CapOf (count + 1) (growCap cap) ∧
        ((growCap cap % 2 ^ 64).toNat * size) % 2 ^ 64 ≤ ptrdiffMax) ∨
      (2 ^ 30 ≤ count ∧ ptrdiffMax < ((growCap cap % 2 ^ 64).toNat * size) % 2 ^ 64) := by
  rcases h with ⟨rfl, rfl⟩ | ⟨j, hj, rfl, _, hle, hlt⟩
  · left
    have hfirst : (growCap 0 % 2 ^ 64).toNat = 8 := by decide
    refine ⟨by decide, Or.inr ⟨0, by omega, rfl, by omega, by omega, fun i hi => by omega⟩, ?_⟩
    rw [hfirst, ptrdiffMax]
    omega
  · have hcount : count = 8 * 2 ^ j := by omega
    subst hcount
    rcases Nat.lt_or_eq_of_le hj with hj | rfl
    · left
      have hbound : 2 ^ j ≤ 2 ^ 26 := Nat.pow_le_pow_right (by omega) (by omega)
      have hgrow : growCap (8 * 2 ^ j : Nat) = (8 * 2 ^ (j + 1) : Nat) := by
        have hone : 0 < 2 ^ j := Nat.two_pow_pos j
        rw [growCap, if_neg (by omega), pow_succ 2 j]
        generalize 2 ^ j = p at hbound ⊢
        rw [Int.bmod_eq_of_le (by omega) (by omega)]
        omega
      refine ⟨by omega, ?_, ?_⟩
      · rw [hgrow]
        refine Or.inr ⟨j + 1, by omega, rfl, by omega, by rw [pow_succ 2 j]; omega, fun i hi => ?_⟩
        have hle' : 2 ^ i ≤ 2 ^ j := Nat.pow_le_pow_right (by omega) (by omega)
        omega
      · rw [hgrow, pow_succ 2 j, ptrdiffMax]
        generalize 2 ^ j = p at hbound ⊢
        have hwhole : (((8 * (p * 2) : Nat) : Int) % 2 ^ 64).toNat = 8 * (p * 2) := by omega
        have hbytes : 8 * (p * 2) * size ≤ 2 ^ 30 * 64 := Nat.mul_le_mul (by omega) hsize
        rw [hwhole, Nat.mod_eq_of_lt (by omega)]
        omega
    -- The capacity wraps to a negative number.
    · right
      have hwrapped : (growCap (8 * 2 ^ 27 : Nat) % 2 ^ 64).toNat = 2 ^ 64 - 2 ^ 31 := by decide
      have hbytes : (2 ^ 64 - 2 ^ 31) * size = 2 ^ 64 - 2 ^ 31 * size + 2 ^ 64 * (size - 1) := by
        omega
      rw [hwrapped, ptrdiffMax, hbytes, Nat.add_mul_mod_self_left, Nat.mod_eq_of_lt (by omega)]
      omega

theorem grow_full {count : Nat} {cap : Int} (h : CapOf count cap) (hfull : cap ≤ count) (t : Tab) :
    (count < 2 ^ 30 ∧ CapOf (count + 1) (growCap cap) ∧ reallocSize t (growCap cap) ≤ ptrdiffMax) ∨
      (2 ^ 30 ≤ count ∧ ptrdiffMax < reallocSize t (growCap cap)) := by
  refine grow_size h hfull ?_ ?_
  · cases t <;> decide
  · cases t <;> decide

/-- An array that is not full has room for one more. -/
theorem capOf_succ {count : Nat} {cap : Int} (h : CapOf count cap) (hroom : ¬ cap ≤ count) :
    CapOf (count + 1) cap := by
  rcases h with ⟨rfl, rfl⟩ | ⟨j, hj, rfl, hpos, hle, hlt⟩
  · omega
  · refine Or.inr ⟨j, hj, rfl, by omega, by omega, fun i hi => ?_⟩
    have hbelow := hlt i hi
    omega

/-- Room was made: the capacity is enough for one row more, and nothing failed. -/
theorem capOf_makeRoom {fault : ScanFault} {t : Tab} {count : Nat} {cap cap' : Int}
    (h : CapOf count cap) (hroom : makeRoom fault t count cap = some cap') :
    CapOf (count + 1) cap' ∧ ¬ (Full count ∧ (fault.realloc count = true ∨ 2 ^ 30 ≤ count)) := by
  unfold makeRoom at hroom
  rw [full_iff h]
  -- Only a full array grows, and it does so unless the allocation fails.
  by_cases hfull : cap ≤ count
  · rw [if_pos hfull] at hroom
    by_cases hfail : (fault.realloc count || ptrdiffMax < reallocSize t (growCap cap)) = true
    · rw [if_pos hfail] at hroom
      simp only [reduceCtorEq] at hroom
    · rw [if_neg hfail, Option.some.injEq] at hroom
      subst hroom
      rw [Bool.or_eq_true, decide_eq_true_eq, not_or] at hfail
      rcases grow_full h hfull t with ⟨hlt, hcap, _⟩ | ⟨_, hsize⟩
      · refine ⟨hcap, ?_⟩
        rintro ⟨_, hrealloc | hle⟩
        · exact hfail.1 hrealloc
        · omega
      · exact absurd hsize hfail.2
  · rw [if_neg hfull, Option.some.injEq] at hroom
    subst hroom
    exact ⟨capOf_succ h hfull, fun hf => hfull hf.1⟩

theorem makeRoom_eq_none {fault : ScanFault} {t : Tab} {count : Nat} {cap : Int}
    (h : CapOf count cap) (hroom : makeRoom fault t count cap = none) :
    Full count ∧ (fault.realloc count = true ∨ 2 ^ 30 ≤ count) := by
  unfold makeRoom at hroom
  by_cases hfull : cap ≤ count
  · refine ⟨(full_iff h).mpr hfull, ?_⟩
    rw [if_pos hfull] at hroom
    by_cases hfail : (fault.realloc count || ptrdiffMax < reallocSize t (growCap cap)) = true
    · rw [Bool.or_eq_true, decide_eq_true_eq] at hfail
      -- The size is too large for any allocation only when the capacity would wrap.
      rcases hfail with hrealloc | hsize
      · exact Or.inl hrealloc
      · rcases grow_full h hfull t with ⟨_, _, hfits⟩ | ⟨hle, _⟩
        · omega
        · exact Or.inr hle
    · rw [if_neg hfail] at hroom
      simp only [reduceCtorEq] at hroom
  · rw [if_neg hfull] at hroom
    simp only [reduceCtorEq] at hroom

/-- A step gives a row when one is left and no error is due. -/
theorem sqliteStep_cons {α : Type} (error : Option (Nat × Int)) (count : Nat) (r : α)
    (rest : List α) :
    (sqliteStep error count (r :: rest) = .row ∧ ∀ code, error ≠ some (count, code)) ∨
      ∃ code, sqliteStep error count (r :: rest) = .error code ∧ error = some (count, code) := by
  unfold sqliteStep
  rcases error with _ | ⟨k, code⟩
  · left
    exact ⟨rfl, fun code h => by simp only [reduceCtorEq] at h⟩
  · by_cases hk : count = k
    · right
      exact ⟨code, if_pos hk, by rw [hk]⟩
    · left
      refine ⟨by simp only [if_neg hk]; rfl, fun code' h => ?_⟩
      rw [Option.some.injEq, Prod.mk.injEq] at h
      exact hk h.1.symm

section Loop

variable {fault : ScanFault} {t : Tab}

theorem rowLoop_nil (arr : List (Record t)) (cap : Int) :
    rowLoop fault t [] arr cap = some arr := by
  rw [rowLoop.eq_def]
  cases sqliteStep fault.error arr.length ([] : List (Int × Row t)) <;> rfl

theorem rowLoop_error {r : Int × Row t} {rest : List (Int × Row t)} {arr : List (Record t)}
    {code : Int} (h : sqliteStep fault.error arr.length (r :: rest) = .error code) (cap : Int) :
    rowLoop fault t (r :: rest) arr cap = some arr := by
  rw [rowLoop.eq_def, h]

/-- One turn of the loop that was given a row: an allocation fails, or the row is
    copied and the loop goes on. -/
theorem rowLoop_row {r : Int × Row t} {rest : List (Int × Row t)} {arr : List (Record t)}
    {cap : Int} (hcap : CapOf arr.length cap)
    (h : sqliteStep fault.error arr.length (r :: rest) = .row) :
    (AllocFails fault t arr.length ∧ rowLoop fault t (r :: rest) arr cap = none) ∨
      ∃ cap', CapOf (arr.length + 1) cap' ∧ ¬ AllocFails fault t arr.length ∧
        rowLoop fault t (r :: rest) arr cap
          = rowLoop fault t rest (arr ++ [readRow t (fault.copy arr.length) r]) cap' := by
  rw [rowLoop.eq_def, h]
  simp only
  -- First the room for the row, then the box it is put in.
  rcases hroom : makeRoom fault t arr.length cap with _ | cap'
  · exact Or.inl ⟨Or.inr (makeRoom_eq_none hcap hroom), rfl⟩
  · rcases capOf_makeRoom hcap hroom with ⟨hcap', hgrown⟩
    by_cases hmalloc : (boxed t && fault.malloc arr.length) = true
    · left
      rw [Bool.and_eq_true] at hmalloc
      exact ⟨Or.inl hmalloc, if_pos (Bool.and_eq_true _ _ ▸ hmalloc)⟩
    · right
      refine ⟨cap', hcap', ?_, if_neg hmalloc⟩
      rintro (hbox | hfull)
      · exact hmalloc (Bool.and_eq_true _ _ ▸ hbox)
      · exact hgrown hfull

/-- Where the loop was when it left with an array: after `n` of the rows, all
    copied, at the end of the table or at an error. -/
theorem rowLoop_eq_some : ∀ (rest : List (Int × Row t)) (arr out : List (Record t)) (cap : Int),
    CapOf arr.length cap → rowLoop fault t rest arr cap = some out →
    ∃ n, n ≤ rest.length ∧ out = arr ++ readRows t fault.copy arr.length (rest.take n) ∧
      (∀ i, i < n → ¬ AllocFails fault t (arr.length + i) ∧
        ∀ code, fault.error ≠ some (arr.length + i, code)) ∧
      (n < rest.length → ∃ code, fault.error = some (arr.length + n, code)) := by
  intro rest
  induction rest with
  | nil =>
      intro arr out cap _ h
      rw [rowLoop_nil, Option.some.injEq] at h
      refine ⟨0, Nat.le_refl 0, ?_, fun i hi => absurd hi (by omega),
        fun hlt => absurd hlt (by simp only [List.length_nil]; omega)⟩
      rw [List.take_nil, readRows, List.append_nil, h]
  | cons r rest ih =>
      intro arr out cap hcap h
      rcases sqliteStep_cons fault.error arr.length r rest with ⟨hrow, hno⟩ | ⟨code, hcode, herr⟩
      · rcases rowLoop_row hcap hrow with ⟨_, hnone⟩ | ⟨cap', hcap', halloc, hgo⟩
        · rw [hnone] at h
          simp only [reduceCtorEq] at h
        · rw [hgo] at h
          have hlen : (arr ++ [readRow t (fault.copy arr.length) r]).length = arr.length + 1 := by
            rw [List.length_append, List.length_singleton]
          rcases ih _ out cap' (by rw [hlen]; exact hcap') h with ⟨n, hn, hout, hbefore, hstop⟩
          rw [hlen] at hout hbefore hstop
          refine ⟨n + 1, by rw [List.length_cons]; omega, ?_, fun i hi => ?_, fun hlt => ?_⟩
          · rw [hout, List.take_succ_cons, readRows, List.append_assoc, List.singleton_append]
          -- The row just copied, or one of the rest.
          · cases i with
            | zero => exact ⟨halloc, hno⟩
            | succ i =>
                have hi' := hbefore i (by omega)
                rw [Nat.add_right_comm, Nat.add_assoc] at hi'
                exact hi'
          · rw [List.length_cons] at hlt
            have hlast := hstop (by omega)
            rw [Nat.add_right_comm, Nat.add_assoc] at hlast
            exact hlast
      · rw [rowLoop_error hcode, Option.some.injEq] at h
        refine ⟨0, Nat.zero_le _, ?_, fun i hi => absurd hi (by omega), fun _ => ⟨code, herr⟩⟩
        rw [List.take_zero, readRows, List.append_nil, h]

/-- Where the loop was when it gave up: at a row for which an allocation failed,
    with no error up to it. -/
theorem rowLoop_eq_none : ∀ (rest : List (Int × Row t)) (arr : List (Record t)) (cap : Int),
    CapOf arr.length cap → rowLoop fault t rest arr cap = none →
    ∃ n, n < rest.length ∧ AllocFails fault t (arr.length + n) ∧
      ∀ i, i ≤ n → ∀ code, fault.error ≠ some (arr.length + i, code) := by
  intro rest
  induction rest with
  | nil =>
      intro arr cap _ h
      rw [rowLoop_nil] at h
      simp only [reduceCtorEq] at h
  | cons r rest ih =>
      intro arr cap hcap h
      rcases sqliteStep_cons fault.error arr.length r rest with ⟨hrow, hno⟩ | ⟨code, hcode, _⟩
      · rcases rowLoop_row hcap hrow with ⟨halloc, _⟩ | ⟨cap', hcap', _, hgo⟩
        -- This row is the one that finds no memory.
        · refine ⟨0, by rw [List.length_cons]; omega, halloc, fun i hi => ?_⟩
          rw [Nat.le_zero.mp hi]
          exact hno
        · rw [hgo] at h
          have hlen : (arr ++ [readRow t (fault.copy arr.length) r]).length = arr.length + 1 := by
            rw [List.length_append, List.length_singleton]
          -- Otherwise a later row is, and every index is one more.
          rcases ih _ cap' (by rw [hlen]; exact hcap') h with ⟨n, hn, halloc, hbefore⟩
          rw [hlen] at halloc hbefore
          rw [Nat.add_right_comm, Nat.add_assoc] at halloc
          refine ⟨n + 1, by rw [List.length_cons]; omega, halloc, fun i hi => ?_⟩
          cases i with
          | zero => exact hno
          | succ i =>
              have hi' := hbefore i (by omega)
              rw [Nat.add_right_comm, Nat.add_assoc] at hi'
              exact hi'
      · rw [rowLoop_error hcode] at h
        simp only [reduceCtorEq] at h

end Loop

theorem length_readRows (t : Tab) (copy : Nat → Nat → Bool) (i : Nat) (l : List (Int × Row t)) :
    (readRows t copy i l).length = l.length := by
  induction l generalizing i with
  | nil => rfl
  | cons r l ih => rw [readRows, List.length_cons, List.length_cons, ih]

/-- What the function returns for an array that is not empty. -/
theorem getAll_of_some {fault : ScanFault} {db : Database} {t : Tab} {arr : List (Record t)}
    (hprepare : fault.prepare = false)
    (h : rowLoop fault t (Db.rows (S := serverSchema) db t) [] 0 = some arr) :
    (getAll fault db t).arr = (if arr.isEmpty then none else some arr) ∧
      (getAll fault db t).arr.getD [] = arr ∧ (getAll fault db t).outCount = arr.length := by
  have hall : getAll fault db t = ⟨if arr.isEmpty then none else some arr, arr.length⟩ := by
    rw [getAll, hprepare, if_neg Bool.false_ne_true, h]
  rw [hall]
  refine ⟨rfl, ?_, rfl⟩
  cases arr with
  | nil => rfl
  | cons r arr => rfl

/-- A failure is reported as one. -/
theorem getAll_of_failed {fault : ScanFault} {db : Database} {t : Tab}
    (h : fault.prepare = true ∨
      rowLoop fault t (Db.rows (S := serverSchema) db t) [] 0 = none) :
    getAll fault db t = ⟨none, 0⟩ := by
  rw [getAll]
  cases hprepare : fault.prepare with
  | true => exact if_pos rfl
  | false =>
      rw [if_neg Bool.false_ne_true, h.resolve_left (by rw [hprepare]; exact Bool.false_ne_true)]

theorem capOf_nil {t : Tab} : CapOf ([] : List (Record t)).length 0 := Or.inl ⟨rfl, rfl⟩

section Start

variable {fault : ScanFault} {t : Tab} {rows : List (Int × Row t)}

/-- An array read from a table has its first rows: all of them, or those before an
    error. -/
theorem rowLoop_start_some {arr : List (Record t)} (h : rowLoop fault t rows [] 0 = some arr) :
    ∃ n, n ≤ rows.length ∧ arr = readRows t fault.copy 0 (rows.take n) ∧ arr.length = n ∧
      (∀ i, i < n → ¬ AllocFails fault t i ∧ ∀ code, fault.error ≠ some (i, code)) ∧
      (n < rows.length → ∃ code, fault.error = some (n, code)) := by
  rcases rowLoop_eq_some _ _ _ _ capOf_nil h with ⟨n, hn, hout, hbefore, hstop⟩
  simp only [List.length_nil, Nat.zero_add, List.nil_append] at hout hbefore hstop
  refine ⟨n, hn, hout, ?_, hbefore, hstop⟩
  rw [hout, length_readRows, List.length_take]
  omega

/-- The table was given up at a row for which an allocation failed. -/
theorem rowLoop_start_none (h : rowLoop fault t rows [] 0 = none) :
    ∃ n, n < rows.length ∧ AllocFails fault t n ∧
      ∀ i, i ≤ n → ∀ code, fault.error ≠ some (i, code) := by
  rcases rowLoop_eq_none _ _ _ capOf_nil h with ⟨n, hn, halloc, hbefore⟩
  simp only [List.length_nil, Nat.zero_add] at halloc hbefore
  exact ⟨n, hn, halloc, hbefore⟩

end Start

/-- The count stays in the range of the `int` that holds it: for row `2^30` there
    is no room to be had. -/
theorem getAll_count_le (fault : ScanFault) (db : Database) (t : Tab) :
    (getAll fault db t).outCount ≤ 2 ^ 30 := by
  by_cases hprepare : fault.prepare = true
  · rw [getAll_of_failed (Or.inl hprepare)]
    simp only
    omega
  · rw [Bool.not_eq_true] at hprepare
    rcases hloop : rowLoop fault t (Db.rows (S := serverSchema) db t) [] 0 with _ | arr
    · rw [getAll_of_failed (Or.inr hloop)]
      simp only
      omega
    · rcases rowLoop_start_some hloop with ⟨n, hn, _, hlen, hbefore, _⟩
      rw [(getAll_of_some hprepare hloop).2.2, hlen]
      -- With `2^30` rows the array is full and cannot grow.
      by_contra hgt
      exact (hbefore (2 ^ 30) (by omega)).1 (Or.inr ⟨Or.inr ⟨27, rfl⟩, Or.inr (Nat.le_refl _)⟩)

/-- A table that is cut short is reported up to the error. -/
theorem CutShort.count {fault : ScanFault} {db : Database} {t : Tab} (h : CutShort fault db t) :
    0 < (getAll fault db t).outCount ∧
      (getAll fault db t).outCount < (Db.rows (S := serverSchema) db t).length := by
  rcases h with ⟨hprepare, k, code, herr, hpos, hlt, halloc⟩
  rcases hloop : rowLoop fault t (Db.rows (S := serverSchema) db t) [] 0 with _ | arr
  -- The allocation that failed was for a row after the error.
  · rcases rowLoop_start_none hloop with ⟨n, _, hn, hbefore⟩
    refine absurd hn (halloc n ?_)
    by_contra hge
    exact hbefore k (by omega) code herr
  · rcases rowLoop_start_some hloop with ⟨n, _, _, hlen, hbefore, hstop⟩
    have hnk : n = k := by
      rcases Nat.lt_trichotomy n k with h | h | h
      · rcases hstop (by omega) with ⟨code', herr'⟩
        rw [herr, Option.some.injEq, Prod.mk.injEq] at herr'
        exact herr'.1.symm
      · exact h
      · exact absurd herr ((hbefore k h).2 code)
    rw [(getAll_of_some hprepare hloop).2.2]
    omega

/-- Every `*_get_all` function reports its whole table or a failure, exactly when
    `sqlite3_step` reports no error after some but not all of the rows, unless an
    allocation for one of these rows fails first. -/
theorem getAll_allOrNothing_iff (fault : ScanFault) (db : Database) (t : Tab) :
    AllOrNothing fault db t (getAll fault db t) ↔ ¬ CutShort fault db t := by
  constructor
  · intro hall hcut
    have hcount := hcut.count
    rcases hall with ⟨_, hlen⟩ | ⟨_, hzero⟩
    · omega
    · omega
  · intro hwhole
    by_cases hprepare : fault.prepare = true
    · exact Or.inr (by rw [getAll_of_failed (Or.inl hprepare)]; exact ⟨rfl, rfl⟩)
    · rw [Bool.not_eq_true] at hprepare
      rcases hloop : rowLoop fault t (Db.rows (S := serverSchema) db t) [] 0 with _ | arr
      · exact Or.inr (by rw [getAll_of_failed (Or.inr hloop)]; exact ⟨rfl, rfl⟩)
      · rcases getAll_of_some hprepare hloop with ⟨hnull, harr, hcount⟩
        rcases rowLoop_start_some hloop with ⟨n, hn, hout, hlen, hbefore, hstop⟩
        by_cases hlt : n < (Db.rows (S := serverSchema) db t).length
        -- Stopped at an error: before the first row, or the table is cut short.
        · right
          by_cases hzero : n = 0
          · rw [hzero, List.length_eq_zero_iff] at hlen
            rw [hnull, hcount, hlen]
            exact ⟨rfl, rfl⟩
          · rcases hstop hlt with ⟨code, herr⟩
            exact absurd ⟨hprepare, n, code, herr, by omega, hlt, fun i hi => (hbefore i hi).1⟩
              hwhole
        · left
          rw [List.take_of_length_le (by omega)] at hout
          rw [harr, hcount, hout, length_readRows]
          exact ⟨rfl, rfl⟩

/-- Without errors among them, rows all copied alike are copied one by one. -/
theorem readRows_eq_map (t : Tab) (copy : Nat → Bool) (i : Nat) (l : List (Int × Row t)) :
    readRows t (fun _ => copy) i l = l.map (readRow t copy) := by
  induction l generalizing i with
  | nil => rfl
  | cons r l ih => rw [readRows, List.map_cons, ih]

/-- When nothing fails, a table of at most `2^30` rows is listed, and a larger one
    is more than the array can hold. -/
theorem getAll_none (db : Database) (t : Tab) :
    ((Db.rows (S := serverSchema) db t).length ≤ 2 ^ 30 ∧
      (getAll .none db t).arr.getD []
        = (Db.rows (S := serverSchema) db t).map (readRow t (fun _ => false))) ∨
    (2 ^ 30 < (Db.rows (S := serverSchema) db t).length ∧ getAll .none db t = ⟨none, 0⟩) := by
  have hfails : ∀ i, AllocFails .none t i ↔ Full i ∧ 2 ^ 30 ≤ i := by
    intro i
    simp only [AllocFails, ScanFault.none, Bool.false_eq_true, and_false, false_or]
  -- Without faults the loop can only fail where the array can no longer grow.
  rcases hloop : rowLoop .none t (Db.rows (S := serverSchema) db t) [] 0 with _ | arr
  · rcases rowLoop_start_none hloop with ⟨n, hn, halloc, _⟩
    rw [hfails] at halloc
    exact Or.inr ⟨by omega, getAll_of_failed (Or.inr hloop)⟩
  · rcases rowLoop_start_some hloop with ⟨n, hn, hout, _, hbefore, hstop⟩
    have hall : n = (Db.rows (S := serverSchema) db t).length := by
      by_contra hne
      rcases hstop (by omega) with ⟨code, herr⟩
      simp only [ScanFault.none, reduceCtorEq] at herr
    left
    refine ⟨?_, ?_⟩
    · by_contra hgt
      exact (hbefore (2 ^ 30) (by omega)).1 ((hfails _).mpr ⟨Or.inr ⟨27, rfl⟩, Nat.le_refl _⟩)
    · rw [(getAll_of_some rfl hloop).2.1, hout, hall, List.take_length]
      exact readRows_eq_map t _ 0 _

/-- The seeded roles, read by a scan that meets `SQLITE_BUSY` after the first. -/
theorem getAll_busy : ¬ ∀ (fault : ScanFault) (db : Database) (t : Tab),
    AllOrNothing fault db t (getAll fault db t) := by
  intro h
  have hbusy := h { ScanFault.none with error := some (1, 5) } createdDatabase .connectionRole
  have hresult : getAll { ScanFault.none with error := some (1, 5) } createdDatabase .connectionRole
      = ⟨some [⟨1, some (.lit "SERVER")⟩], 1⟩ := by decide
  rw [hresult] at hbusy
  rcases hbusy with ⟨_, hlen⟩ | ⟨hnull, _⟩
  · exact absurd hlen (by decide)
  · simp only [reduceCtorEq] at hnull

end Server

end SendingSystem
