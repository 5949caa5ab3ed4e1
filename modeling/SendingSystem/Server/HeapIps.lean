import SendingSystem.Lib.HeapArray
import SendingSystem.Server.HeapRows
import SendingSystem.Server.ServerIps

/-!
# Addresses on the heap

The arrays of `Server.ServerIps` as they are in C: pointers to strings, each a block of
its own, in a block that `realloc` moves. An allocation that fails is not reported, and
an array may be left with cells that were never written; the count keeps the reads and
the frees away from them.

## Main definitions

* `IpBlock`: What a block holds.
* `IpArrayAt`, `ScanAt`: The arrays of `enumerate`.
* `ipInListAt`, `pushIpAt`: The search in an array, and adding to it.
* `turnAt`, `enumerateAt`, `getServerIpAddressesAt`: The functions.
* `freeServerIpAddresses`: The release of an array.
* `listAddresses`: Their caller.

## Theorems

* `triple_pushIpAt`: What adding to an array does, whatever fails.
* `triple_scanAt`: What the loop leaves.
* `getServerIpAddressesAt_free`: The addresses are those of `getServerIpAddresses`, and
  the heap is as it was once they are released.
-/

namespace SendingSystem

namespace Server

open CString Heaps Heaps.Assertion

/-- What a block holds: a string, or pointers to strings. -/
inductive IpBlock where
  | text (s : CStr)
  | pointers (cells : List (Option Addr))

namespace IpBlock

/-- `char*`. -/
def stringKind : Kind IpBlock CStr where
  put := .text
  get
    | .text s => some s
    | .pointers _ => none
  get_put _ := rfl

/-- `char**`; the pointers in it are not null. -/
def arrayKind : Kind IpBlock (List (Option Addr)) where
  put := .pointers
  get
    | .text _ => none
    | .pointers cells => some cells
  get_put _ := rfl

end IpBlock

/-- An array of strings: the pointer, the count and the capacity. -/
structure IpArrayAt where
  ips : Option Addr
  count : Nat
  capacity : Int

/-- No array yet. -/
def IpArrayAt.empty : IpArrayAt := ⟨none, 0, 0⟩

/-- The arrays of `enumerate`, and the log of the allocator. -/
structure ScanAt where
  seen : IpArrayAt
  result : IpArrayAt
  log : List Bool

section Programs

variable (placement : Placement IpBlock) (pf : Platform) (alloc : Allocator) (mode : MaskMode)

/-- The string a cell points to. -/
def textAt (a : Addr) : Prog IpBlock CStr := loadAs IpBlock.stringKind (some a)

/-- The loop of `ip_in_list` over so many cells, from `start` on. -/
def ipInListFrom (list : Option Addr) (value : CStr) : Nat → Nat → Prog IpBlock Bool
  | _, 0 => pure false
  | start, n + 1 => do
    let s ← getCell IpBlock.arrayKind list start >>= textAt
    if s = value then pure true else ipInListFrom list value (start + 1) n

/-- `ip_in_list`. -/
def ipInListAt (list : Option Addr) (n : Nat) (value : CStr) : Prog IpBlock Bool :=
  match list with
  | none => pure false
  | some _ => ipInListFrom list value 0 n

/-- `dup_str`. -/
def dupStr (granted : Bool) (src : CStr) : Prog IpBlock (Option Addr) :=
  malloc placement (!granted) (.text src)

/-- The end of `push_ip`. -/
def storeCopyAt (log : List Bool) (arr : IpArrayAt) (text : CStr) :
    Prog IpBlock (IpArrayAt × List Bool) := do
  let copy ← dupStr placement (alloc.grants log.length (text.bytes.length + 1)) text
  match copy with
  | none => pure (arr, log ++ [false])
  | some a => do
    setCell IpBlock.arrayKind arr.ips arr.count a
    pure ({ arr with count := arr.count + 1 }, log ++ [true])

/-- `push_ip`. -/
def pushIpAt (log : List Bool) (arr : IpArrayAt) (text : CStr) :
    Prog IpBlock (IpArrayAt × List Bool) :=
  if arr.capacity ≤ arr.count then do
    let size := ipArraySize (growCap arr.capacity)
    let tmp ← growCells placement (!alloc.grants log.length size) IpBlock.arrayKind arr.ips
      (size / 8)
    match tmp with
    | none => pure (arr, log ++ [false])
    | some _ =>
      storeCopyAt placement alloc (log ++ [true]) ⟨tmp, arr.count, growCap arr.capacity⟩ text
  else storeCopyAt placement alloc log arr text

/-- The loop of `enumerate` at one entry. -/
def turnAt (st : ScanAt) (ifa : Ifaddrs) : Prog IpBlock ScanAt :=
  match readEntry pf ifa with
  | none => pure st
  | some e => do
    let found ← ipInListAt st.seen.ips st.seen.count e.key
    if found then pure st
    else do
      let seen ← pushIpAt placement alloc st.log st.seen e.key
      let result ← pushIpAt placement alloc seen.2 st.result (entryText mode e.ipStr e.prefixLen)
      pure ⟨seen.1, result.1, result.2⟩

/-- The loop of `enumerate`. -/
def scanAt (entries : List Ifaddrs) : Prog IpBlock ScanAt :=
  entries.foldlM (turnAt placement pf alloc mode) ⟨.empty, .empty, []⟩

/-- A string in an array is released. -/
def freeCell (ips : Option Addr) (i : Nat) : Prog IpBlock Unit := do
  let a ← getCell IpBlock.arrayKind ips i
  free (some a)

/-- `free_server_ip_addresses`, and the end of `enumerate` for the keys. -/
def freeServerIpAddresses (ips : Option Addr) (count : Int) : Prog IpBlock Unit :=
  match ips with
  | none => pure ()
  | some _ => do
    forFrom (freeCell ips) 0 count.toNat
    free ips

/-- `enumerate`. -/
def enumerateAt (entries : Option (List Ifaddrs)) (outCount : Int) :
    Prog IpBlock (Option Addr × Int) :=
  match entries with
  | none => pure (none, outCount)
  | some l => do
    let st ← scanAt placement pf alloc mode l
    freeServerIpAddresses st.seen.ips st.seen.count
    pure (st.result.ips, (st.result.count : Int))

/-- `get_server_ip_addresses`. -/
def getServerIpAddressesAt (entries : Option (List Ifaddrs)) (count : Option Int) :
    Prog IpBlock (Option Addr × Option Int) :=
  match count with
  | none => pure (none, none)
  | some _ => do
    let out ← enumerateAt placement pf alloc mode entries 0
    match out with
    | (none, _) => pure (none, some 0)
    | (some ips, found) => pure (some ips, some found)

/-- The texts of so many cells, from `start` on. -/
def textsFrom (ips : Option Addr) : Nat → Nat → Prog IpBlock (List CStr)
  | _, 0 => pure []
  | start, n + 1 => do
    let s ← getCell IpBlock.arrayKind ips start >>= textAt
    let rest ← textsFrom ips (start + 1) n
    pure (s :: rest)

/-- A caller that reads what there is and releases it, as `log_addresses_worker` does. -/
def listAddresses (entries : Option (List Ifaddrs)) (count : Option Int) :
    Prog IpBlock (Option (List CStr) × Option Int) := do
  let out ← getServerIpAddressesAt placement pf alloc mode entries count
  match out.1 with
  | none => pure (none, out.2)
  | some _ => do
    let texts ← textsFrom out.1 0 (out.2.getD 0).toNat
    freeServerIpAddresses out.1 (out.2.getD 0)
    pure (some texts, out.2)

end Programs

/-- A string of its own. -/
def ownsCopy (a : Addr) (s : CStr) : Assertion IpBlock := owns (some a) (some (.text s))

/-- An array with its strings. -/
def ownsIps (p : Option Addr) (capacity : Int) (strings : List CStr) : Assertion IpBlock :=
  ownsCells IpBlock.arrayKind ownsCopy p capacity.toNat strings

/-- The array is null as long as there is no capacity, which is a power of two and
    enough for the strings. -/
structure IpArray.Fits (arr : IpArray) : Prop where
  null : arr.ips = none ↔ arr.capacity = 0
  room : (arr.count = 0 ∧ arr.capacity = 0) ∨
    ∃ j, j ≤ 27 ∧ arr.capacity = (8 * 2 ^ j : Nat) ∧ arr.count ≤ 8 * 2 ^ j

/-- An array on the heap is this one. -/
structure IpArrayAt.Is (x : IpArrayAt) (arr : IpArray) : Prop where
  count : x.count = arr.count
  capacity : x.capacity = arr.capacity
  null : x.ips = none ↔ arr.ips = none
  fits : arr.Fits

/-- The array is on the heap. -/
def ownsArray (x : IpArrayAt) (arr : IpArray) : Assertion IpBlock :=
  fact (x.Is arr) * ownsIps x.ips arr.capacity arr.strings

/-- The arrays of the loop are on the heap. -/
def ownsScan (x : ScanAt) (st : Scan) : Assertion IpBlock :=
  fact (x.log = st.log) * (ownsArray x.seen st.seen * ownsArray x.result st.result)

namespace IpArray.Fits

variable {arr : IpArray}

/-- A full array is one that `grow_size` is about. -/
theorem full (h : arr.Fits) (hfull : arr.capacity ≤ arr.count) :
    CapOf arr.count arr.capacity := by
  rcases h.room with ⟨hcount, hcap⟩ | ⟨j, hj, hcap, hle⟩
  · exact Or.inl ⟨hcount, hcap⟩
  · have hpow : 0 < 2 ^ j := Nat.two_pow_pos j
    refine Or.inr ⟨j, hj, hcap, by omega, hle, fun i hi => ?_⟩
    have hlt := pow_lt_pow_two hi
    omega

/-- The array that was granted has room for one more. -/
theorem grown (h : arr.Fits) (hfull : arr.capacity ≤ arr.count)
    (hsize : ipArraySize (growCap arr.capacity) ≤ ptrdiffMax) :
    Fits ⟨some arr.strings, growCap arr.capacity⟩ ∧
      ipArraySize (growCap arr.capacity) / 8 = (growCap arr.capacity).toNat ∧
      arr.capacity.toNat ≤ (growCap arr.capacity).toNat ∧
      arr.count < (growCap arr.capacity).toNat := by
  rcases grow_size (h.full hfull) hfull (Nat.le_refl 8) (by omega) with ⟨_, hcap, _⟩ | ⟨_, hlarge⟩
  · have hroom := CapOf.room hcap
    rcases hcap with ⟨hzero, _⟩ | ⟨j, hj, hgrow, _, hle, _⟩
    · omega
    · have hpow : 2 ^ j ≤ 2 ^ 27 := Nat.pow_le_pow_right (by omega) hj
      have hpos : 0 < 2 ^ j := Nat.two_pow_pos j
      have hne : growCap arr.capacity ≠ 0 := by omega
      refine ⟨⟨?_, Or.inr ⟨j, hj, hgrow, ?_⟩⟩, ?_, by omega, hroom⟩
      · exact iff_of_false (Option.some_ne_none _) hne
      · change arr.strings.length ≤ _
        rw [← IpArray.count]
        omega
      · rw [ipArraySize, hgrow]
        omega
  · rw [ipArraySize] at hsize
    omega

end IpArray.Fits

/-- The count that comes with an array is that of its strings. -/
theorem getServerIpAddresses_count (pf : Platform) (alloc : Allocator) (mode : MaskMode)
    (entries : Option (List Ifaddrs)) (count : Option Int) :
    (getServerIpAddresses pf alloc mode entries count).2.getD 0
      = ((getServerIpAddresses pf alloc mode entries count).1.getD []).length := by
  unfold getServerIpAddresses enumerate
  cases count with
  | none => rfl
  | some n =>
      cases entries with
      | none => rfl
      | some l =>
          simp only [IpArray.count, IpArray.strings]
          cases (scan pf alloc mode l).result.ips <;> rfl

section Triples

variable {placement : Placement IpBlock} {pf : Platform} {alloc : Allocator} {mode : MaskMode}

theorem triple_textAt (a : Addr) (s : CStr) :
    Triple (ownsCopy a s) (textAt a) (fun x => fact (x = s) * ownsCopy a s) := by
  have hload : Triple (owns (some a) (some (IpBlock.stringKind.put s)))
      (loadAs IpBlock.stringKind (some a))
      (fun x => fact (x = s) * owns (some a) (some (IpBlock.stringKind.put s))) := triple_loadAs
  exact hload

/-- The rest of the cells is searched. -/
theorem triple_ipInListFrom (p : Option Addr) (capacity : Int) (value : CStr)
    (todo done : List CStr) :
    Triple (ownsIps p capacity (done ++ todo)) (ipInListFrom p value done.length todo.length)
      (fun b => fact (b = todo.any (fun s => s = value)) *
        ownsIps p capacity (done ++ todo)) := by
  induction todo generalizing done with
  | nil =>
      refine Triple.pure (le_of_eq ?_)
      rw [List.any_nil, fact_of rfl, one_mul]
  | cons s todo ih =>
      have hsplit : done ++ s :: todo = (done ++ [s]) ++ todo := by
        rw [List.append_assoc, List.singleton_append]
      have hlen : done.length + 1 = (done ++ [s]).length := by
        rw [List.length_append, List.length_singleton]
      refine (triple_useCell (g := fun s => s) triple_textAt done todo s).bind fun x =>
        Triple.at_fact fun hx => ?_
      rw [hx, List.any_cons]
      by_cases hfound : s = value
      · rw [if_pos hfound]
        refine Triple.pure (le_of_eq ?_)
        rw [decide_eq_true hfound, Bool.true_or, fact_of rfl, one_mul]
        rfl
      · rw [if_neg hfound, decide_eq_false hfound, Bool.false_or, hlen]
        have hrest := ih (done ++ [s])
        rw [← hsplit] at hrest
        exact hrest

/-- A key is looked for in an array. -/
theorem triple_ipInListAt (x : IpArrayAt) (arr : IpArray) (value : CStr) :
    Triple (ownsArray x arr) (ipInListAt x.ips x.count value)
      (fun b => fact (b = ipInList arr.ips arr.count value) * ownsArray x arr) := by
  refine Triple.at_fact fun hx => ?_
  unfold ownsArray
  rw [fact_of hx, one_mul]
  cases hips : x.ips with
  | none =>
      rw [hx.null.mp hips]
      refine Triple.pure (le_of_eq ?_)
      rw [ipInList, fact_of rfl, one_mul]
  | some a =>
      have hsome : arr.ips = some arr.strings := by
        cases harr : arr.ips with
        | none =>
            rw [hx.null.mpr harr] at hips
            exact absurd hips.symm (Option.some_ne_none a)
        | some l => rw [IpArray.strings, harr, Option.getD_some]
      rw [hsome, ipInList, IpArray.count, List.take_length, hx.count, IpArray.count]
      exact triple_ipInListFrom (some a) arr.capacity value arr.strings []

/-- A copy is put behind the strings, unless there is no memory for it. -/
theorem triple_storeCopyAt (log : List Bool) {x : IpArrayAt} {arr : IpArray} (text : CStr)
    (hroom : arr.count < arr.capacity.toNat) :
    Triple (ownsArray x arr) (storeCopyAt placement alloc log x text)
      (fun out => fact (out.2 = (storeCopy alloc log arr text).2) *
        ownsArray out.1 (storeCopy alloc log arr text).1) := by
  refine Triple.at_fact fun hx => ?_
  unfold storeCopyAt storeCopy
  refine (triple_malloc _).bind_one fun copy => ?_
  cases alloc.grants log.length (text.bytes.length + 1) with
  | false =>
      cases copy with
      | some a =>
          refine Triple.weaken Triple.at_bot (le_of_eq ?_) fun _ => le_rfl
          exact Quantale.bot_mul
      | none =>
          refine Triple.pure (le_of_eq ?_)
          rw [if_neg Bool.false_ne_true, fact_of rfl, one_mul, ownsArray, fact_of hx]
          rfl
  | true =>
      cases copy with
      | none =>
          refine Triple.weaken Triple.at_bot (le_of_eq ?_) fun _ => le_rfl
          exact Quantale.bot_mul
      | some a =>
          have hcap : arr.capacity ≠ 0 := by omega
          have hpush : Triple (ownsCopy a text * ownsIps x.ips arr.capacity arr.strings)
              (setCell IpBlock.arrayKind x.ips arr.count a)
              (fun _ => ownsIps x.ips arr.capacity (arr.strings ++ [text])) :=
            triple_pushOwned hroom a text
          have hcount : x.count + 1 = (arr.strings ++ [text]).length := by
            rw [hx.count, List.length_append]
            rfl
          have his : IpArrayAt.Is ⟨x.ips, x.count + 1, x.capacity⟩
              ⟨some (arr.strings ++ [text]), arr.capacity⟩ := by
            refine ⟨hcount, hx.capacity, ?_, ?_, ?_⟩
            · exact iff_of_false (fun h => hcap (hx.fits.null.mp (hx.null.mp h)))
                (Option.some_ne_none _)
            · exact iff_of_false (Option.some_ne_none _) hcap
            · rcases hx.fits.room with ⟨_, hzero⟩ | ⟨j, hj, hpow, _⟩
              · exact absurd hzero hcap
              · refine Or.inr ⟨j, hj, hpow, ?_⟩
                change (arr.strings ++ [text]).length ≤ _
                rw [← hcount, hx.count]
                omega
          rw [← hx.count] at hpush
          refine hpush.bind fun _ => Triple.pure (le_of_eq ?_)
          rw [if_pos rfl, fact_of rfl, one_mul, ownsArray, fact_of his, one_mul]
          rfl

/-- A text is added to an array, or the array stays as it is for want of memory. -/
theorem triple_pushIpAt (log : List Bool) (x : IpArrayAt) (arr : IpArray) (text : CStr) :
    Triple (ownsArray x arr) (pushIpAt placement alloc log x text)
      (fun out => fact (out.2 = (pushIp alloc log arr text).2) *
        ownsArray out.1 (pushIp alloc log arr text).1) := by
  refine Triple.at_fact fun hx => ?_
  have hown : ownsIps x.ips arr.capacity arr.strings = ownsArray x arr := by
    rw [ownsArray, fact_of hx, one_mul]
  unfold pushIpAt pushIp
  rw [hx.capacity, hx.count]
  by_cases hfull : arr.capacity ≤ arr.count
  · rw [if_pos hfull, if_pos hfull]
    simp only
    cases hgrant : alloc.grants log.length (ipArraySize (growCap arr.capacity)) with
    | false =>
        have hgrow : Triple (ownsIps x.ips arr.capacity arr.strings)
            (growCells placement (!false) IpBlock.arrayKind x.ips
              (ipArraySize (growCap arr.capacity) / 8))
            (fun q => fact (q = none) * ownsIps x.ips arr.capacity arr.strings) :=
          triple_growOwned_fails _
        refine hgrow.bind fun tmp => Triple.at_fact fun hnull => ?_
        rw [hnull, if_neg Bool.false_ne_true]
        refine Triple.pure (le_of_eq ?_)
        rw [fact_of rfl, one_mul]
        exact hown
    | true =>
        rcases hx.fits.grown hfull (alloc.bounded _ _ hgrant) with ⟨hfits, hcells, hle, hroom⟩
        have hgrow : Triple (ownsIps x.ips arr.capacity arr.strings)
            (growCells placement (!true) IpBlock.arrayKind x.ips
              (ipArraySize (growCap arr.capacity) / 8))
            (fun q => fact (q ≠ none) * ownsIps q (growCap arr.capacity) arr.strings) := by
          rw [hcells]
          exact triple_growOwned hle (by omega)
        rw [if_pos rfl]
        refine hgrow.bind fun tmp => Triple.at_fact fun hnull => ?_
        cases tmp with
        | none => exact absurd rfl hnull
        | some a =>
            have hgrown : ownsIps (some a) (growCap arr.capacity) arr.strings
                = ownsArray ⟨some a, arr.count, growCap arr.capacity⟩
                  ⟨some arr.strings, growCap arr.capacity⟩ := by
              have his : IpArrayAt.Is ⟨some a, arr.count, growCap arr.capacity⟩
                  ⟨some arr.strings, growCap arr.capacity⟩ :=
                ⟨rfl, rfl, iff_of_false (Option.some_ne_none _) (Option.some_ne_none _), hfits⟩
              rw [ownsArray, fact_of his, one_mul]
              rfl
            rw [hgrown]
            exact triple_storeCopyAt (log ++ [true]) text hroom
  · rw [if_neg hfull, if_neg hfull, hown]
    exact triple_storeCopyAt log text (by omega)

/-- The arrays after an entry. -/
theorem triple_turnAt (x : ScanAt) (st : Scan) (ifa : Ifaddrs) :
    Triple (ownsScan x st) (turnAt placement pf alloc mode x ifa)
      (fun y => ownsScan y (turn pf alloc mode st ifa)) := by
  refine Triple.at_fact fun hlog => ?_
  have hown : ownsArray x.seen st.seen * ownsArray x.result st.result = ownsScan x st := by
    rw [ownsScan, fact_of hlog, one_mul]
  unfold turnAt turn
  cases readEntry pf ifa with
  | none => exact Triple.pure hown.le
  | some e =>
      refine (triple_ipInListAt x.seen st.seen e.key).bind_frame fun found => ?_
      rw [mul_assoc]
      refine Triple.at_fact fun hfound => ?_
      rw [hfound]
      by_cases hin : ipInList st.seen.ips st.seen.count e.key = true
      · simp only [if_pos hin]
        exact Triple.pure hown.le
      · simp only [if_neg hin]
        rw [hlog]
        refine (triple_pushIpAt st.log x.seen st.seen e.key).bind_frame fun seen => ?_
        rw [mul_assoc]
        refine Triple.at_fact fun hseen => ?_
        rw [hseen, mul_comm]
        refine (triple_pushIpAt _ x.result st.result _).bind_frame fun result => ?_
        rw [mul_assoc]
        refine Triple.at_fact fun hresult => Triple.pure (le_of_eq ?_)
        rw [ownsScan, fact_of hresult, one_mul, mul_comm]

/-- The arrays after all entries. -/
theorem triple_scanFrom (entries : List Ifaddrs) (x : ScanAt) (st : Scan) :
    Triple (ownsScan x st) (entries.foldlM (turnAt placement pf alloc mode) x)
      (fun y => ownsScan y (entries.foldl (turn pf alloc mode) st)) := by
  induction entries generalizing x st with
  | nil => exact Triple.pure le_rfl
  | cons ifa entries ih =>
      rw [List.foldlM_cons, List.foldl_cons]
      exact (triple_turnAt x st ifa).bind fun y => ih y _

theorem ownsArray_empty : 1 ≤ ownsArray .empty .empty := by
  rw [ownsArray, fact_of ⟨rfl, rfl, iff_of_true rfl rfl, iff_of_true rfl rfl, Or.inl ⟨rfl, rfl⟩⟩,
    one_mul]
  exact le_ownsCells_nil

/-- The loop leaves the arrays of `scan`. -/
theorem triple_scanAt (entries : List Ifaddrs) :
    Triple 1 (scanAt placement pf alloc mode entries)
      (fun y => ownsScan y (scan pf alloc mode entries)) := by
  refine (triple_scanFrom entries _ _).weaken ?_ fun _ => le_rfl
  rw [ownsScan, fact_of rfl, one_mul]
  exact (one_mul 1).ge.trans (mul_le_mul' ownsArray_empty ownsArray_empty)

/-- A string of an array is released. -/
theorem triple_freeCell {p : Option Addr} {capacity i : Nat} {l : List Addr} {a : Addr}
    (s : CStr) (ha : l[i]? = some a) :
    Triple (array IpBlock.arrayKind p capacity l * ownsCopy a s) (freeCell p i)
      (fun _ => ⨆ y, array IpBlock.arrayKind p capacity (l.set i y)) := by
  rcases List.getElem?_eq_some_iff.mp ha with ⟨hi, hget⟩
  refine (triple_getCell ha).bind_frame fun b => ?_
  rw [mul_assoc]
  refine Triple.at_fact fun hb => ?_
  rw [hb, mul_comm]
  refine ((triple_free (some a) _).frame _).weaken le_rfl fun _ => ?_
  rw [one_mul]
  refine le_iSup_of_le a (le_of_eq ?_)
  rw [← hget, List.set_getElem_self]

/-- An array is released with its strings. -/
theorem triple_freeServerIpAddresses (p : Option Addr) (capacity : Int) (strings : List CStr) :
    Triple (ownsIps p capacity strings) (freeServerIpAddresses p strings.length)
      (fun _ => 1) := by
  cases p with
  | none => exact Triple.pure ownsCells_null_le
  | some a => exact triple_freeOwned fun i l x v hx => triple_freeCell v hx

/-- What a function leaves that returns an array and its count: these. -/
def ownsResult {N : Type} (out : Option Addr × N) (r : Option (List CStr) × N) :
    Assertion IpBlock :=
  fact ((out.1 = none ↔ r.1 = none) ∧ out.2 = r.2) *
    ⨆ capacity, ownsIps out.1 capacity (r.1.getD [])

theorem le_ownsIps_nil : (1 : Assertion IpBlock) ≤ ⨆ capacity, ownsIps none capacity [] :=
  le_iSup_of_le 0 le_ownsCells_nil

/-- `enumerate` leaves the array of the results; the keys are released. -/
theorem triple_enumerateAt (entries : Option (List Ifaddrs)) (outCount : Int) :
    Triple 1 (enumerateAt placement pf alloc mode entries outCount)
      (fun out => ownsResult out (enumerate pf alloc mode entries outCount)) := by
  cases entries with
  | none =>
      refine Triple.pure ?_
      rw [enumerate, ownsResult, fact_of ⟨iff_of_true rfl rfl, rfl⟩, one_mul]
      exact le_ownsIps_nil
  | some l =>
      refine (triple_scanAt l).bind fun st => Triple.at_fact fun _ => ?_
      rw [ownsArray, mul_assoc]
      refine Triple.at_fact fun hseen => ?_
      rw [hseen.count]
      refine (triple_freeServerIpAddresses _ _ _).bind_frame fun _ => ?_
      rw [one_mul]
      refine Triple.at_fact fun hresult => Triple.pure ?_
      rw [enumerate, ownsResult, fact_of ⟨hresult.null, by rw [hresult.count]⟩, one_mul]
      exact le_iSup_of_le (scan pf alloc mode l).result.capacity le_rfl

/-- `get_server_ip_addresses` leaves the array it returns. -/
theorem triple_getServerIpAddressesAt (entries : Option (List Ifaddrs)) (count : Option Int) :
    Triple 1 (getServerIpAddressesAt placement pf alloc mode entries count)
      (fun out => ownsResult out (getServerIpAddresses pf alloc mode entries count)) := by
  unfold getServerIpAddressesAt getServerIpAddresses
  cases count with
  | none =>
      refine Triple.pure ?_
      rw [ownsResult, fact_of ⟨iff_of_true rfl rfl, rfl⟩, one_mul]
      exact le_ownsIps_nil
  | some n =>
      refine (triple_enumerateAt entries 0).bind fun ⟨p, found⟩ => Triple.at_fact fun h => ?_
      generalize enumerate pf alloc mode entries 0 = r at h ⊢
      rcases r with ⟨ips, found'⟩
      rcases h with ⟨hnull, hfound⟩
      simp only at hnull hfound ⊢
      cases p with
      | none =>
          rw [hnull.mp rfl]
          refine Triple.pure (le_of_eq ?_)
          rw [ownsResult, fact_of ⟨iff_of_true rfl rfl, rfl⟩, one_mul]
      | some a =>
          cases ips with
          | none => exact absurd (hnull.mpr rfl) (Option.some_ne_none a)
          | some l =>
              refine Triple.pure (le_of_eq ?_)
              rw [ownsResult, fact_of ⟨hnull, by rw [hfound]⟩, one_mul]

/-- The texts of an array are read. -/
theorem triple_textsFrom (p : Option Addr) (capacity : Int) (todo done : List CStr) :
    Triple (ownsIps p capacity (done ++ todo)) (textsFrom p done.length todo.length)
      (fun l => fact (l = todo) * ownsIps p capacity (done ++ todo)) := by
  induction todo generalizing done with
  | nil =>
      refine Triple.pure (le_of_eq ?_)
      rw [fact_of rfl, one_mul]
  | cons s todo ih =>
      have hsplit : done ++ s :: todo = (done ++ [s]) ++ todo := by
        rw [List.append_assoc, List.singleton_append]
      have hlen : done.length + 1 = (done ++ [s]).length := by
        rw [List.length_append, List.length_singleton]
      have hrest := ih (done ++ [s])
      rw [← hsplit, ← hlen] at hrest
      refine (triple_useCell (g := fun s => s) triple_textAt done todo s).bind fun x =>
        Triple.at_fact fun hx => hrest.bind fun rest => Triple.at_fact fun hrest' =>
        Triple.pure (le_of_eq ?_)
      rw [hx, hrest', fact_of rfl, one_mul]

/-- The caller reads the strings, and gives the array back. -/
theorem triple_listAddresses (entries : Option (List Ifaddrs)) (count : Option Int) :
    Triple 1 (listAddresses placement pf alloc mode entries count)
      (fun r => fact (r = getServerIpAddresses pf alloc mode entries count)) := by
  refine (triple_getServerIpAddressesAt entries count).bind fun ⟨p, found⟩ =>
    Triple.at_fact fun h => Triple.at_iSup fun capacity => ?_
  have hcount := getServerIpAddresses_count pf alloc mode entries count
  generalize getServerIpAddresses pf alloc mode entries count = r at h hcount ⊢
  rcases r with ⟨ips, found'⟩
  rcases h with ⟨hnull, hfound⟩
  simp only at hnull hfound hcount ⊢
  cases p with
  | none =>
      rw [hnull.mp rfl]
      refine Triple.pure (ownsCells_null_le.trans (fact_of ?_).ge)
      rw [hfound]
  | some a =>
      cases ips with
      | none => exact absurd (hnull.mpr rfl) (Option.some_ne_none a)
      | some l =>
          rw [hfound, hcount]
          refine (triple_textsFrom (some a) capacity l []).bind fun texts =>
            Triple.at_fact fun htexts => (triple_freeServerIpAddresses _ _ _).bind fun _ =>
            Triple.pure (fact_of ?_).ge
          rw [htexts]

end Triples

/-- On any heap, wherever the blocks are put and whatever allocations fail, the addresses
    that are listed are those of `getServerIpAddresses`, nothing undefined is done with the
    heap, and once they are released the heap is as it was. From `2^30` addresses on the
    capacity is taken to wrap, and the array grows no more. -/
theorem getServerIpAddressesAt_free (placement : Placement IpBlock) (pf : Platform)
    (alloc : Allocator) (mode : MaskMode) (entries : Option (List Ifaddrs)) (count : Option Int)
    (heap : Heap IpBlock) :
    (listAddresses placement pf alloc mode entries count).run heap
      = some (getServerIpAddresses pf alloc mode entries count, heap) := by
  rcases (triple_listAddresses entries count).run_clean heap with ⟨r, hrun, hr⟩
  rw [hrun, hr]

end Server

end SendingSystem
