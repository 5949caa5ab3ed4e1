import SendingSystem.Lib.Firsts
import SendingSystem.Server.GetAll
import SendingSystem.Server.Subnet

/-!
# One address per subnet

`get_server_ip_addresses`: of the addresses of all interfaces, the first of each
subnet. The loop fills two arrays of strings that grow as needed, the keys it has
seen and the texts it returns, and skips an entry without address or netmask, of
another family, that cannot be written, or with a key it has seen.

An allocation that fails leaves an array as it is and is not reported, so then
the arrays get out of step. Every allocation is therefore logged, and the results
are about the runs in which none fails. As in `Server.GetAll` the capacity is
an `int` that doubles: an array of `2^30` strings cannot grow.

## Main definitions

* `Ifaddrs`: An entry of `getifaddrs`.
* `IpArray`: An array of strings with its capacity.
* `Allocator`: Which requests for memory are granted.
* `ipInList`, `pushIp`: The search in an array, and adding to it.
* `readEntry`, `entryText`: The text and the key of an entry.
* `turn`, `scan`, `enumerate`: The loop.
* `getServerIpAddresses`: The function.
* `Ifaddrs.address`: The address of an entry, if it has one that counts.
* `Lists`: What the function returns.
* `fullNtop`: An `inet_ntop` that leaves no digit out.

## Theorems

* `pushIp_holds`: What adding to an array does.
* `readEntry_address`: What an entry comes to.
* `scan_found`: What the arrays hold after any entries.
* `getServerIpAddresses_firsts`: The first address of each subnet, in order.
* `allocates_iff`: When no allocation fails.
* `fullNtop_documented`: What is taken of `inet_ntop` can be had.
-/

namespace SendingSystem

namespace Server

open CString IpText

/-- `AF_INET`. -/
def afInet : Nat := 2

/-- `AF_INET6`. -/
def afInet6 : Nat := 10

/-- What is read of a `struct sockaddr`: the family, and what stands in the place
    of the address for either family. -/
structure Sockaddr where
  saFamily : Nat
  sinAddr : BitVec 32
  sin6Addr : In6Addr
  deriving DecidableEq

/-- `struct ifaddrs`; its pointers may be null. -/
structure Ifaddrs where
  ifaAddr : Option Sockaddr
  ifaNetmask : Option Sockaddr
  deriving DecidableEq

/-- `server_ip_mask_mode`. -/
inductive MaskMode where
  | plain
  | withMask
  deriving DecidableEq

/-- An array of strings, null at first, and its capacity. Its count is the number
    of strings stored. -/
structure IpArray where
  ips : Option (List CStr)
  capacity : Int
  deriving DecidableEq

namespace IpArray

/-- No array yet. -/
def empty : IpArray := ⟨none, 0⟩

/-- The strings stored. -/
def strings (arr : IpArray) : List CStr := arr.ips.getD []

/-- Their number. -/
def count (arr : IpArray) : Nat := arr.strings.length

end IpArray

/-- Whether a request for memory is granted, by its number and its size. No object
    is larger than `PTRDIFF_MAX`. -/
structure Allocator where
  grants : Nat → Nat → Bool
  bounded : ∀ i size, grants i size = true → size ≤ ptrdiffMax

/-- `(size_t)new_cap * sizeof(char*)`, in 64 bits. -/
def ipArraySize (cap : Int) : Nat := ((cap % 2 ^ 64).toNat * 8) % 2 ^ 64

/-- `ip_in_list`. -/
def ipInList (list : Option (List CStr)) (n : Nat) (value : CStr) : Bool :=
  match list with
  | none => false
  | some l => (l.take n).any (fun s => s = value)

/-- The end of `push_ip`: a copy of the text goes behind the strings. The log has
    the answers of the allocator so far. -/
def storeCopy (alloc : Allocator) (log : List Bool) (arr : IpArray) (text : CStr) :
    IpArray × List Bool :=
  if alloc.grants log.length (text.bytes.length + 1) then
    (⟨some (arr.strings ++ [text]), arr.capacity⟩, log ++ [true])
  else (arr, log ++ [false])

/-- `push_ip`. A capacity of `2^30` or more is doubled as `growCap` does it. -/
def pushIp (alloc : Allocator) (log : List Bool) (arr : IpArray) (text : CStr) :
    IpArray × List Bool :=
  if arr.capacity ≤ arr.count then
    if alloc.grants log.length (ipArraySize (growCap arr.capacity)) then
      storeCopy alloc (log ++ [true]) ⟨some arr.strings, growCap arr.capacity⟩ text
    else (arr, log ++ [false])
  else storeCopy alloc log arr text

/-- What the loop of `enumerate` finds out about an entry. -/
structure Entry where
  ipStr : CStr
  prefixLen : Nat
  key : CStr
  deriving DecidableEq

/-- The first part of the loop: the address, the prefix length and the key of an
    entry that is not skipped. -/
def readEntry (pf : Platform) (ifa : Ifaddrs) : Option Entry :=
  match ifa.ifaAddr, ifa.ifaNetmask with
  | some sa, some mask =>
    if sa.saFamily = afInet then
      match pf.ntop.call (.v4 sa.sinAddr) inet6AddrStrLen with
      | none => none
      | some ipStr =>
        (subnetKeyV4 pf sa.sinAddr (prefixFromMaskV4 pf.order mask.sinAddr) keySize).map
          (fun key => ⟨ipStr, prefixFromMaskV4 pf.order mask.sinAddr, key⟩)
    else if sa.saFamily = afInet6 then
      match pf.ntop.call (.v6 sa.sin6Addr) inet6AddrStrLen with
      | none => none
      | some ipStr =>
        (subnetKeyV6 pf sa.sin6Addr (prefixFromMaskV6 mask.sin6Addr) keySize).map
          (fun key => ⟨ipStr, prefixFromMaskV6 mask.sin6Addr, key⟩)
    else none
  | _, _ => none

/-- `entry`. -/
def entryText (mode : MaskMode) (ipStr : CStr) (prefixLen : Nat) : CStr :=
  match mode with
  | .withMask => printed keySize (slashed ipStr prefixLen)
  | .plain => printed keySize ipStr.bytes

/-- The arrays of `enumerate`, and the log of the allocator. -/
structure Scan where
  seen : IpArray
  result : IpArray
  log : List Bool
  deriving DecidableEq

section Loop

variable (pf : Platform) (alloc : Allocator) (mode : MaskMode)

/-- The loop of `enumerate` at one entry. -/
def turn (st : Scan) (ifa : Ifaddrs) : Scan :=
  match readEntry pf ifa with
  | none => st
  | some e =>
    if ipInList st.seen.ips st.seen.count e.key then st
    else
      let (seen, log) := pushIp alloc st.log st.seen e.key
      let (result, log) := pushIp alloc log st.result (entryText mode e.ipStr e.prefixLen)
      ⟨seen, result, log⟩

/-- The loop of `enumerate`. -/
def scan (entries : List Ifaddrs) : Scan :=
  entries.foldl (turn pf alloc mode) ⟨.empty, .empty, []⟩

/-- `enumerate`, with the list of `getifaddrs` or its failure. -/
def enumerate (entries : Option (List Ifaddrs)) (outCount : Int) : Option (List CStr) × Int :=
  match entries with
  | none => (none, outCount)
  | some l => ((scan pf alloc mode l).result.ips, (scan pf alloc mode l).result.count)

/-- `get_server_ip_addresses`: the array returned, and what `count` points to
    afterwards, if it points anywhere. -/
def getServerIpAddresses (entries : Option (List Ifaddrs)) (count : Option Int) :
    Option (List CStr) × Option Int :=
  match count with
  | none => (none, none)
  | some _ =>
    match enumerate pf alloc mode entries 0 with
    | (none, _) => (none, some 0)
    | (some ips, found) => (some ips, some found)

/-- No allocation of the run fails. -/
def Allocates (entries : List Ifaddrs) : Prop := false ∉ (scan pf alloc mode entries).log

end Loop

/-- The address of an entry that has an address and a netmask, of one of the two
    families. -/
def Ifaddrs.address (order : ByteOrder) (ifa : Ifaddrs) : Option Address :=
  match ifa.ifaAddr, ifa.ifaNetmask with
  | some sa, some mask =>
    if sa.saFamily = afInet then some ⟨.v4 sa.sinAddr, prefixFromMaskV4 order mask.sinAddr⟩
    else if sa.saFamily = afInet6 then some ⟨.v6 sa.sin6Addr, prefixFromMaskV6 mask.sin6Addr⟩
    else none
  | _, _ => none

/-- How an address is listed: its text, with the mask followed by `/` and the length
    of its prefix. -/
def Address.text (ntop : InetNtop) (mode : MaskMode) (a : Address) : List UInt8 :=
  match mode with
  | .plain => (ntop.text a.ip).bytes
  | .withMask => slashed (ntop.text a.ip) a.prefixLen

/-- The result lists these addresses, in this order, with their number, and is
    `NULL` when there is none. -/
structure Lists (ntop : InetNtop) (mode : MaskMode) (heads : List Address)
    (r : Option (List CStr) × Option Int) : Prop where
  texts : (r.1.getD []).map CStr.bytes = heads.map (Address.text ntop mode)
  null : r.1 = none ↔ heads = []
  count : r.2 = some (heads.length : Int)

/-- An array with these strings in it, null if there is none. -/
structure IpArray.Holds (arr : IpArray) (texts : List (List UInt8)) : Prop where
  stored : arr.strings.map CStr.bytes = texts
  null : arr.ips = none ↔ texts = []
  cap : CapOf arr.count arr.capacity

namespace IpArray

theorem holds_empty : empty.Holds [] := ⟨rfl, iff_of_true rfl rfl, Or.inl ⟨rfl, rfl⟩⟩

variable {arr : IpArray} {texts : List (List UInt8)}

theorem Holds.count_eq (h : arr.Holds texts) : arr.count = texts.length := by
  rw [← h.stored, List.length_map, count]

/-- A search for a key is one among the texts. -/
theorem Holds.ipInList_iff (h : arr.Holds texts) (value : CStr) :
    ipInList arr.ips arr.count value = true ↔ value.bytes ∈ texts := by
  rw [← h.stored, count, strings]
  -- Before the first copy there is no array, and nothing to compare.
  cases hips : arr.ips with
  | none => exact iff_of_false Bool.false_ne_true List.not_mem_nil
  | some l =>
      rw [ipInList, Option.getD_some, List.take_length, List.any_eq_true, List.mem_map]
      simp only [decide_eq_true_eq, CStr.eq_iff]

end IpArray

section Push

variable {alloc : Allocator} {log : List Bool} {arr : IpArray} {texts : List (List UInt8)}
  {text : CStr}

/-- The log only grows. -/
theorem storeCopy_log : log <+: (storeCopy alloc log arr text).2 := by
  unfold storeCopy
  split
  · exact List.prefix_append _ _
  · exact List.prefix_append _ _

theorem pushIp_log : log <+: (pushIp alloc log arr text).2 := by
  unfold pushIp
  split
  · split
    · exact (List.prefix_append _ _).trans storeCopy_log
    · exact List.prefix_append _ _
  · exact storeCopy_log

/-- A copy was made: it stands behind the strings there were. -/
theorem storeCopy_holds (hstored : arr.strings.map CStr.bytes = texts)
    (hcap : CapOf (arr.count + 1) arr.capacity)
    (hlog : false ∉ (storeCopy alloc log arr text).2) :
    (storeCopy alloc log arr text).1.Holds (texts ++ [text.bytes]) := by
  unfold storeCopy at hlog ⊢
  -- A copy that is refused would be in the log.
  split at hlog
  · next hgrant =>
      rw [if_pos hgrant]
      refine ⟨?_, ?_, ?_⟩
      · rw [IpArray.strings, Option.getD_some, List.map_append, hstored]
        rfl
      · exact iff_of_false (fun h => by cases h)
          (List.append_ne_nil_of_right_ne_nil _ (List.cons_ne_nil _ _))
      · rw [IpArray.count, IpArray.strings, Option.getD_some, List.length_append]
        exact hcap
  · exact absurd (List.mem_append_right _ List.mem_cons_self) hlog

/-- A text was added and nothing failed: the array holds it after the others. -/
theorem pushIp_holds (h : arr.Holds texts) (hlog : false ∉ (pushIp alloc log arr text).2) :
    (pushIp alloc log arr text).1.Holds (texts ++ [text.bytes]) := by
  unfold pushIp at hlog ⊢
  by_cases hfull : arr.capacity ≤ arr.count
  · rw [if_pos hfull] at hlog ⊢
    by_cases hgrant : alloc.grants log.length (ipArraySize (growCap arr.capacity)) = true
    · rw [if_pos hgrant] at hlog ⊢
      -- What was granted can be granted, so the capacity has not wrapped.
      have hbound := alloc.bounded _ _ hgrant
      rcases grow_size h.cap hfull (Nat.le_refl 8) (by omega) with ⟨_, hcap, _⟩ | ⟨_, hsize⟩
      · exact storeCopy_holds h.stored hcap hlog
      · rw [ipArraySize] at hbound
        omega
    · rw [if_neg hgrant] at hlog
      exact absurd (List.mem_append_right _ List.mem_cons_self) hlog
  · rw [if_neg hfull] at hlog ⊢
    exact storeCopy_holds h.stored (capOf_succ h.cap hfull) hlog

end Push

section Run

variable {pf : Platform} {alloc : Allocator} {mode : MaskMode}

/-- An entry is skipped before its key is looked for, or has an address. -/
theorem readEntry_address (h : pf.ntop.Documented) (ifa : Ifaddrs) :
    (ifa.address pf.order = none ∧ readEntry pf ifa = none) ∨
      ∃ a k, ifa.address pf.order = some a ∧ a.prefixLen ≤ 128 ∧
        k.bytes = (a.subnet pf.order).text pf.ntop ∧
        readEntry pf ifa = some ⟨pf.ntop.text a.ip, a.prefixLen, k⟩ := by
  -- An entry without an address or a mask is passed over.
  rcases ifa with ⟨_ | sa, _ | mask⟩
  · exact Or.inl ⟨rfl, rfl⟩
  · exact Or.inl ⟨rfl, rfl⟩
  · exact Or.inl ⟨rfl, rfl⟩
  · unfold Ifaddrs.address readEntry
    simp only
    by_cases hv4 : sa.saFamily = afInet
    · right
      have hlen : prefixFromMaskV4 pf.order mask.sinAddr ≤ 128 :=
        Nat.le_trans (prefixFromMaskV4_le _ _) (by omega)
      rcases subnetKeyV4_some h sa.sinAddr hlen with ⟨k, hkey, hbytes⟩
      refine ⟨⟨.v4 sa.sinAddr, prefixFromMaskV4 pf.order mask.sinAddr⟩, k, if_pos hv4, hlen, hbytes,
        ?_⟩
      rw [if_pos hv4, h.call_eq _ (h.text_length _), hkey]
      rfl
    · by_cases hv6 : sa.saFamily = afInet6
      · right
        have hlen := prefixFromMaskV6_le mask.sin6Addr
        rcases subnetKeyV6_some h sa.sin6Addr hlen with ⟨k, hkey, hbytes⟩
        refine ⟨⟨.v6 sa.sin6Addr, prefixFromMaskV6 mask.sin6Addr⟩, k, ?_, hlen, hbytes, ?_⟩
        · rw [if_neg hv4, if_pos hv6]
        · rw [if_neg hv4, if_pos hv6, h.call_eq _ (h.text_length _), hkey]
          rfl
      · left
        simp only [if_neg hv4, if_neg hv6, and_self]

theorem Address.length_text (h : pf.ntop.Documented) {a : Address} (hlen : a.prefixLen ≤ 128) :
    (a.text pf.ntop mode).length < keySize := by
  cases mode with
  | plain => exact Nat.lt_trans (h.text_length a.ip) (by decide)
  | withMask => exact length_slashed (h.text_length a.ip) hlen

/-- The text of an entry is not cut either. -/
theorem entryText_bytes (h : pf.ntop.Documented) {a : Address} (hlen : a.prefixLen ≤ 128) :
    (entryText mode (pf.ntop.text a.ip) a.prefixLen).bytes = a.text pf.ntop mode := by
  have htext := h.text_length a.ip
  cases mode with
  | plain =>
      exact printed_eq (pf.ntop.text a.ip).noNul (Nat.lt_trans htext (by decide))
  | withMask => exact printed_slashed htext hlen

/-- The first address of each subnet. -/
def heads (order : ByteOrder) (entries : List Ifaddrs) : List Address :=
  firsts (Address.subnet order) (entries.filterMap (Ifaddrs.address order))

theorem heads_skip {order : ByteOrder} (entries : List Ifaddrs) {ifa : Ifaddrs}
    (h : ifa.address order = none) : heads order (entries ++ [ifa]) = heads order entries := by
  rw [heads, List.filterMap_append, List.filterMap_cons_none h, List.filterMap_nil,
    List.append_nil, heads]

/-- An address is added unless its subnet was there. -/
theorem heads_concat {order : ByteOrder} (entries : List Ifaddrs) {ifa : Ifaddrs} {a : Address}
    (h : ifa.address order = some a) :
    heads order (entries ++ [ifa]) = heads order entries
      ++ if ∃ y ∈ entries.filterMap (Ifaddrs.address order), y.subnet order = a.subnet order
        then [] else [a] := by
  rw [heads, List.filterMap_append, List.filterMap_cons_some h, List.filterMap_nil,
    firsts_concat, heads]

theorem length_heads_le (order : ByteOrder) (entries : List Ifaddrs) (ifa : Ifaddrs) :
    (heads order entries).length ≤ (heads order (entries ++ [ifa])).length := by
  cases h : ifa.address order with
  | none => rw [heads_skip entries h]
  | some a =>
      rw [heads_concat entries h, List.length_append]
      omega

/-- What the arrays hold after these entries: of the first addresses of their subnets
    the keys and the texts. -/
structure Found (pf : Platform) (mode : MaskMode) (entries : List Ifaddrs) (st : Scan) :
    Prop where
  seen : st.seen.Holds
    ((heads pf.order entries).map (fun a => (a.subnet pf.order).text pf.ntop))
  result : st.result.Holds ((heads pf.order entries).map (Address.text pf.ntop mode))

/-- The search for a key finds out whether its subnet has been seen. -/
theorem Found.ipInList_iff (h : pf.ntop.Documented) {entries : List Ifaddrs} {st : Scan}
    (hfound : Found pf mode entries st) {a : Address} {k : CStr}
    (hkey : k.bytes = (a.subnet pf.order).text pf.ntop) :
    ipInList st.seen.ips st.seen.count k = true ↔
      ∃ y ∈ entries.filterMap (Ifaddrs.address pf.order),
        y.subnet pf.order = a.subnet pf.order := by
  rw [hfound.seen.ipInList_iff, List.mem_map, hkey, heads,
    ← exists_firsts_iff (Address.subnet pf.order) _ (fun n => n = a.subnet pf.order)]
  -- The seen keys are those of the first addresses, and a key tells its subnet.
  constructor
  · rintro ⟨y, hy, htext⟩
    exact ⟨y, hy, Subnet.text_injective h htext⟩
  · rintro ⟨y, hy, hsubnet⟩
    exact ⟨y, hy, by rw [hsubnet]⟩

theorem turn_log (st : Scan) (ifa : Ifaddrs) : st.log <+: (turn pf alloc mode st ifa).log := by
  unfold turn
  split
  · exact List.prefix_refl _
  · split
    · exact List.prefix_refl _
    · exact pushIp_log.trans pushIp_log

/-- One more entry. -/
theorem turn_found (h : pf.ntop.Documented) {entries : List Ifaddrs} {st : Scan}
    (hfound : Found pf mode entries st) (ifa : Ifaddrs)
    (hlog : false ∉ (turn pf alloc mode st ifa).log) :
    Found pf mode (entries ++ [ifa]) (turn pf alloc mode st ifa) := by
  unfold turn at hlog ⊢
  rcases readEntry_address h ifa with ⟨hnone, hread⟩ | ⟨a, k, ha, hlen, hkey, hread⟩
  · have hsame := heads_skip entries hnone
    rw [hread]
    exact ⟨hsame ▸ hfound.seen, hsame ▸ hfound.result⟩
  · rw [hread] at hlog ⊢
    simp only at hlog ⊢
    have hiff := hfound.ipInList_iff h hkey
    by_cases hin : ipInList st.seen.ips st.seen.count k = true
    -- The subnet is not new, and the arrays stay as they are.
    · have hsame := heads_concat entries ha
      rw [if_pos (hiff.mp hin), List.append_nil] at hsame
      rw [if_pos hin]
      exact ⟨hsame ▸ hfound.seen, hsame ▸ hfound.result⟩
    · have hmore := heads_concat entries ha
      rw [if_neg (fun hold => hin (hiff.mpr hold))] at hmore
      rw [if_neg hin] at hlog ⊢
      -- The allocator is asked for the key first.
      have hseen := pushIp_holds hfound.seen (fun hmem => hlog (pushIp_log.subset hmem))
      have hresult := pushIp_holds hfound.result hlog
      rw [hkey] at hseen
      rw [entryText_bytes h hlen] at hresult
      refine ⟨?_, ?_⟩
      · rw [hmore, List.map_append]
        exact hseen
      · rw [hmore, List.map_append]
        exact hresult

theorem scan_concat (entries : List Ifaddrs) (ifa : Ifaddrs) :
    scan pf alloc mode (entries ++ [ifa])
      = turn pf alloc mode (scan pf alloc mode entries) ifa := by
  rw [scan, List.foldl_append, scan]
  rfl

/-- While no allocation fails, the arrays hold the keys and the texts of the same
    addresses. -/
theorem scan_found (h : pf.ntop.Documented) (entries : List Ifaddrs)
    (hlog : Allocates pf alloc mode entries) :
    Found pf mode entries (scan pf alloc mode entries) := by
  induction entries using List.reverseRecOn with
  | nil => exact ⟨IpArray.holds_empty, IpArray.holds_empty⟩
  | append_singleton entries ifa ih =>
      -- The log of a longer scan begins with that of the shorter one.
      rw [Allocates, scan_concat] at hlog
      rw [scan_concat]
      exact turn_found h (ih (fun hmem => hlog ((turn_log _ ifa).subset hmem))) ifa hlog

/-- The function lists the first address of each subnet that is attached, in the
    order of the interfaces: the same ones in both modes. -/
theorem getServerIpAddresses_firsts (pf : Platform) (h : pf.ntop.Documented)
    (entries : List Ifaddrs) :
    ∃ addresses, FirstOfEach (Address.subnet pf.order)
        (entries.filterMap (Ifaddrs.address pf.order)) addresses ∧
      ∀ alloc mode (count : Int), Allocates pf alloc mode entries →
        Lists pf.ntop mode addresses
          (getServerIpAddresses pf alloc mode (some entries) (some count)) := by
  refine ⟨heads pf.order entries, firstOfEach_firsts _ _, fun alloc mode count hlog => ?_⟩
  have hresult := (scan_found h entries hlog).result
  have hcount := hresult.count_eq
  have hnull := hresult.null
  rw [List.map_eq_nil_iff] at hnull
  rw [List.length_map] at hcount
  unfold getServerIpAddresses enumerate
  -- No array is no address; an array has the texts, as many as were counted.
  cases hips : (scan pf alloc mode entries).result.ips with
  | none =>
      have hnil := hnull.mp hips
      simp only [hips]
      exact ⟨by rw [hnil]; rfl, iff_of_true rfl hnil, by rw [hnil]; rfl⟩
  | some ips =>
      have hstored := hresult.stored
      rw [IpArray.strings, hips] at hstored
      simp only [hips, hcount]
      exact ⟨hstored, hips ▸ hnull, rfl⟩

end Run

section Granted

variable {pf : Platform} {alloc : Allocator} {mode : MaskMode} {log : List Bool}

/-- A request was granted: still none is refused. -/
theorem notMem_granted (h : false ∉ log) : false ∉ log ++ [true] := by
  intro hmem
  rcases List.mem_append.mp hmem with hmem | hmem
  · exact h hmem
  · exact Bool.false_ne_true (List.mem_singleton.mp hmem)

/-- Adding to an array that has fewer than `2^30` strings, with an allocator that
    grants what it can. -/
theorem pushIp_granted (hgrants : ∀ i size, size ≤ ptrdiffMax → alloc.grants i size = true)
    {arr : IpArray} {texts : List (List UInt8)} {text : CStr} (h : arr.Holds texts)
    (hfew : texts.length < 2 ^ 30) (htext : text.bytes.length < keySize) (hlog : false ∉ log) :
    false ∉ (pushIp alloc log arr text).2 := by
  have hcopy : ∀ log' arr', false ∉ log' → false ∉ (storeCopy alloc log' arr' text).2 := by
    intro log' arr' hlog'
    -- The terminator is copied with the text.
    have hsize : text.bytes.length + 1 ≤ ptrdiffMax := Nat.le_trans htext (by decide)
    rw [storeCopy, if_pos (hgrants _ _ hsize)]
    exact notMem_granted hlog'
  unfold pushIp
  by_cases hfull : arr.capacity ≤ arr.count
  · rcases grow_size h.cap hfull (Nat.le_refl 8) (by omega) with ⟨_, _, hsize⟩ | ⟨hmany, _⟩
    · have hgrant := hgrants log.length (ipArraySize (growCap arr.capacity)) hsize
      rw [if_pos hfull, if_pos hgrant]
      exact hcopy _ _ (notMem_granted hlog)
    · rw [h.count_eq] at hmany
      omega
  · rw [if_neg hfull]
    exact hcopy _ _ hlog

/-- One more entry, while there is room for its subnet. -/
theorem turn_granted (h : pf.ntop.Documented)
    (hgrants : ∀ i size, size ≤ ptrdiffMax → alloc.grants i size = true)
    {entries : List Ifaddrs} {st : Scan} (hfound : Found pf mode entries st) {ifa : Ifaddrs}
    (hfew : (heads pf.order (entries ++ [ifa])).length ≤ 2 ^ 30) (hlog : false ∉ st.log) :
    false ∉ (turn pf alloc mode st ifa).log := by
  unfold turn
  rcases readEntry_address h ifa with ⟨_, hread⟩ | ⟨a, k, ha, hlen, hkey, hread⟩
  · rw [hread]
    exact hlog
  · rw [hread]
    simp only
    by_cases hin : ipInList st.seen.ips st.seen.count k = true
    · rw [if_pos hin]
      exact hlog
    · rw [if_neg hin]
      rw [heads_concat entries ha, if_neg (fun hold => hin ((hfound.ipInList_iff h hkey).mpr hold)),
        List.length_append, List.length_singleton] at hfew
      have hkeyLen : k.bytes.length < keySize := by
        rw [hkey]
        exact Subnet.length_text h (a.subnet_prefixLen pf.order ▸ hlen)
      have hentryLen : (entryText mode (pf.ntop.text a.ip) a.prefixLen).bytes.length < keySize := by
        rw [entryText_bytes h hlen]
        exact Address.length_text h hlen
      -- Key and entry are short, and there are fewer than `2^30` of either.
      refine pushIp_granted hgrants hfound.result ?_ hentryLen
        (pushIp_granted hgrants hfound.seen ?_ hkeyLen hlog)
      · rw [List.length_map]
        omega
      · rw [List.length_map]
        omega

/-- With an allocator that grants what it can, an allocation fails only when there
    are more than `2^30` subnets. -/
theorem allocates_iff (h : pf.ntop.Documented)
    (hgrants : ∀ i size, size ≤ ptrdiffMax → alloc.grants i size = true)
    (entries : List Ifaddrs) :
    Allocates pf alloc mode entries ↔ (heads pf.order entries).length ≤ 2 ^ 30 := by
  constructor
  · intro hlog
    have hresult := (scan_found h entries hlog).result
    have hcount := hresult.count_eq
    rw [List.length_map] at hcount
    rw [← hcount]
    exact hresult.cap.count_le
  · intro hfew
    -- Every allocation before the last entry is granted, as there were no more subnets
    -- then.
    induction entries using List.reverseRecOn with
    | nil => exact List.not_mem_nil
    | append_singleton entries ifa ih =>
        have hbefore := ih (Nat.le_trans (length_heads_le _ _ _) hfew)
        rw [Allocates, scan_concat]
        exact turn_granted h hgrants (scan_found h entries hbefore) hfew hbefore

end Granted

section Host

/-- An IPv4 address as `inet_ntop` writes it, on a little-endian host. -/
def dotted (x : BitVec 32) : List UInt8 :=
  [46].intercalate [decimal (x.extractLsb' 0 8).toNat, decimal (x.extractLsb' 8 8).toNat,
    decimal (x.extractLsb' 16 8).toNat, decimal (x.extractLsb' 24 8).toNat]

/-- A lower case hexadecimal digit. -/
def hexDigit (n : Nat) : UInt8 := (if n < 10 then n + 48 else n + 87).toUInt8

/-- Bytes from an index on in hexadecimal, with a colon before each other one. This
    is how `inet_ntop` writes an IPv6 address in which no digit can be left out. -/
def colonHex : Nat → List (BitVec 8) → List UInt8
  | _, [] => []
  | i, b :: l =>
    (if i % 2 = 0 ∧ 0 < i then [58] else [])
      ++ hexDigit (b.toNat / 16) :: hexDigit (b.toNat % 16) :: colonHex (i + 1) l

/-- A host that leaves no digit out. -/
def fullNtop : InetNtop where
  text
    | .v4 x => heapString (dotted x)
    | .v6 x => heapString (colonHex 0 x.s6Addr)
  fails := fun _ => false

theorem dotted_mem {x : BitVec 32} {c : UInt8} (h : c ∈ dotted x) :
    (48 ≤ c.toNat ∧ c.toNat < 58) ∨ c = 46 := by
  simp only [dotted, List.intercalate_cons_cons, List.intercalate_singleton, List.mem_append,
    List.mem_singleton] at h
  rcases h with ((h | h) | (h | h) | (h | h) | h)
  all_goals
    first
      | exact Or.inl (decimal_mem h)
      | exact Or.inr h

theorem length_dotted (x : BitVec 32) : (dotted x).length < inetAddrStrLen := by
  have hbyte : ∀ b : BitVec 8, (decimal b.toNat).length ≤ 3 := by
    intro b
    have hb := b.isLt
    exact length_decimal_le (by omega) (by omega)
  have h0 := hbyte (x.extractLsb' 0 8)
  have h1 := hbyte (x.extractLsb' 8 8)
  have h2 := hbyte (x.extractLsb' 16 8)
  have h3 := hbyte (x.extractLsb' 24 8)
  simp only [dotted, List.intercalate_cons_cons, List.intercalate_singleton, List.length_append,
    List.length_singleton, inetAddrStrLen]
  omega

theorem dotted_injective {x y : BitVec 32} (h : dotted x = dotted y) : x = y := by
  have hdot : ∀ n, 46 ∉ decimal n := fun n hmem => absurd (decimal_mem hmem).1 (by decide)
  have hsplit : ∀ z : BitVec 32, (dotted z).splitOn 46
      = [decimal (z.extractLsb' 0 8).toNat, decimal (z.extractLsb' 8 8).toNat,
        decimal (z.extractLsb' 16 8).toNat, decimal (z.extractLsb' 24 8).toNat] := by
    intro z
    refine List.splitOn_intercalate 46 (fun l hl => ?_) (List.cons_ne_nil _ _)
    simp only [List.mem_cons, List.not_mem_nil, or_false] at hl
    rcases hl with rfl | rfl | rfl | rfl <;> exact hdot _
  have hparts := congrArg (List.splitOn 46) h
  rw [hsplit, hsplit] at hparts
  simp only [List.cons.injEq, and_true] at hparts
  rcases hparts with ⟨h0, h1, h2, h3⟩
  -- The four bytes make up the address.
  have e0 := decimal_injective h0
  have e1 := decimal_injective h1
  have e2 := decimal_injective h2
  have e3 := decimal_injective h3
  simp only [BitVec.extractLsb'_toNat, Nat.shiftRight_eq_div_pow] at e0 e1 e2 e3
  have hx := x.isLt
  have hy := y.isLt
  refine BitVec.eq_of_toNat_eq ?_
  omega

theorem hexDigit_toNat {n : Nat} (h : n < 16) :
    (hexDigit n).toNat = if n < 10 then n + 48 else n + 87 := by
  rw [hexDigit, Nat.toUInt8_eq, UInt8.toNat_ofNat']
  refine Nat.mod_eq_of_lt ?_
  split <;> omega

theorem hexDigit_injective {m n : Nat} (hm : m < 16) (hn : n < 16)
    (h : hexDigit m = hexDigit n) : m = n := by
  have hto := congrArg UInt8.toNat h
  rw [hexDigit_toNat hm, hexDigit_toNat hn] at hto
  split at hto
  · split at hto <;> omega
  · split at hto <;> omega

theorem colonHex_mem : ∀ (l : List (BitVec 8)) (i : Nat), ∀ c ∈ colonHex i l,
    (∃ n, n < 16 ∧ c = hexDigit n) ∨ c = 58 := by
  intro l
  induction l with
  | nil => exact fun i c hc => absurd hc List.not_mem_nil
  | cons b l ih =>
      intro i c hc
      have hb := b.isLt
      rw [colonHex, List.mem_append, List.mem_cons, List.mem_cons] at hc
      rcases hc with hc | rfl | rfl | hc
      · split at hc
        · exact Or.inr (List.mem_singleton.mp hc)
        · exact absurd hc List.not_mem_nil
      · exact Or.inl ⟨b.toNat / 16, by omega, rfl⟩
      · exact Or.inl ⟨b.toNat % 16, by omega, rfl⟩
      · exact ih (i + 1) c hc

/-- Two digits for each byte, and a colon for each other one. -/
theorem length_colonHex_le : ∀ (l : List (BitVec 8)) (i : Nat),
    (colonHex i l).length ≤ 2 * l.length + (l.length + 1 - i % 2) / 2 := by
  intro l
  induction l with
  | nil => exact fun i => Nat.zero_le _
  | cons b l ih =>
      intro i
      -- A colon stands in front of every second byte.
      have hrest := ih (i + 1)
      rw [colonHex]
      simp only [List.length_append, List.length_cons]
      split
      · rw [List.length_singleton]
        omega
      · rw [List.length_nil]
        omega

theorem colonHex_colon {l : List (BitVec 8)} (h : l.length = 16) : 58 ∈ colonHex 0 l := by
  rcases l with _ | ⟨a, _ | ⟨b, _ | ⟨c, l⟩⟩⟩
  · cases h
  · cases h
  · cases h
  · exact List.mem_append_right _ (List.mem_cons_of_mem _ (List.mem_cons_of_mem _
      (List.mem_append_right _ (List.mem_cons_of_mem _ (List.mem_cons_of_mem _
        (List.mem_append_left _ List.mem_cons_self))))))

theorem colonHex_injective : ∀ (l m : List (BitVec 8)) (i : Nat), l.length = m.length →
    colonHex i l = colonHex i m → l = m := by
  intro l
  induction l with
  | nil => exact fun m i hlen _ => (List.length_eq_zero_iff.mp hlen.symm).symm
  | cons a l ih =>
      intro m i hlen h
      cases m with
      | nil => cases hlen
      | cons b m =>
          rw [colonHex, colonHex, List.append_cancel_left_eq, List.cons.injEq,
            List.cons.injEq] at h
          have ha := a.isLt
          have hb := b.isLt
          -- The colon in front is the same on both sides, so the digits decide.
          have hhigh := hexDigit_injective (by omega) (by omega) h.1
          have hlow := hexDigit_injective (by omega) (by omega) h.2.1
          rw [ih m (i + 1) (Nat.succ.inj hlen) h.2.2, BitVec.eq_of_toNat_eq (x := a) (y := b)
            (by omega)]

theorem isDigit_byte {c : UInt8} (h : 48 ≤ c.toNat ∧ c.toNat < 58) :
    isDigit c.toUInt16 = true := by
  rw [isDigit, Bool.and_eq_true, decide_eq_true_eq, decide_eq_true_eq, UInt16.le_iff_toNat_le,
    UInt16.lt_iff_toNat_lt, UInt8.toNat_toUInt16]
  exact h

theorem isHexDigit_hexDigit : ∀ n < 16, isHexDigit (hexDigit n).toUInt16 = true := by decide

theorem noNul_dotted (x : BitVec 32) : 0 ∉ dotted x := by
  intro h0
  rcases dotted_mem h0 with h | h
  · exact absurd h.1 (by decide)
  · exact absurd h (by decide)

theorem noNul_colonHex (l : List (BitVec 8)) : 0 ∉ colonHex 0 l := by
  intro h0
  rcases colonHex_mem l 0 0 h0 with ⟨n, hn, h⟩ | h
  · have hdigit := isHexDigit_hexDigit n hn
    rw [← h] at hdigit
    exact absurd hdigit (by decide)
  · exact absurd h (by decide)

theorem fullNtop_documented : fullNtop.Documented where
  succeeds _ := rfl
  v4_injective a b h := by
    have hbytes := congrArg CStr.bytes h
    simp only [fullNtop, heapString_bytes (noNul_dotted _)] at hbytes
    exact dotted_injective hbytes
  v6_injective a b h := by
    have hbytes := congrArg CStr.bytes h
    simp only [fullNtop, heapString_bytes (noNul_colonHex _)] at hbytes
    rw [In6Addr.mk.injEq]
    exact colonHex_injective _ _ 0 (a.size.trans b.size.symm) hbytes
  v4_length a := by
    simp only [fullNtop, heapString_bytes (noNul_dotted _)]
    exact length_dotted a
  v6_length a := by
    have hle := length_colonHex_le a.s6Addr 0
    rw [a.size] at hle
    simp only [fullNtop, heapString_bytes (noNul_colonHex _), inet6AddrStrLen]
    omega
  v4_mem a c hc := by
    simp only [fullNtop, heapString_bytes (noNul_dotted _)] at hc
    exact (dotted_mem hc).imp_left isDigit_byte
  v6_mem a c hc := by
    simp only [fullNtop, heapString_bytes (noNul_colonHex _)] at hc
    rcases colonHex_mem a.s6Addr 0 c hc with ⟨n, hn, rfl⟩ | h
    · exact Or.inl (isHexDigit_hexDigit n hn)
    · exact Or.inr (Or.inr h)
  v6_colon a := by
    simp only [fullNtop, heapString_bytes (noNul_colonHex _)]
    exact colonHex_colon a.size

/-- A little-endian host. -/
def littleHost : Platform := ⟨.littleEndian, fullNtop⟩

/-- The allocator grants what it can. -/
def generous : Allocator := ⟨fun _ size => size ≤ ptrdiffMax, fun _ _ h => of_decide_eq_true h⟩

/-- No bytes where no IPv6 address is read. -/
def noBytes : In6Addr := ⟨List.replicate 16 0, rfl⟩

/-- `2001:1db8:1234:5678:9abc:def1:2345:6789`. -/
def hostV6 : In6Addr :=
  ⟨[0x20, 0x01, 0x1d, 0xb8, 0x12, 0x34, 0x56, 0x78, 0x9a, 0xbc, 0xde, 0xf1, 0x23, 0x45, 0x67,
    0x89], rfl⟩

/-- `127.0.0.1/8`, an entry of another family, one without a netmask, two addresses of
    `192.168.1.0/24` and an IPv6 address alone in its subnet. -/
def hostEntries : List Ifaddrs :=
  [⟨some ⟨afInet, 0x0100007F, noBytes⟩, some ⟨afInet, 0x000000FF, noBytes⟩⟩,
    ⟨some ⟨17, 0, noBytes⟩, some ⟨17, 0, noBytes⟩⟩,
    ⟨some ⟨afInet, 0x2A01A8C0, noBytes⟩, none⟩,
    ⟨some ⟨afInet, 0x2A01A8C0, noBytes⟩, some ⟨afInet, 0x00FFFFFF, noBytes⟩⟩,
    ⟨some ⟨afInet, 0x2B01A8C0, noBytes⟩, some ⟨afInet, 0x00FFFFFF, noBytes⟩⟩,
    ⟨some ⟨afInet6, 0, hostV6⟩, some ⟨afInet6, 0, ⟨List.replicate 16 0xFF, rfl⟩⟩⟩]

theorem getServerIpAddresses_host :
    ∃ addresses, FirstOfEach (Address.subnet .littleEndian)
        (hostEntries.filterMap (Ifaddrs.address .littleEndian)) addresses ∧
      ∀ mode, Lists fullNtop mode addresses
        (getServerIpAddresses littleHost generous mode (some hostEntries) (some 0)) := by
  rcases getServerIpAddresses_firsts littleHost fullNtop_documented hostEntries with
    ⟨addresses, hfirst, hlists⟩
  refine ⟨addresses, hfirst, fun mode => hlists generous mode 0 ?_⟩
  refine (allocates_iff fullNtop_documented (fun _ _ h => decide_eq_true h) hostEntries).mpr ?_
  exact Nat.le_trans ((firsts_sublist _ _).length_le.trans (List.length_filterMap_le _ _))
    (by decide)

example : getServerIpAddresses littleHost generous .withMask (some hostEntries) (some 0)
    = (some [.lit "127.0.0.1/8", .lit "192.168.1.42/24",
      .lit "2001:1db8:1234:5678:9abc:def1:2345:6789/128"], some 3) := by decide

end Host

end Server

end SendingSystem
