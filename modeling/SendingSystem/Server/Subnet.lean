import SendingSystem.Lib.IpText
import SendingSystem.Lib.Path
import SendingSystem.Server.HttpJson

/-!
# Subnet keys

The part of `get_server_ip_addresses.c` that tells the subnet of an address: the
prefix length is counted in the netmask, the network is the address with the bits
after the prefix cleared, and the key is `"network/prefix"`. Addresses are in
network byte order, so an IPv4 netmask is turned around before its bits are
counted, and the mask of an IPv4 network before it is applied.

How an address is written is left to `inet_ntop`, of which only what is
documented is used. The key is printed into an array of 54 bytes, which is
enough for any address and prefix length.

## Main definitions

* `ByteOrder`, `ntohl`, `htonl`: The order of the host's bytes.
* `In6Addr`, `IpAddress`: The addresses.
* `InetNtop`: `inet_ntop`, and what is documented of it.
* `prefixFromMaskV4`, `prefixFromMaskV6`: The length of the prefix.
* `networkV4`, `networkV6`: The network of an address.
* `subnetKeyV4`, `subnetKeyV6`: The keys.
* `Subnet`, `Address.subnet`: What a key is the key of.

## Theorems

* `leadingOnes_le`: The bits that are counted.
* `prefixFromMaskV4_le`, `prefixFromMaskV6_le`: No prefix is longer than an address.
* `length_slashed`, `printed_slashed`: Nothing is cut.
* `slashed_injective`: What a text with a prefix length tells.
* `subnetKeyV4_some`, `subnetKeyV6_some`: The key of an address.
* `Subnet.text_injective`: A key tells its subnet.
-/

namespace SendingSystem

namespace Server

open CString SendingSystem.Path IpText

/-- `INET_ADDRSTRLEN`. -/
def inetAddrStrLen : Nat := 16

/-- `INET6_ADDRSTRLEN`. -/
def inet6AddrStrLen : Nat := 46

/-- `sizeof(key)`, which is also `sizeof(entry)`. -/
def keySize : Nat := inet6AddrStrLen + 8

/-- The order of the bytes of a number. -/
inductive ByteOrder where
  | bigEndian
  | littleEndian
  deriving DecidableEq

/-- The four bytes the other way round. -/
def swapBytes (x : BitVec 32) : BitVec 32 :=
  x.extractLsb' 0 8 ++ x.extractLsb' 8 8 ++ x.extractLsb' 16 8 ++ x.extractLsb' 24 8

/-- `ntohl`. -/
def ntohl : ByteOrder → BitVec 32 → BitVec 32
  | .bigEndian, x => x
  | .littleEndian, x => swapBytes x

/-- `htonl`. -/
def htonl : ByteOrder → BitVec 32 → BitVec 32
  | .bigEndian, x => x
  | .littleEndian, x => swapBytes x

/-- `struct in6_addr`. -/
structure In6Addr where
  s6Addr : List (BitVec 8)
  size : s6Addr.length = 16
  deriving DecidableEq

/-- What `inet_ntop` takes: the `s_addr` of a `struct in_addr`, or a
    `struct in6_addr`. -/
inductive IpAddress where
  | v4 (sAddr : BitVec 32)
  | v6 (addr : In6Addr)
  deriving DecidableEq

/-- `inet_ntop`: the text of an address, and whether the call fails. -/
structure InetNtop where
  text : IpAddress → CStr
  fails : IpAddress → Bool

/-- `inet_ntop(…, dst, size)`. A text that does not fit is an error too. -/
def InetNtop.call (ntop : InetNtop) (a : IpAddress) (size : Nat) : Option CStr :=
  if ntop.fails a || size ≤ (ntop.text a).bytes.length then none else some (ntop.text a)

/-- What is documented of `inet_ntop`: the arrays are large enough, an IPv4 address
    is written in decimal numbers and dots, an IPv6 address in hexadecimal ones with
    colons and perhaps dots. It is taken to succeed, with a different text for each
    address of a family. -/
structure InetNtop.Documented (ntop : InetNtop) : Prop where
  succeeds : ∀ a, ntop.fails a = false
  v4_injective : ∀ a b, ntop.text (.v4 a) = ntop.text (.v4 b) → a = b
  v6_injective : ∀ a b, ntop.text (.v6 a) = ntop.text (.v6 b) → a = b
  v4_length : ∀ a, (ntop.text (.v4 a)).bytes.length < inetAddrStrLen
  v6_length : ∀ a, (ntop.text (.v6 a)).bytes.length < inet6AddrStrLen
  v4_mem : ∀ a, ∀ c ∈ (ntop.text (.v4 a)).bytes, isDigit c.toUInt16 = true ∨ c = 46
  v6_mem : ∀ a, ∀ c ∈ (ntop.text (.v6 a)).bytes,
    isHexDigit c.toUInt16 = true ∨ c = 46 ∨ c = 58
  v6_colon : ∀ a, 58 ∈ (ntop.text (.v6 a)).bytes

/-- What the code is compiled for and linked with. -/
structure Platform where
  order : ByteOrder
  ntop : InetNtop

/-- `while (m & top) { prefix++; m <<= 1; }`, with the number of turns bounded. -/
def leadingOnes {w : Nat} : Nat → BitVec w → Nat
  | 0, _ => 0
  | fuel + 1, m => if m.msb then leadingOnes fuel (m <<< 1) + 1 else 0

/-- `prefix_from_mask_v4`. -/
def prefixFromMaskV4 (order : ByteOrder) (mask : BitVec 32) : Nat :=
  leadingOnes 32 (ntohl order mask)

/-- The loop of `prefix_from_mask_v6`. -/
def prefixFromBytes : List (BitVec 8) → Nat
  | [] => 0
  | b :: l => if b = 0xFF then prefixFromBytes l + 8 else leadingOnes 8 b

/-- `prefix_from_mask_v6`. -/
def prefixFromMaskV6 (mask : In6Addr) : Nat := prefixFromBytes mask.s6Addr

/-- The mask of `subnet_key_v4`. -/
def maskV4 (prefixLen : Nat) : BitVec 32 :=
  if prefixLen ≤ 0 then 0
  else if 32 ≤ prefixLen then 0xFFFFFFFF
  else 0xFFFFFFFF <<< (32 - prefixLen)

/-- `net` of `subnet_key_v4`. -/
def networkV4 (order : ByteOrder) (ip : BitVec 32) (prefixLen : Nat) : BitVec 32 :=
  ip &&& htonl order (maskV4 prefixLen)

/-- `memset(bytes + i, 0, 16 - i)`. -/
def clearFrom (i : Nat) (bytes : List (BitVec 8)) : List (BitVec 8) :=
  bytes.take i ++ List.replicate (16 - i) 0

/-- `net.s6_addr` of `subnet_key_v6`. -/
def networkBytes (bytes : List (BitVec 8)) (prefixLen : Nat) : List (BitVec 8) :=
  if prefixLen / 8 < 16 then
    if 0 < prefixLen % 8 then
      clearFrom (prefixLen / 8 + 1) (bytes.modify (prefixLen / 8)
        (fun b => b &&& ((0xFF : BitVec 32) <<< (8 - prefixLen % 8)).setWidth 8))
    else clearFrom (prefixLen / 8) bytes
  else bytes

theorem length_clearFrom {i : Nat} {bytes : List (BitVec 8)} (hi : i ≤ 16)
    (h : bytes.length = 16) : (clearFrom i bytes).length = 16 := by
  rw [clearFrom, List.length_append, List.length_take, List.length_replicate]
  omega

theorem length_networkBytes {bytes : List (BitVec 8)} (h : bytes.length = 16) (prefixLen : Nat) :
    (networkBytes bytes prefixLen).length = 16 := by
  unfold networkBytes
  split
  · split
    · exact length_clearFrom (by omega) (by rw [List.length_modify, h])
    · exact length_clearFrom (by omega) h
  · exact h

/-- `net` of `subnet_key_v6`. -/
def networkV6 (ip : In6Addr) (prefixLen : Nat) : In6Addr :=
  ⟨networkBytes ip.s6Addr prefixLen, length_networkBytes ip.size prefixLen⟩

/-- The text `"%s/%d"`. -/
def slashed (text : CStr) (prefixLen : Nat) : List UInt8 :=
  text.bytes ++ slash :: decimal prefixLen

/-- The string `snprintf` leaves in an array. -/
def printed (size : Nat) (text : List UInt8) : CStr := heapString (snprintf size text)

/-- `subnet_key_v4`: the key, or `none` for the result 0. -/
def subnetKeyV4 (pf : Platform) (ip : BitVec 32) (prefixLen buflen : Nat) : Option CStr :=
  (pf.ntop.call (.v4 (networkV4 pf.order ip prefixLen)) inetAddrStrLen).map
    (fun net => printed buflen (slashed net prefixLen))

/-- `subnet_key_v6`. -/
def subnetKeyV6 (pf : Platform) (ip : In6Addr) (prefixLen buflen : Nat) : Option CStr :=
  (pf.ntop.call (.v6 (networkV6 ip prefixLen)) inet6AddrStrLen).map
    (fun net => printed buflen (slashed net prefixLen))

/-- A subnet: its network, of either family, and the length of its prefix. -/
structure Subnet where
  network : IpAddress
  prefixLen : Nat
  deriving DecidableEq

/-- An address of an interface, with the length of its prefix. -/
structure Address where
  ip : IpAddress
  prefixLen : Nat
  deriving DecidableEq

/-- The subnet an address belongs to. -/
def Address.subnet (order : ByteOrder) (a : Address) : Subnet :=
  match a.ip with
  | .v4 ip => ⟨.v4 (networkV4 order ip a.prefixLen), a.prefixLen⟩
  | .v6 ip => ⟨.v6 (networkV6 ip a.prefixLen), a.prefixLen⟩

/-- The text of a key. -/
def Subnet.text (ntop : InetNtop) (n : Subnet) : List UInt8 :=
  slashed (ntop.text n.network) n.prefixLen

theorem leadingOnes_le {w : Nat} : ∀ (fuel : Nat) (m : BitVec w), leadingOnes fuel m ≤ fuel := by
  intro fuel
  induction fuel with
  | zero => exact fun _ => Nat.le_refl 0
  | succ fuel ih =>
      intro m
      rw [leadingOnes]
      split
      · have hrest := ih (m <<< 1)
        omega
      · omega

theorem prefixFromMaskV4_le (order : ByteOrder) (mask : BitVec 32) :
    prefixFromMaskV4 order mask ≤ 32 :=
  leadingOnes_le 32 _

theorem prefixFromBytes_le : ∀ l : List (BitVec 8), prefixFromBytes l ≤ 8 * l.length := by
  intro l
  induction l with
  | nil => exact Nat.le_refl 0
  | cons b l ih =>
      rw [prefixFromBytes, List.length_cons]
      split
      -- A byte `0xFF` counts eight bits; the first other one is the last that counts.
      · omega
      · have hb := leadingOnes_le 8 b
        omega

theorem prefixFromMaskV6_le (mask : In6Addr) : prefixFromMaskV6 mask ≤ 128 := by
  have hle := prefixFromBytes_le mask.s6Addr
  rw [mask.size] at hle
  exact hle

section Text

variable {s t : CStr} {m n : Nat}

/-- A text that leaves room for the terminator is not cut. -/
theorem printed_eq {size : Nat} {l : List UInt8} (h0 : 0 ∉ l) (hlen : l.length < size) :
    (printed size l).bytes = l := by
  rw [printed, snprintf, List.take_of_length_le (by omega)]
  exact heapString_bytes h0

/-- An address and a prefix length leave that room in the arrays they are printed to. -/
theorem length_slashed (hs : s.bytes.length < inet6AddrStrLen) (hn : n ≤ 128) :
    (slashed s n).length < keySize := by
  have hdecimal := length_decimal_le (n := n) (k := 3) (by omega) (by omega)
  rw [slashed, List.length_append, List.length_cons, keySize]
  unfold inet6AddrStrLen at hs ⊢
  omega

theorem printed_slashed (hs : s.bytes.length < inet6AddrStrLen) (hn : n ≤ 128) :
    (printed keySize (slashed s n)).bytes = slashed s n := by
  refine printed_eq (fun h0 => ?_) (length_slashed hs hn)
  rcases List.mem_append.mp h0 with h0 | h0
  · exact s.noNul h0
  · rcases List.mem_cons.mp h0 with h0 | h0
    · exact absurd h0 (by decide)
    · exact absurd (decimal_mem h0).1 (by decide)

/-- The last slash ends the address, the rest is the prefix length. -/
theorem slashed_injective (h : slashed s m = slashed t n) (ht : slash ∉ t.bytes) :
    s.bytes = t.bytes ∧ m = n := by
  have hdigits : ∀ k, slash ∉ decimal k := by
    intro k hmem
    exact absurd (decimal_mem hmem).1 (by decide)
  rw [slashed, slashed] at h
  rcases (List.append_cons_inj_of_notMem ht (hdigits n)).mp h.symm with ⟨htext, _, hdecimal⟩
  exact ⟨htext.symm, (decimal_injective hdecimal).symm⟩

end Text

namespace InetNtop.Documented

variable {ntop : InetNtop}

/-- No address is written with a slash. -/
theorem slash_notMem (h : ntop.Documented) (a : IpAddress) : slash ∉ (ntop.text a).bytes := by
  intro hslash
  cases a with
  | v4 a =>
      exact absurd (h.v4_mem a slash hslash) (by decide)
  | v6 a =>
      exact absurd (h.v6_mem a slash hslash) (by decide)

theorem text_length (h : ntop.Documented) (a : IpAddress) :
    (ntop.text a).bytes.length < inet6AddrStrLen := by
  cases a with
  | v4 a => exact Nat.lt_trans (h.v4_length a) (by decide)
  | v6 a => exact h.v6_length a

/-- A text is that of one address: the families differ in the colon. -/
theorem text_injective (h : ntop.Documented) {a b : IpAddress} (hab : ntop.text a = ntop.text b) :
    a = b := by
  have hfamily : ∀ x y, ntop.text (.v4 x) ≠ ntop.text (.v6 y) := by
    intro x y hxy
    have hcolon := h.v6_colon y
    rw [← hxy] at hcolon
    exact absurd (h.v4_mem x 58 hcolon) (by decide)
  -- A dotted text has no colon, so the texts are of one family.
  cases a with
  | v4 a =>
      cases b with
      | v4 b => rw [h.v4_injective a b hab]
      | v6 b => exact absurd hab (hfamily a b)
  | v6 a =>
      cases b with
      | v4 b => exact absurd hab.symm (hfamily b a)
      | v6 b => rw [h.v6_injective a b hab]

/-- The call with an array of the documented size, or a larger one. -/
theorem call_eq (h : ntop.Documented) (a : IpAddress) {size : Nat}
    (hsize : (ntop.text a).bytes.length < size) : ntop.call a size = some (ntop.text a) := by
  rw [InetNtop.call, h.succeeds, Bool.false_or, if_neg]
  rw [decide_eq_true_eq]
  omega

end InetNtop.Documented

theorem Subnet.length_text {ntop : InetNtop} (h : ntop.Documented) {n : Subnet}
    (hn : n.prefixLen ≤ 128) : (n.text ntop).length < keySize :=
  length_slashed (h.text_length _) hn

theorem Address.subnet_prefixLen (order : ByteOrder) (a : Address) :
    (a.subnet order).prefixLen = a.prefixLen := by
  rcases a with ⟨_ | _, _⟩
  · rfl
  · rfl

/-- A key tells its subnet. -/
theorem Subnet.text_injective {ntop : InetNtop} (h : ntop.Documented) {m n : Subnet}
    (hmn : m.text ntop = n.text ntop) : m = n := by
  rcases slashed_injective hmn (h.slash_notMem _) with ⟨htext, hlen⟩
  rcases m with ⟨network, prefixLen⟩
  rcases n with ⟨network', prefixLen'⟩
  rw [Subnet.mk.injEq]
  exact ⟨h.text_injective (CStr.eq_iff.mpr htext), hlen⟩

section Key

variable {pf : Platform} {n : Nat}

/-- The key is the text of the subnet. -/
theorem subnetKeyV4_some (h : pf.ntop.Documented) (ip : BitVec 32) (hn : n ≤ 128) :
    ∃ k, subnetKeyV4 pf ip n keySize = some k ∧
      k.bytes = Subnet.text pf.ntop ⟨.v4 (networkV4 pf.order ip n), n⟩ := by
  refine ⟨_, ?_, printed_slashed (h.text_length (.v4 (networkV4 pf.order ip n))) hn⟩
  rw [subnetKeyV4, h.call_eq _ (h.v4_length _), Option.map_some]

theorem subnetKeyV6_some (h : pf.ntop.Documented) (ip : In6Addr) (hn : n ≤ 128) :
    ∃ k, subnetKeyV6 pf ip n keySize = some k ∧
      k.bytes = Subnet.text pf.ntop ⟨.v6 (networkV6 ip n), n⟩ := by
  refine ⟨_, ?_, printed_slashed (h.text_length (.v6 (networkV6 ip n))) hn⟩
  rw [subnetKeyV6, h.call_eq _ (h.v6_length _), Option.map_some]

end Key

end Server

end SendingSystem
