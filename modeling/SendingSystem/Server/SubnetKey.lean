import Mathlib.Data.List.GetD
import SendingSystem.Server.ServerIps

/-!
# The subnet in the key

What the keys of two addresses tell, in terms of the bits of the addresses. The
bits are numbered as they are sent, from the highest of the first byte on, so a
netmask is a sequence of ones with nothing but zeros behind it and the network of
an address has zeros from the prefix on.

The arithmetic of the two families differs. The bytes of an IPv4 mask are turned
around and shifted as one number. An IPv6 address is masked in place: whole bytes
stay, one byte may be split, and what follows is cleared. Both come to the same
operation on the bits, and `inet_ntop` writes different networks differently, so
two keys agree just when the lengths do and the bits before the prefix.

## Main definitions

* `IpAddress.bytes`, `IpAddress.bit`: The bytes and bits as they are sent.
* `IsNetmask`: A contiguous netmask.
* `prefixFromMask`, `network`, `subnetKey`: The functions of both families.
* `KeyTells`: What the key of an address tells.

## Theorems

* `leadingOnes_eq`: The loop counts the ones in front.
* `prefixFromMask_eq`: The length of a netmask.
* `bit_network`: The network is the address masked.
* `subnetKey_eq_iff`: When two keys are equal.
* `subnetKey_tells`: The key is the subnet.
-/

namespace SendingSystem

namespace Server

/-- The bytes in the order they are sent, which is the order they have in memory. -/
def IpAddress.bytes (order : ByteOrder) : IpAddress → List (BitVec 8)
  | .v4 x =>
    match order with
    | .bigEndian =>
      [x.extractLsb' 24 8, x.extractLsb' 16 8, x.extractLsb' 8 8, x.extractLsb' 0 8]
    | .littleEndian =>
      [x.extractLsb' 0 8, x.extractLsb' 8 8, x.extractLsb' 16 8, x.extractLsb' 24 8]
  | .v6 x => x.s6Addr

/-- The number of bits. -/
def IpAddress.width : IpAddress → Nat
  | .v4 _ => 32
  | .v6 _ => 128

/-- The bits in the order they are sent. -/
def IpAddress.bit (order : ByteOrder) (a : IpAddress) (i : Nat) : Bool :=
  ((a.bytes order).getD (i / 8) 0).getMsbD (i % 8)

/-- The addresses are of one family. -/
def IpAddress.SameFamily : IpAddress → IpAddress → Prop
  | .v4 _, .v4 _ => True
  | .v6 _, .v6 _ => True
  | _, _ => False

/-- A netmask of this length: so many ones, then zeros. -/
def IsNetmask (order : ByteOrder) (mask : IpAddress) (prefixLen : Nat) : Prop :=
  ∀ i < mask.width, mask.bit order i = decide (i < prefixLen)

instance (order : ByteOrder) (mask : IpAddress) (prefixLen : Nat) :
    Decidable (IsNetmask order mask prefixLen) :=
  inferInstanceAs (Decidable (∀ i < mask.width, mask.bit order i = decide (i < prefixLen)))

/-- The prefix length of a netmask of either family. -/
def prefixFromMask (order : ByteOrder) : IpAddress → Nat
  | .v4 mask => prefixFromMaskV4 order mask
  | .v6 mask => prefixFromMaskV6 mask

/-- `net` of `subnet_key_v4` or `subnet_key_v6`. -/
def network (order : ByteOrder) : IpAddress → Nat → IpAddress
  | .v4 ip, prefixLen => .v4 (networkV4 order ip prefixLen)
  | .v6 ip, prefixLen => .v6 (networkV6 ip prefixLen)

/-- The key `enumerate` makes of an address and a prefix length. -/
def subnetKey (pf : Platform) : IpAddress → Nat → Option CString.CStr
  | .v4 ip, prefixLen => subnetKeyV4 pf ip prefixLen keySize
  | .v6 ip, prefixLen => subnetKeyV6 pf ip prefixLen keySize

/-- What the code makes of an address with a netmask, and of another address of the
    family with some prefix length. -/
structure KeyTells (pf : Platform) (a b mask : IpAddress) (m n : Nat) : Prop where
  counted : prefixFromMask pf.order mask = m
  posix : subnetKey pf a (prefixFromMask pf.order mask) = subnetKey pf a m
  printed : ∃ k, subnetKey pf a m = some k ∧
    k.bytes = Subnet.text pf.ntop ⟨network pf.order a m, m⟩
  masked : ∀ i < a.width,
    (network pf.order a m).bit pf.order i = (a.bit pf.order i && mask.bit pf.order i)
  cleared : ∀ i < a.width, m ≤ i → (network pf.order a m).bit pf.order i = false
  same : subnetKey pf a m = subnetKey pf b n ↔
    m = n ∧ ∀ i < m, a.bit pf.order i = b.bit pf.order i

section Bits

variable {order : ByteOrder}

theorem byte_swapBytes (x : BitVec 32) {k : Nat} (hk : k < 4) :
    (swapBytes x).extractLsb' (8 * k) 8 = x.extractLsb' (24 - 8 * k) 8 := by
  refine BitVec.eq_of_getLsbD_eq (fun i hi => ?_)
  rw [swapBytes, BitVec.getLsbD_extractLsb', BitVec.getLsbD_extractLsb', BitVec.getLsbD_append,
    BitVec.getLsbD_append, BitVec.getLsbD_append]
  simp only [BitVec.getLsbD_extractLsb', decide_eq_true hi, Bool.true_and]
  -- The four pieces, the last one the lowest.
  have hcases : k = 0 ∨ k = 1 ∨ k = 2 ∨ k = 3 := by omega
  rcases hcases with rfl | rfl | rfl | rfl
  · rw [if_pos (by omega), decide_eq_true (by omega), Bool.true_and]
    exact congrArg _ (by omega)
  · rw [if_neg (by omega), if_pos (by omega), decide_eq_true (by omega), Bool.true_and]
    exact congrArg _ (by omega)
  · rw [if_neg (by omega), if_neg (by omega), if_pos (by omega), decide_eq_true (by omega),
      Bool.true_and]
    exact congrArg _ (by omega)
  · rw [if_neg (by omega), if_neg (by omega), if_neg (by omega), decide_eq_true (by omega),
      Bool.true_and]
    exact congrArg _ (by omega)

/-- Turned around, the bytes of one order are those of the other. -/
theorem bytes_swapBytes (x : BitVec 32) :
    (IpAddress.v4 (swapBytes x)).bytes .littleEndian = (IpAddress.v4 x).bytes .bigEndian := by
  have h0 := byte_swapBytes x (k := 0) (by omega)
  have h1 := byte_swapBytes x (k := 1) (by omega)
  have h2 := byte_swapBytes x (k := 2) (by omega)
  have h3 := byte_swapBytes x (k := 3) (by omega)
  simp only [Nat.mul_zero, Nat.sub_zero, Nat.mul_one, Nat.reduceMul, Nat.reduceSub] at h0 h1 h2 h3
  rw [IpAddress.bytes, IpAddress.bytes, h0, h1, h2, h3]

/-- On the wire the highest bit comes first. -/
theorem bit_bigEndian (x : BitVec 32) {i : Nat} (hi : i < 32) :
    (IpAddress.v4 x).bit .bigEndian i = x.getMsbD i := by
  have hbyte : ∀ j < 4, ((IpAddress.v4 x).bytes .bigEndian).getD j 0
      = x.extractLsb' (24 - 8 * j) 8 := by
    intro j hj
    have hcases : j = 0 ∨ j = 1 ∨ j = 2 ∨ j = 3 := by omega
    rcases hcases with rfl | rfl | rfl | rfl <;> rfl
  rw [IpAddress.bit, hbyte _ (by omega), BitVec.getMsbD_eq_getLsbD, BitVec.getLsbD_extractLsb',
    BitVec.getMsbD_eq_getLsbD, decide_eq_true (by omega : i % 8 < 8), decide_eq_true hi,
    decide_eq_true (by omega : 8 - 1 - i % 8 < 8), Bool.true_and, Bool.true_and, Bool.true_and]
  exact congrArg _ (by omega)

theorem bit_htonl (order : ByteOrder) (x : BitVec 32) {i : Nat} (hi : i < 32) :
    (IpAddress.v4 (htonl order x)).bit order i = x.getMsbD i := by
  cases order with
  | bigEndian => exact bit_bigEndian x hi
  | littleEndian =>
      rw [IpAddress.bit, htonl, bytes_swapBytes, ← bit_bigEndian x hi, IpAddress.bit]

theorem swapBytes_swapBytes (x : BitVec 32) : swapBytes (swapBytes x) = x := by
  have h0 := byte_swapBytes x (k := 0) (by omega)
  have h1 := byte_swapBytes x (k := 1) (by omega)
  have h2 := byte_swapBytes x (k := 2) (by omega)
  have h3 := byte_swapBytes x (k := 3) (by omega)
  simp only [Nat.mul_zero, Nat.sub_zero] at h0 h1 h2 h3
  rw [swapBytes, h0, h1, h2, h3]
  -- The bytes of a number, the highest first, are the number.
  refine BitVec.eq_of_getLsbD_eq (fun i hi => ?_)
  simp only [BitVec.getLsbD_append, BitVec.getLsbD_extractLsb']
  grind

theorem htonl_ntohl (order : ByteOrder) (x : BitVec 32) : htonl order (ntohl order x) = x := by
  cases order with
  | bigEndian => rfl
  | littleEndian => exact swapBytes_swapBytes x

theorem bit_v4 (x : BitVec 32) {i : Nat} (hi : i < 32) :
    (IpAddress.v4 x).bit order i = (ntohl order x).getMsbD i := by
  have hbit := bit_htonl order (ntohl order x) hi
  rw [htonl_ntohl] at hbit
  exact hbit

/-- An address has its bits. -/
theorem IpAddress.eq_of_bit (order : ByteOrder) {a b : IpAddress} (hfamily : a.SameFamily b)
    (h : ∀ i < a.width, a.bit order i = b.bit order i) : a = b := by
  cases a with
  | v4 x =>
      cases b with
      | v4 y =>
          have hsame : ntohl order x = ntohl order y := by
            refine BitVec.eq_of_getMsbD_eq (fun i hi => ?_)
            rw [← bit_v4 x hi, ← bit_v4 y hi]
            exact h i hi
          rw [← htonl_ntohl order x, hsame, htonl_ntohl]
      | v6 y => exact hfamily.elim
  | v6 x =>
      cases b with
      | v4 y => exact hfamily.elim
      | v6 y =>
          have hbytes : x.s6Addr = y.s6Addr := by
            refine List.ext_getElem (x.size.trans y.size.symm) (fun j hj hj' => ?_)
            refine BitVec.eq_of_getMsbD_eq (fun i hi => ?_)
            have hlen := x.size
            -- Bit `i` of byte `j` is bit `8 * j + i` of the address.
            have hbit := h (8 * j + i) (by rw [IpAddress.width]; omega)
            rw [IpAddress.bit, IpAddress.bit, IpAddress.bytes, IpAddress.bytes,
              show (8 * j + i) / 8 = j by omega, show (8 * j + i) % 8 = i by omega,
              List.getD_eq_getElem _ _ hj, List.getD_eq_getElem _ _ hj'] at hbit
            exact hbit
          rw [IpAddress.v6.injEq, In6Addr.mk.injEq]
          exact hbytes

end Bits

section Masks

variable {w : Nat} {order : ByteOrder}

/-- The loop counts the ones in front, if it may turn as often. -/
theorem leadingOnes_eq : ∀ (n fuel : Nat) (m : BitVec w), n ≤ fuel →
    (∀ i < n, m.getMsbD i = true) → m.getMsbD n = false → leadingOnes fuel m = n := by
  intro n
  induction n with
  | zero =>
      intro fuel m _ _ hzero
      cases fuel with
      | zero => rfl
      | succ fuel =>
          rw [leadingOnes, BitVec.msb_eq_getMsbD_zero, hzero, if_neg Bool.false_ne_true]
  | succ n ih =>
      intro fuel m hfuel hones hzero
      cases fuel with
      | zero => omega
      | succ fuel =>
          -- The shift drops the first bit.
          have hrest := ih fuel (m <<< 1) (by omega)
            (fun i hi => by rw [BitVec.getMsbD_shiftLeft]; exact hones (i + 1) (by omega))
            (by rw [BitVec.getMsbD_shiftLeft]; exact hzero)
          rw [leadingOnes, BitVec.msb_eq_getMsbD_zero, hones 0 (by omega), if_pos rfl, hrest]

/-- The mask of `subnet_key_v4` has the ones in front. -/
theorem getMsbD_maskV4 {n i : Nat} (hi : i < 32) : (maskV4 n).getMsbD i = decide (i < n) := by
  have hones : ∀ j, (0xFFFFFFFF : BitVec 32).getMsbD j = decide (j < 32) :=
    fun j => BitVec.getMsbD_allOnes (v := 32)
  unfold maskV4
  split
  · rw [decide_eq_false (by omega)]
    exact BitVec.getMsbD_zero
  · split
    · rw [hones, decide_eq_decide]
      omega
    -- What is shifted out of the 32 bits is gone.
    · have hshift : ((0xFFFFFFFF <<< (32 - n) : Nat) : BitVec 32)
          = (0xFFFFFFFF : BitVec 32) <<< (32 - n) := by
        refine BitVec.eq_of_toNat_eq ?_
        rw [BitVec.toNat_shiftLeft]
        exact BitVec.toNat_ofNat _ _
      rw [hshift, BitVec.getMsbD_shiftLeft, hones, decide_eq_decide]
      omega

/-- So has the mask of the byte that is split. -/
theorem getMsbD_remMask : ∀ n < 8, ∀ i < 8,
    (((0xFF : BitVec 32) <<< (8 - n)).setWidth 8).getMsbD i = decide (i < n) := by decide

theorem prefixFromMaskV4_eq {mask : BitVec 32} {n : Nat} (hn : n ≤ 32)
    (h : IsNetmask order (.v4 mask) n) : prefixFromMaskV4 order mask = n := by
  refine leadingOnes_eq n 32 _ hn (fun i hi => ?_) ?_
  · rw [← bit_v4 mask (by omega), h i (by rw [IpAddress.width]; omega), decide_eq_true hi]
  · by_cases hlt : n < 32
    · rw [← bit_v4 mask hlt, h n hlt, decide_eq_false (Nat.lt_irrefl n)]
    · exact BitVec.getMsbD_of_ge _ _ (by omega)

/-- Bytes of nothing but ones, then one that may have zeros. -/
theorem prefixFromBytes_eq : ∀ (l : List (BitVec 8)) (n : Nat), n ≤ 8 * l.length →
    (∀ i < 8 * l.length, (l.getD (i / 8) 0).getMsbD (i % 8) = decide (i < n)) →
    prefixFromBytes l = n := by
  intro l
  induction l with
  | nil =>
      intro n hn _
      rw [prefixFromBytes]
      rw [List.length_nil] at hn
      omega
  | cons b l ih =>
      intro n hn h
      rw [List.length_cons] at hn h
      have hfirst : ∀ i < 8, b.getMsbD i = decide (i < n) := by
        intro i hi
        have hbit := h i (by omega)
        rw [show i / 8 = 0 by omega, show i % 8 = i by omega] at hbit
        exact hbit
      rw [prefixFromBytes]
      -- A byte of ones is counted whole; the first other one has the end of the prefix.
      by_cases hfull : 8 ≤ n
      · have hb : b = 0xFF := by
          refine BitVec.eq_of_getMsbD_eq (fun i hi => ?_)
          rw [hfirst i hi, decide_eq_true (by omega)]
          exact (BitVec.getMsbD_allOnes (v := 8)).trans (decide_eq_true hi) |>.symm
        rw [if_pos hb, ih (n - 8) (by omega) (fun i hi => ?_)]
        · omega
        · have hbit := h (i + 8) (by omega)
          rw [show (i + 8) / 8 = i / 8 + 1 by omega, show (i + 8) % 8 = i % 8 by omega] at hbit
          refine hbit.trans ?_
          rw [decide_eq_decide]
          omega
      · have hb : b ≠ 0xFF := by
          rintro rfl
          have hlast := hfirst 7 (by omega)
          rw [decide_eq_false (by omega)] at hlast
          exact absurd hlast (by decide)
        rw [if_neg hb]
        refine leadingOnes_eq n 8 b (by omega) (fun i hi => ?_) ?_
        · rw [hfirst i (by omega), decide_eq_true hi]
        · rw [hfirst n (by omega), decide_eq_false (Nat.lt_irrefl n)]

/-- A netmask is counted right. -/
theorem prefixFromMask_eq {mask : IpAddress} {n : Nat} (hn : n ≤ mask.width)
    (h : IsNetmask order mask n) : prefixFromMask order mask = n := by
  cases mask with
  | v4 mask => exact prefixFromMaskV4_eq hn h
  | v6 mask =>
      refine prefixFromBytes_eq mask.s6Addr n ?_ ?_
      · rw [mask.size]
        exact hn
      · rw [mask.size]
        exact h

end Masks

section Network

variable {order : ByteOrder}

theorem getD_clearFrom {bytes : List (BitVec 8)} (h : bytes.length = 16) {k : Nat} (hk : k ≤ 16)
    (j : Nat) : (clearFrom k bytes).getD j 0 = if j < k then bytes.getD j 0 else 0 := by
  have hlen : (bytes.take k).length = k := by
    rw [List.length_take]
    omega
  rw [clearFrom]
  by_cases hj : j < k
  · rw [if_pos hj, List.getD_append _ _ _ _ (by omega), List.getD_eq_getElem?_getD,
      List.getElem?_take_of_lt hj, List.getD_eq_getElem?_getD]
  · rw [if_neg hj, List.getD_append_right _ _ _ _ (by omega), List.getD_eq_getElem?_getD,
      List.getElem?_getD_replicate_default_eq]

theorem getD_modify {bytes : List (BitVec 8)} {f : BitVec 8 → BitVec 8} {k j : Nat}
    (hj : j < bytes.length) :
    (bytes.modify k f).getD j 0 = if j = k then f (bytes.getD j 0) else bytes.getD j 0 := by
  rw [List.getD_eq_getElem _ _ (by rw [List.length_modify]; exact hj), List.getElem_modify,
    List.getD_eq_getElem _ _ hj]
  by_cases hjk : j = k
  · rw [if_pos hjk, if_pos hjk.symm]
  · rw [if_neg hjk, if_neg (fun h => hjk h.symm)]

/-- Whole bytes, one that is split, and cleared bytes: together these are the bits
    before the prefix. -/
theorem getMsbD_networkBytes {bytes : List (BitVec 8)} (h : bytes.length = 16) {n i : Nat}
    (hn : n ≤ 128) (hi : i < 128) :
    ((networkBytes bytes n).getD (i / 8) 0).getMsbD (i % 8)
      = ((bytes.getD (i / 8) 0).getMsbD (i % 8) && decide (i < n)) := by
  unfold networkBytes
  by_cases hwhole : n / 8 < 16
  · rw [if_pos hwhole]
    by_cases hrem : 0 < n % 8
    · rw [if_pos hrem, getD_clearFrom (by rw [List.length_modify, h]) (by omega),
        getD_modify (by omega)]
      -- The byte of the bit, against the one that is split.
      rcases Nat.lt_trichotomy (i / 8) (n / 8) with hlt | heq | hgt
      · rw [if_pos (by omega), if_neg (by omega), decide_eq_true (by omega), Bool.and_true]
      · rw [if_pos (by omega), if_pos heq, BitVec.getMsbD_and,
          getMsbD_remMask (n % 8) (by omega) (i % 8) (by omega), decide_eq_decide.mpr]
        omega
      · rw [if_neg (by omega), decide_eq_false (by omega), Bool.and_false]
        exact BitVec.getMsbD_zero
    · rw [if_neg hrem, getD_clearFrom h (by omega)]
      by_cases hlt : i / 8 < n / 8
      · rw [if_pos hlt, decide_eq_true (by omega), Bool.and_true]
      · rw [if_neg hlt, decide_eq_false (by omega), Bool.and_false]
        exact BitVec.getMsbD_zero
  · rw [if_neg hwhole, decide_eq_true (by omega), Bool.and_true]

theorem ntohl_and (x y : BitVec 32) : ntohl order (x &&& y) = ntohl order x &&& ntohl order y := by
  cases order with
  | bigEndian => rfl
  | littleEndian =>
      have hsplit : ∀ a b c d a' b' c' d' : BitVec 8,
          (a ++ b ++ c ++ d) &&& (a' ++ b' ++ c' ++ d')
            = (a &&& a') ++ (b &&& b') ++ (c &&& c') ++ (d &&& d') := by
        intro a b c d a' b' c' d'
        rw [BitVec.and_append, BitVec.and_append, BitVec.and_append]
      simp only [ntohl, swapBytes, BitVec.extractLsb'_and]
      exact (hsplit _ _ _ _ _ _ _ _).symm

/-- The bits of a conjunction, whatever the order of the bytes. -/
theorem bit_and (x y : BitVec 32) {i : Nat} (hi : i < 32) :
    (IpAddress.v4 (x &&& y)).bit order i
      = ((IpAddress.v4 x).bit order i && (IpAddress.v4 y).bit order i) := by
  rw [bit_v4 _ hi, ntohl_and, BitVec.getMsbD_and, bit_v4 _ hi, bit_v4 _ hi]

/-- The network has the bits of the address before the prefix, and zeros behind. -/
theorem bit_network {a : IpAddress} {n i : Nat} (hn : n ≤ a.width) (hi : i < a.width) :
    (network order a n).bit order i = (a.bit order i && decide (i < n)) := by
  cases a with
  | v4 x =>
      rw [network, networkV4, bit_and _ _ hi, bit_htonl _ _ hi, getMsbD_maskV4 hi]
  | v6 x => exact getMsbD_networkBytes x.size hn hi

theorem sameFamily_network {a b : IpAddress} (h : a.SameFamily b) (m n : Nat) :
    (network order a m).SameFamily (network order b n) := by
  cases a <;> cases b <;> exact h

theorem width_network (a : IpAddress) (n : Nat) : (network order a n).width = a.width := by
  cases a <;> rfl

theorem width_eq {a b : IpAddress} (h : a.SameFamily b) : a.width = b.width := by
  cases a <;> cases b
  · rfl
  · exact h.elim
  · exact h.elim
  · rfl

theorem width_le (a : IpAddress) : a.width ≤ 128 := by
  cases a with
  | v4 _ => exact (by decide : 32 ≤ 128)
  | v6 _ => exact Nat.le_refl 128

/-- Two addresses have one network when they agree on the bits of the prefix. -/
theorem network_eq_iff {a b : IpAddress} (h : a.SameFamily b) {n : Nat} (hn : n ≤ a.width) :
    network order a n = network order b n ↔ ∀ i < n, a.bit order i = b.bit order i := by
  have hwidth := width_eq h
  constructor
  · intro hsame i hi
    have hbit := congrArg (fun x => IpAddress.bit order x i) hsame
    simp only [bit_network hn (by omega : i < a.width),
      bit_network (hwidth ▸ hn : n ≤ b.width) (by omega : i < b.width), decide_eq_true hi,
      Bool.and_true] at hbit
    exact hbit
  · intro hbits
    refine IpAddress.eq_of_bit order (sameFamily_network h n n) (fun i hi => ?_)
    rw [width_network] at hi
    rw [bit_network hn hi, bit_network (hwidth ▸ hn) (hwidth ▸ hi)]
    -- Past the prefix both networks are zero.
    by_cases hin : i < n
    · rw [hbits i hin]
    · rw [decide_eq_false hin, Bool.and_false, Bool.and_false]

end Network

section Key

variable {pf : Platform}

/-- The key is the text of the network and the prefix length. -/
theorem subnetKey_some (h : pf.ntop.Documented) (a : IpAddress) {n : Nat} (hn : n ≤ 128) :
    ∃ k, subnetKey pf a n = some k ∧
      k.bytes = Subnet.text pf.ntop ⟨network pf.order a n, n⟩ := by
  cases a with
  | v4 x => exact subnetKeyV4_some h x hn
  | v6 x => exact subnetKeyV6_some h x hn

/-- Keys are equal when networks and lengths are. -/
theorem subnetKey_eq_iff (h : pf.ntop.Documented) {a b : IpAddress} (hfamily : a.SameFamily b)
    {m n : Nat} (hm : m ≤ a.width) (hn : n ≤ b.width) :
    subnetKey pf a m = subnetKey pf b n ↔
      m = n ∧ ∀ i < m, a.bit pf.order i = b.bit pf.order i := by
  rcases subnetKey_some h a (Nat.le_trans hm (width_le a)) with ⟨k, hk, hkbytes⟩
  rcases subnetKey_some h b (Nat.le_trans hn (width_le b)) with ⟨k', hk', hkbytes'⟩
  rw [hk, hk', Option.some.injEq, CString.CStr.eq_iff, hkbytes, hkbytes']
  constructor
  · intro htext
    have hsubnet := Subnet.text_injective h htext
    rw [Subnet.mk.injEq] at hsubnet
    rcases hsubnet with ⟨hnetwork, rfl⟩
    exact ⟨rfl, (network_eq_iff hfamily hm).mp hnetwork⟩
  · rintro ⟨rfl, hbits⟩
    rw [(network_eq_iff hfamily hm).mpr hbits]

/-- There is a netmask of each length. -/
theorem exists_isNetmask (order : ByteOrder) (a : IpAddress) {n : Nat} (hn : n ≤ a.width) :
    ∃ mask, a.SameFamily mask ∧ IsNetmask order mask n := by
  cases a with
  | v4 x =>
      refine ⟨.v4 (htonl order (maskV4 n)), trivial, fun i hi => ?_⟩
      rw [bit_htonl _ _ hi, getMsbD_maskV4 hi]
  | v6 x =>
      -- The mask is the network of the address of ones.
      let ones : In6Addr := ⟨List.replicate 16 0xFF, List.length_replicate⟩
      refine ⟨network order (.v6 ones) n, trivial, fun i hi => ?_⟩
      rw [width_network] at hi
      have hone : (IpAddress.v6 ones).bit order i = true := by
        rw [IpAddress.bit, IpAddress.bytes, List.getD_replicate _ (by
          rw [IpAddress.width] at hi; omega)]
        exact (BitVec.getMsbD_allOnes (v := 8)).trans (decide_eq_true (by omega))
      rw [bit_network (a := .v6 ones) hn hi, hone, Bool.true_and]

/-- For every address with a netmask of any length, and every other address of its
    family with any prefix length: the length is that of the netmask, the network
    in the key is the address under the mask, and the keys are equal exactly when
    the lengths are and the addresses agree before the prefix. -/
theorem subnetKey_tells (pf : Platform) (h : pf.ntop.Documented) {a b mask : IpAddress} {m n : Nat}
    (hb : a.SameFamily b) (hmask : a.SameFamily mask) (hm : m ≤ a.width) (hn : n ≤ a.width)
    (hnetmask : IsNetmask pf.order mask m) : KeyTells pf a b mask m n := by
  have hwidth := width_eq hmask
  have hcounted := prefixFromMask_eq (hwidth ▸ hm) hnetmask
  exact {
    counted := hcounted
    posix := by rw [hcounted]
    printed := subnetKey_some h a (Nat.le_trans hm (width_le a))
    masked := by
      intro i hi
      rw [bit_network hm hi, hnetmask i (hwidth ▸ hi)]
    cleared := by
      intro i hi hmi
      rw [bit_network hm hi, decide_eq_false (Nat.not_lt.mpr hmi), Bool.and_false]
    same := subnetKey_eq_iff h hb hm (width_eq hb ▸ hn) }

/-- `192.168.1.42` and `192.168.1.43` with the netmask `255.255.255.0`. -/
theorem subnetKey_tells_neighbours :
    KeyTells littleHost (.v4 0x2A01A8C0) (.v4 0x2B01A8C0) (.v4 0x00FFFFFF) 24 24 :=
  subnetKey_tells littleHost fullNtop_documented trivial trivial (by decide) (by decide) (by decide)

end Key

end Server

end SendingSystem
