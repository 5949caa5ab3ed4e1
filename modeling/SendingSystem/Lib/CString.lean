import Mathlib.Algebra.Group.Nat.Defs
import Mathlib.Data.Bool.AllAny
import Mathlib.Data.List.Basic
import Mathlib.Data.List.Infix
import Mathlib.Data.List.TakeWhile
import Mathlib.Tactic.Basic

/-!
# C strings and byte buffers

The part of `<string.h>` that works on arrays of known size. A `Buf n` is an
object of exactly `n` bytes; every operation that would touch a byte outside it,
or look for a terminator that is not there, answers `none`. A computation that
ends in `some` therefore never left its buffers, which is what a proof about C
code has to establish before anything else.

A string argument is a `CStr`: the bytes before the terminator, none of them
NUL. What a buffer holds is said with `HoldsAt`, which names the string at an
offset together with the NUL behind it; the operations are specified by what
they do to that string.

## Main definitions

* `CStr`: The bytes of a NUL-terminated string.
* `Buf`: An object of `n` bytes.
* `sizeSub`: Subtraction of `size_t`, which wraps.
* `truncate`: The bytes before the first NUL.
* `decimal`: The digits `"%d"` prints.
* `Buf.write`, `Buf.strncpy`, `Buf.memmove`: Writes that stay in the object.
* `Buf.strlen`, `Buf.strstr`: Searches that need a terminator.
* `HoldsAt`: The string a buffer holds at an offset.

## Theorems

* `CStr.eq_iff`: A string is its bytes.
* `truncate_of_noNul`: A sequence without NUL is its own string.
* `findSub_eq_some`: A hit splits the text at its first occurrence.
* `findSub_eq_none`: A miss means the pattern does not occur.
* `HoldsAt.cstr`: Reading back the string a buffer holds.
* `HoldsAt.strlen`, `HoldsAt.strstr`: The searches on a held string.
* `write_take`, `strncpy_take`: Writing past the known part extends it.
* `write_split`: Writing over a part of the same length replaces it.
* `write_other`, `strncpy_other`: The other bytes are left alone.
* `strncpy_holds`: A copy with room to spare leaves the string terminated.
* `decimal_injective`, `length_decimal_le`: Which digits, and how many.
-/

namespace SendingSystem

namespace CString

/-- The bytes of an ASCII literal. -/
def ascii (s : String) : List UInt8 := s.toList.map (fun c => c.toNat.toUInt8)

/-- The bytes of a NUL-terminated string, the terminator left out. -/
structure CStr where
  bytes : List UInt8
  noNul : 0 ∉ bytes
  deriving DecidableEq

/-- A string is its bytes. -/
theorem CStr.eq_iff {s t : CStr} : s = t ↔ s.bytes = t.bytes := by
  rcases s with ⟨bytes, _⟩
  rcases t with ⟨bytes', _⟩
  rw [CStr.mk.injEq]

/-- Read through a pointer `p` bytes into the string: its bytes, then the
    terminator, and nothing past it. -/
def CStr.read (s : CStr) (p : Nat) : Option UInt8 := (s.bytes ++ [0])[p]?

/-- The C string that starts a byte sequence: everything before the first NUL. -/
def truncate (l : List UInt8) : List UInt8 := l.takeWhile (· ≠ 0)

/-- The string that starts a sequence has no NUL in it. -/
theorem noNul_truncate (l : List UInt8) : 0 ∉ truncate l := by
  intro h
  have h0 := List.mem_takeWhile_imp h
  simp only [ne_eq, not_true_eq_false, decide_false, Bool.false_eq_true] at h0

/-- A string literal. -/
def CStr.lit (s : String) : CStr := ⟨truncate (ascii s), noNul_truncate _⟩

/-- Subtraction of two 64-bit `size_t` values. -/
def sizeSub (a b : Nat) : Nat := (a + 2 ^ 64 - b) % 2 ^ 64

/-- What `snprintf` leaves in a buffer of `cap` bytes: the text, cut so that the
    terminator fits. -/
def snprintf (cap : Nat) (text : List UInt8) : List UInt8 := text.take (cap - 1)

/-- `"%d"` of a number that is not negative. -/
def decimal (n : Nat) : List UInt8 := ascii (toString n)

/-- The index of the first occurrence of `pat`. -/
def findSub (pat : List UInt8) : List UInt8 → Option Nat
  | [] => if pat = [] then some 0 else none
  | a :: l => if pat <+: a :: l then some 0 else (findSub pat l).map (· + 1)

/-- An object of `n` bytes. -/
structure Buf (n : Nat) where
  bytes : List UInt8
  size : bytes.length = n

namespace Buf

variable {n : Nat}

/-- Store `data` at offset `i`, inside the object or not at all. -/
def write (b : Buf n) (i : Nat) (data : List UInt8) : Option (Buf n) :=
  if h : i + data.length ≤ n then
    some ⟨b.bytes.take i ++ data ++ b.bytes.drop (i + data.length), by
      simp only [List.length_append, List.length_take, List.length_drop, b.size]
      omega⟩
  else none

/-- `strncpy(b + i, src, len)`: `len` bytes are written, the tail of them NUL
    when the source is shorter. -/
def strncpy (b : Buf n) (i : Nat) (src : List UInt8) (len : Nat) : Option (Buf n) :=
  if i + len ≤ n then b.write i (src.take len ++ List.replicate (len - src.length) 0) else none

/-- `memmove(b + dst, b + src, len)`, both ranges inside the object. -/
def memmove (b : Buf n) (dst src len : Nat) : Option (Buf n) :=
  if src + len ≤ n then b.write dst ((b.bytes.drop src).take len) else none

/-- The string at offset `i`. -/
def cstr (b : Buf n) (i : Nat) : List UInt8 := truncate (b.bytes.drop i)

/-- `strlen(b + i)`, a fault when the object holds no terminator there. -/
def strlen (b : Buf n) (i : Nat) : Option Nat :=
  if 0 ∈ b.bytes.drop i then some (b.cstr i).length else none

/-- `strstr(b, pat)`: the offset of the first occurrence, if any; a fault when
    the object holds no terminator. -/
def strstr (b : Buf n) (pat : List UInt8) : Option (Option Nat) :=
  if 0 ∈ b.bytes then some (findSub pat (b.cstr 0)) else none

end Buf

/-- The buffer holds the string `s` at offset `i`: its bytes, then a NUL. -/
def HoldsAt {n : Nat} (b : Buf n) (i : Nat) (s : List UInt8) : Prop :=
  0 ∉ s ∧ ∃ rest, b.bytes.drop i = s ++ 0 :: rest

theorem sizeSub_of_le {a b : Nat} (hle : b ≤ a) (ha : a < 2 ^ 64) : sizeSub a b = a - b := by
  unfold sizeSub
  rw [show a + 2 ^ 64 - b = (a - b) + 2 ^ 64 by omega, Nat.add_mod_right]
  exact Nat.mod_eq_of_lt (by omega)

/-- A sequence without NUL, followed by one, is read up to it. -/
theorem truncate_append_nul (s rest : List UInt8) (hs : 0 ∉ s) :
    truncate (s ++ 0 :: rest) = s := by
  unfold truncate
  rw [List.takeWhile_append_of_pos, List.takeWhile_cons_of_neg, List.append_nil]
  · simp only [ne_eq, not_true_eq_false, decide_false, Bool.false_eq_true, not_false_eq_true]
  · intro a ha
    simp only [ne_eq, decide_not, Bool.not_eq_eq_eq_not, Bool.not_true, decide_eq_false_iff_not]
    intro h0
    exact hs (h0 ▸ ha)

theorem truncate_of_noNul (s : List UInt8) (hs : 0 ∉ s) : truncate s = s := by
  unfold truncate
  rw [List.takeWhile_eq_self_iff]
  intro a ha
  simp only [ne_eq, decide_not, Bool.not_eq_eq_eq_not, Bool.not_true, decide_eq_false_iff_not]
  intro h0
  exact hs (h0 ▸ ha)

/-- The string that starts a sequence is a prefix of it. -/
theorem truncate_initial (l : List UInt8) : truncate l <+: l := List.takeWhile_prefix _

/-- A hit splits the text at the pattern's first occurrence. -/
theorem findSub_eq_some {pat l : List UInt8} {i : Nat} (h : findSub pat l = some i) :
    ∃ pre post, l = pre ++ pat ++ post ∧ pre.length = i ∧
      ∀ j < i, ¬ pat <+: l.drop j := by
  induction l generalizing i with
  | nil =>
      simp only [findSub] at h
      split at h
      · next hpat =>
          simp only [Option.some.injEq] at h
          exact ⟨[], [], by rw [hpat]; rfl, by rw [← h]; rfl, fun j hj => by omega⟩
      · simp only [reduceCtorEq] at h
  | cons a l ih =>
      simp only [findSub] at h
      split at h
      · next hpre =>
          rcases hpre with ⟨post, hpost⟩
          simp only [Option.some.injEq] at h
          exact ⟨[], post, by simp only [List.nil_append, hpost], by rw [← h]; rfl,
            fun j hj => by omega⟩
      · next hpre =>
          simp only [Option.map_eq_some_iff] at h
          rcases h with ⟨k, hk, hki⟩
          rcases ih hk with ⟨pre, post, hl, hlen, hfirst⟩
          -- The hit is in the rest: one byte more stands in front of it.
          refine ⟨a :: pre, post, by rw [hl]; rfl, by rw [List.length_cons, hlen, hki], ?_⟩
          intro j hj
          rcases j with _ | j
          · exact hpre
          · exact hfirst j (by omega)

/-- A miss means the pattern occurs nowhere. -/
theorem findSub_eq_none {pat l : List UInt8} (h : findSub pat l = none) : ¬ pat <:+: l := by
  induction l with
  | nil =>
      simp only [findSub] at h
      split at h
      · simp only [reduceCtorEq] at h
      · next hpat =>
          intro hin
          exact hpat (List.infix_nil.mp hin)
  | cons a l ih =>
      simp only [findSub] at h
      split at h
      · simp only [reduceCtorEq] at h
      · next hpre =>
          simp only [Option.map_eq_none_iff] at h
          intro hin
          -- An occurrence starts here or lies in the rest, and both were tried.
          rcases List.infix_cons_iff.mp hin with hp | hi
          · exact hpre hp
          · exact ih h hi

namespace HoldsAt

variable {n : Nat} {b : Buf n} {i : Nat} {s : List UInt8}

theorem cstr (h : HoldsAt b i s) : b.cstr i = s := by
  rcases h with ⟨hs, rest, hrest⟩
  rw [Buf.cstr, hrest]
  exact truncate_append_nul s rest hs

/-- The string and its terminator fit in the object. -/
theorem length_lt (h : HoldsAt b i s) : i + s.length < n := by
  rcases h with ⟨_, rest, hrest⟩
  have hlen := congrArg List.length hrest
  simp only [List.length_drop, List.length_append, List.length_cons, b.size] at hlen
  omega

theorem strlen (h : HoldsAt b i s) : b.strlen i = some s.length := by
  have hc := h.cstr
  rcases h with ⟨_, rest, hrest⟩
  have hmem : 0 ∈ b.bytes.drop i := by
    rw [hrest]
    exact List.mem_append_right _ List.mem_cons_self
  rw [Buf.strlen, if_pos hmem, hc]

theorem strstr {b : Buf n} {s : List UInt8} (h : HoldsAt b 0 s) (pat : List UInt8) :
    b.strstr pat = some (findSub pat s) := by
  have hc := h.cstr
  rcases h with ⟨_, rest, hrest⟩
  have hmem : 0 ∈ b.bytes := by
    rw [List.drop_zero] at hrest
    rw [hrest]
    exact List.mem_append_right _ List.mem_cons_self
  rw [Buf.strstr, if_pos hmem, hc]

/-- Past a part of the string the rest of it is held. -/
theorem drop {pre : List UInt8} (h : HoldsAt b i (pre ++ s)) : HoldsAt b (i + pre.length) s := by
  rcases h with ⟨hs, rest, hrest⟩
  refine ⟨fun hmem => hs (List.mem_append_right _ hmem), rest, ?_⟩
  rw [← List.drop_drop, hrest, List.append_assoc, List.drop_left]

end HoldsAt

/-- The bytes after a write that fits. -/
theorem write_eq {n : Nat} (b : Buf n) (i : Nat) (data : List UInt8) (h : i + data.length ≤ n) :
    ∃ b', b.write i data = some b' ∧
      b'.bytes = b.bytes.take i ++ data ++ b.bytes.drop (i + data.length) := by
  exact ⟨_, by rw [Buf.write, dif_pos h], rfl⟩

/-- A write extends the part of the buffer known so far. -/
theorem write_take {n : Nat} (b : Buf n) (i : Nat) (data : List UInt8) (h : i + data.length ≤ n) :
    ∃ b', b.write i data = some b' ∧
      b'.bytes.take (i + data.length) = b.bytes.take i ++ data := by
  rcases write_eq b i data h with ⟨b', hb', hbytes⟩
  refine ⟨b', hb', ?_⟩
  have hlen : (b.bytes.take i ++ data).length = i + data.length := by
    rw [List.length_append, List.length_take, b.size]
    omega
  rw [hbytes, ← hlen, List.take_left]

/-- A write replaces a part of the buffer of the same length. -/
theorem write_split {n : Nat} (b : Buf n) (front old back data : List UInt8)
    (hb : b.bytes = front ++ old ++ back) (hlen : data.length = old.length) :
    ∃ b', b.write front.length data = some b' ∧ b'.bytes = front ++ data ++ back := by
  have hsize := congrArg List.length hb
  simp only [b.size, List.length_append] at hsize
  rcases write_eq b front.length data (by omega) with ⟨b', hb', hbytes⟩
  refine ⟨b', hb', ?_⟩
  -- The part written over is as long as what is written, so the back stays.
  rw [hbytes, hb, hlen, ← List.length_append, List.drop_left, List.append_assoc front old back,
    List.take_left]

/-- A write leaves the bytes before and behind it alone. -/
theorem write_other {n i j : Nat} {b b' : Buf n} {data : List UInt8}
    (h : b.write i data = some b') (hj : j < i ∨ i + data.length ≤ j) :
    b'.bytes[j]? = b.bytes[j]? := by
  rw [Buf.write, Option.dite_none_right_eq_some] at h
  rcases h with ⟨hle, h⟩
  rw [Option.some.injEq] at h
  have hsize := b.size
  have hfront : (b.bytes.take i).length = i := List.length_take_of_le (by omega)
  rw [← h]
  simp only
  -- In front of what is written, or behind it.
  rcases hj with hj | hj
  · rw [List.append_assoc, List.getElem?_append_left (by omega), List.getElem?_take_of_lt hj]
  · rw [List.getElem?_append_right (by rw [List.length_append]; omega), List.getElem?_drop,
      List.length_append, hfront]
    exact congrArg _ (by omega)

theorem strncpy_other {n i j len : Nat} {b b' : Buf n} {src : List UInt8}
    (h : b.strncpy i src len = some b') (hj : j < i ∨ i + len ≤ j) :
    b'.bytes[j]? = b.bytes[j]? := by
  have hlen : (src.take len ++ List.replicate (len - src.length) 0).length = len := by
    rw [List.length_append, List.length_take, List.length_replicate]
    omega
  rw [Buf.strncpy, Option.ite_none_right_eq_some] at h
  exact write_other h.2 (by rw [hlen]; exact hj)

/-- A copy no longer than its source extends the part of the buffer known so
    far by what it copies. -/
theorem strncpy_take {n : Nat} (b : Buf n) (i : Nat) (src : List UInt8) (len : Nat)
    (hlen : len ≤ src.length) (h : i + len ≤ n) :
    ∃ b', b.strncpy i src len = some b' ∧
      b'.bytes.take (i + len) = b.bytes.take i ++ src.take len := by
  have htake : (src.take len).length = len := by rw [List.length_take]; omega
  rcases write_take b i (src.take len) (by rw [htake]; exact h) with ⟨b', hb', hbytes⟩
  rw [htake] at hbytes
  refine ⟨b', ?_, hbytes⟩
  -- The source is long enough, so nothing is padded.
  rw [Buf.strncpy, if_pos h, show len - src.length = 0 by omega, List.replicate_zero,
    List.append_nil, hb']

/-- A whole-buffer copy of a shorter string leaves it terminated. -/
theorem strncpy_holds {n : Nat} (b : Buf n) (src : List UInt8) (hsrc : 0 ∉ src)
    (hlen : src.length < n) :
    ∃ b', b.strncpy 0 src n = some b' ∧ HoldsAt b' 0 src ∧
      b'.bytes = src ++ List.replicate (n - src.length) 0 := by
  have hdata : (src.take n ++ List.replicate (n - src.length) 0).length = n := by
    simp only [List.length_append, List.length_take, List.length_replicate]
    omega
  rcases write_eq b 0 (src.take n ++ List.replicate (n - src.length) 0) (by omega) with
    ⟨b', hb', hbytes⟩
  have htake : src.take n = src := List.take_of_length_le (by omega)
  have hfinal : b'.bytes = src ++ List.replicate (n - src.length) 0 := by
    rw [hbytes, hdata, htake, List.take_zero, List.nil_append, Nat.zero_add,
      List.drop_of_length_le (by rw [b.size]), List.append_nil]
  refine ⟨b', by rw [Buf.strncpy, if_pos (by omega), hb'], ⟨hsrc, ?_⟩, hfinal⟩
  -- The first byte of the padding is the terminator.
  refine ⟨List.replicate (n - src.length - 1) 0, ?_⟩
  rw [List.drop_zero, hfinal, show n - src.length = (n - src.length - 1) + 1 by omega,
    List.replicate_succ, Nat.add_sub_cancel]

theorem decimal_eq (n : Nat) :
    decimal n = (Nat.toDigits 10 n).map (fun c => c.toNat.toUInt8) := by
  rw [decimal, ascii, Nat.toString_eq_repr, Nat.toList_repr]

/-- The byte of a decimal digit. -/
theorem digit_byte {c : Char} (h : c.isDigit = true) :
    48 ≤ c.toNat.toUInt8.toNat ∧ c.toNat.toUInt8.toNat < 58 ∧
      Char.ofNat c.toNat.toUInt8.toNat = c := by
  have hrange : 48 ≤ c.toNat ∧ c.toNat ≤ 57 := by
    rw [Char.isDigit, Bool.and_eq_true, decide_eq_true_eq, decide_eq_true_eq] at h
    exact h
  have hbyte : c.toNat.toUInt8.toNat = c.toNat := by
    rw [Nat.toUInt8_eq, UInt8.toNat_ofNat']
    exact Nat.mod_eq_of_lt (by omega)
  rw [hbyte]
  exact ⟨hrange.1, by omega, Char.ofNat_toNat c⟩

theorem decimal_mem {n : Nat} {b : UInt8} (h : b ∈ decimal n) : 48 ≤ b.toNat ∧ b.toNat < 58 := by
  rw [decimal_eq] at h
  rcases List.mem_map.mp h with ⟨c, hc, rfl⟩
  have hdigit := digit_byte (Nat.isDigit_of_mem_toDigits (by omega) (by omega) hc)
  exact ⟨hdigit.1, hdigit.2.1⟩

/-- The digits tell the number. -/
theorem decimal_injective {m n : Nat} (h : decimal m = decimal n) : m = n := by
  have hread : ∀ k, (decimal k).map (fun b => Char.ofNat b.toNat) = Nat.toDigits 10 k := by
    intro k
    rw [decimal_eq, List.map_map, List.map_congr_left (g := id), List.map_id]
    intro c hc
    exact (digit_byte (Nat.isDigit_of_mem_toDigits (by omega) (by omega) hc)).2.2
  have hchars : Nat.toDigits 10 m = Nat.toDigits 10 n := by rw [← hread m, ← hread n, h]
  rw [← Nat.ofDigitChars_ten_toDigits (n := m), hchars, Nat.ofDigitChars_ten_toDigits]

theorem length_decimal_le {n k : Nat} (hk : 0 < k) (h : n < 10 ^ k) : (decimal n).length ≤ k := by
  rw [decimal_eq, List.length_map]
  exact (Nat.length_toDigits_le_iff (by omega) hk).mpr h

end CString

end SendingSystem
