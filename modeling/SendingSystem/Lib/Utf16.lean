import Mathlib.Data.List.Basic
import Mathlib.Data.List.Chain
import Mathlib.Tactic.Basic

/-!
# Text in UTF-16

A Java string is a sequence of 16-bit code units, with no promise that its
surrogates come in pairs. Regular expressions see it as a sequence of code
points: a high surrogate followed by a low one is one point, any other unit is a
point of its own. Encoding to UTF-8 goes point by point and writes `?` for a
surrogate that is left over.

On ASCII text all three views are the same sequence, which is what most of the
lemmas here say. For the rest: points are those of a text unless the halves of a
pair are among them, one right behind the other.

## Main definitions

* `codePoints`: The code points of a text.
* `units`: The code units of a point.
* `Apart`: Two points that are not the halves of a pair.
* `replacePoints`: Replace every point of a class by one unit.
* `utf8`: The bytes of a text.
* `lit`, `ofBytes`: Literals, and ASCII bytes as a text.

## Theorems

* `codePoints_of_noHigh`: Without high surrogates the units are the points.
* `mem_replacePoints`: What a replaced text consists of.
* `replacePoints_of_none`: A text without a point of the class stays as it is.
* `utf8_ofBytes`: ASCII text is encoded as it is.
* `codePoints_apart`, `codePoints_units`: Which points are those of a text.
* `zero_notMem_utf8`: A text without a zero has none in its bytes.
-/

namespace SendingSystem

/-- A Java string. -/
abbrev JString : Type := List UInt16

namespace Utf16

/-- The first half of a surrogate pair. -/
def isHigh (u : UInt16) : Bool := 0xD800 ≤ u && u < 0xDC00

/-- The second half of a surrogate pair. -/
def isLow (u : UInt16) : Bool := 0xDC00 ≤ u && u < 0xE000

/-- `Character.toCodePoint`. -/
def toCodePoint (high low : UInt16) : Nat :=
  0x10000 + (high.toNat - 0xD800) * 0x400 + (low.toNat - 0xDC00)

/-- The code points of a text, a surrogate without its other half being one too. -/
def codePoints : JString → List Nat
  | [] => []
  | [u] => [u.toNat]
  | u :: v :: s =>
    if isHigh u && isLow v then toCodePoint u v :: codePoints s
    else u.toNat :: codePoints (v :: s)

/-- The code units of a point. -/
def units (c : Nat) : JString :=
  if c < 0x10000 then [c.toUInt16]
  else [(0xD800 + (c - 0x10000) / 0x400).toUInt16, (0xDC00 + (c - 0x10000) % 0x400).toUInt16]

/-- Replace every point for which `p` holds by the unit `y`. -/
def replacePoints (p : Nat → Bool) (y : UInt16) (s : JString) : JString :=
  (codePoints s).flatMap (fun c => if p c then [y] else units c)

/-- Two points that are not the halves of a pair. -/
def Apart (c d : Nat) : Prop := ¬ ((0xD800 ≤ c ∧ c < 0xDC00) ∧ 0xDC00 ≤ d ∧ d < 0xE000)

/-- The UTF-8 bytes of a point, `?` for a lone surrogate. -/
def utf8Point (c : Nat) : List UInt8 :=
  if c < 0x80 then [c.toUInt8]
  else if c < 0x800 then [(0xC0 + c / 0x40).toUInt8, (0x80 + c % 0x40).toUInt8]
  else if 0xD800 ≤ c ∧ c < 0xE000 then [63]
  else if c < 0x10000 then
    [(0xE0 + c / 0x1000).toUInt8, (0x80 + c / 0x40 % 0x40).toUInt8, (0x80 + c % 0x40).toUInt8]
  else
    [(0xF0 + c / 0x40000).toUInt8, (0x80 + c / 0x1000 % 0x40).toUInt8,
      (0x80 + c / 0x40 % 0x40).toUInt8, (0x80 + c % 0x40).toUInt8]

/-- `getBytes(StandardCharsets.UTF_8)`. -/
def utf8 (s : JString) : List UInt8 := (codePoints s).flatMap utf8Point

/-- The units of an ASCII literal. -/
def lit (s : String) : JString := s.toList.map (fun c => c.toNat.toUInt16)

/-- ASCII bytes as a text. -/
def ofBytes (l : List UInt8) : JString := l.map UInt8.toUInt16

/-- Without high surrogates there are no pairs. -/
theorem codePoints_of_noHigh : ∀ s : JString, (∀ u ∈ s, isHigh u = false) →
    codePoints s = s.map UInt16.toNat := by
  intro s
  induction s with
  | nil => exact fun _ => rfl
  | cons u s ih =>
      intro h
      have hu := h u List.mem_cons_self
      have hs := ih (fun v hv => h v (List.mem_cons_of_mem u hv))
      -- A unit that is no high surrogate is a point, whatever follows.
      cases s with
      | nil => rfl
      | cons v s =>
          simp only [codePoints, hu, Bool.false_and, Bool.false_eq_true, if_false, hs,
            List.map_cons]

/-- An ASCII unit is no surrogate. -/
theorem isHigh_of_lt {u : UInt16} (h : u.toNat < 128) : isHigh u = false := by
  rw [isHigh, Bool.and_eq_false_iff]
  left
  rw [decide_eq_false_iff_not, UInt16.le_iff_toNat_le]
  have : (0xD800 : UInt16).toNat = 0xD800 := rfl
  omega

theorem codePoints_ascii {s : JString} (h : ∀ u ∈ s, u.toNat < 128) :
    codePoints s = s.map UInt16.toNat :=
  codePoints_of_noHigh s (fun u hu => isHigh_of_lt (h u hu))

theorem units_toNat (u : UInt16) : units u.toNat = [u] := by
  rw [units, if_pos u.toNat_lt]
  exact congrArg (fun v => [v]) UInt16.ofNat_toNat

/-- A replaced text has the new unit and units of points outside the class. -/
theorem mem_replacePoints {p : Nat → Bool} {y u : UInt16} {s : JString}
    (h : u ∈ replacePoints p y s) : u = y ∨ ∃ c, p c = false ∧ u ∈ units c := by
  rcases List.mem_flatMap.mp h with ⟨c, _, hc⟩
  by_cases hp : p c = true
  · rw [if_pos hp, List.mem_singleton] at hc
    exact Or.inl hc
  · rw [if_neg hp] at hc
    exact Or.inr ⟨c, Bool.eq_false_iff.mpr hp, hc⟩

/-- On ASCII text the replacement goes unit by unit. -/
theorem replacePoints_ascii (p : Nat → Bool) (y : UInt16) {s : JString}
    (h : ∀ u ∈ s, u.toNat < 128) :
    replacePoints p y s = s.map (fun u => if p u.toNat then y else u) := by
  rw [replacePoints, codePoints_ascii h, List.flatMap_map, List.map_eq_flatMap]
  refine congrArg (fun f => List.flatMap f s) (funext fun u => ?_)
  rw [units_toNat]
  split <;> rfl

/-- An ASCII text without a point of the class stays as it is. -/
theorem replacePoints_of_none (p : Nat → Bool) (y : UInt16) {s : JString}
    (h : ∀ u ∈ s, u.toNat < 128) (hp : ∀ u ∈ s, p u.toNat = false) : replacePoints p y s = s := by
  rw [replacePoints_ascii p y h]
  refine (List.map_congr_left fun u hu => ?_).trans (List.map_id s)
  simp only [hp u hu, Bool.false_eq_true, if_false, id_eq]

theorem toNat_toUInt16 (b : UInt8) : b.toUInt16.toNat = b.toNat := UInt8.toNat_toUInt16 b

theorem toUInt16_injective : Function.Injective UInt8.toUInt16 := by
  intro a b h
  have hnat := congrArg UInt16.toNat h
  rw [toNat_toUInt16, toNat_toUInt16] at hnat
  exact UInt8.toNat_inj.mp hnat

@[simp]
theorem ofBytes_eq_nil {l : List UInt8} : ofBytes l = [] ↔ l = [] := List.map_eq_nil_iff

theorem ofBytes_injective : Function.Injective ofBytes :=
  List.map_injective_iff.mpr toUInt16_injective

theorem ofBytes_ascii {l : List UInt8} (h : ∀ b ∈ l, b.toNat < 128) :
    ∀ u ∈ ofBytes l, u.toNat < 128 := by
  intro u hu
  rcases List.mem_map.mp hu with ⟨b, hb, rfl⟩
  rw [toNat_toUInt16]
  exact h b hb

/-- ASCII text is encoded as it is. -/
theorem utf8_ofBytes {l : List UInt8} (h : ∀ b ∈ l, b.toNat < 128) : utf8 (ofBytes l) = l := by
  rw [utf8, codePoints_ascii (ofBytes_ascii h), ofBytes, List.map_map, List.flatMap_map]
  calc l.flatMap (fun b => utf8Point (UInt16.toNat (UInt8.toUInt16 b)))
      = l.flatMap (fun b => [b]) := by
        refine List.flatMap_congr fun b hb => ?_
        rw [toNat_toUInt16, utf8Point, if_pos (h b hb)]
        exact congrArg (fun v => [v]) UInt8.ofNat_toNat
    _ = l := List.flatMap_singleton' l

/-- ASCII text is the text of its bytes. -/
theorem exists_ofBytes {s : JString} (h : ∀ u ∈ s, u.toNat < 128) :
    ∃ l : List UInt8, (∀ b ∈ l, b.toNat < 128) ∧ ofBytes l = s := by
  -- Nothing is lost by cutting an ASCII unit to a byte.
  have hbyte : ∀ u ∈ s, u.toUInt8.toUInt16 = u ∧ u.toUInt8.toNat < 128 := by
    intro u hu
    have hlt := h u hu
    have hnat : u.toUInt8.toNat = u.toNat := by
      rw [UInt16.toNat_toUInt8, Nat.mod_eq_of_lt (by omega)]
    refine ⟨UInt16.toNat_inj.mp ?_, by omega⟩
    rw [toNat_toUInt16, hnat]
  refine ⟨s.map UInt16.toUInt8, ?_, ?_⟩
  · intro b hb
    rcases List.mem_map.mp hb with ⟨u, hu, rfl⟩
    exact (hbyte u hu).2
  · rw [ofBytes, List.map_map]
    refine (List.map_congr_left fun u hu => ?_).trans (List.map_id s)
    exact (hbyte u hu).1

theorem isHigh_iff {u : UInt16} : isHigh u = true ↔ 0xD800 ≤ u.toNat ∧ u.toNat < 0xDC00 := by
  rw [isHigh, Bool.and_eq_true, decide_eq_true_eq, decide_eq_true_eq, UInt16.le_iff_toNat_le,
    UInt16.lt_iff_toNat_lt]
  rfl

theorem isLow_iff {u : UInt16} : isLow u = true ↔ 0xDC00 ≤ u.toNat ∧ u.toNat < 0xE000 := by
  rw [isLow, Bool.and_eq_true, decide_eq_true_eq, decide_eq_true_eq, UInt16.le_iff_toNat_le,
    UInt16.lt_iff_toNat_lt]
  rfl

/-- A pair stands for a point beyond the units. -/
theorem toCodePoint_bounds {u v : UInt16} (h : (isHigh u && isLow v) = true) :
    0x10000 ≤ toCodePoint u v ∧ toCodePoint u v < 0x110000 := by
  rw [Bool.and_eq_true, isHigh_iff, isLow_iff] at h
  unfold toCodePoint
  constructor
  · omega
  · omega

/-- Every point is in the range of Unicode. -/
theorem codePoints_lt (s : JString) : ∀ c ∈ codePoints s, c < 0x110000 := by
  -- A unit is below `0x10000`, a pair below `0x110000`.
  induction s using codePoints.induct with
  | case1 => exact fun c hc => absurd hc List.not_mem_nil
  | case2 u =>
      intro c hc
      have hu := u.toNat_lt
      rw [codePoints, List.mem_singleton] at hc
      omega
  | case3 u v s hpair ih =>
      rw [codePoints, if_pos hpair]
      intro c hc
      rw [List.mem_cons] at hc
      rcases hc with hc | hc
      · exact hc ▸ (toCodePoint_bounds hpair).2
      · exact ih c hc
  | case4 u v s hpair ih =>
      have hu := u.toNat_lt
      rw [codePoints, if_neg hpair]
      intro c hc
      rw [List.mem_cons] at hc
      rcases hc with hc | hc
      · omega
      · exact ih c hc

theorem head?_codePoints {v : UInt16} {s : JString} {d : Nat}
    (h : d ∈ (codePoints (v :: s)).head?) : d = v.toNat ∨ 0x10000 ≤ d := by
  rw [Option.mem_def] at h
  cases s with
  | nil =>
      rw [codePoints, List.head?_cons, Option.some.injEq] at h
      exact Or.inl h.symm
  | cons w s =>
      rw [codePoints] at h
      -- The unit is a point of its own unless it begins a pair.
      by_cases hpair : (isHigh v && isLow w) = true
      · rw [if_pos hpair, List.head?_cons, Option.some.injEq] at h
        exact Or.inr (h ▸ (toCodePoint_bounds hpair).1)
      · rw [if_neg hpair, List.head?_cons, Option.some.injEq] at h
        exact Or.inl h.symm

/-- No two points in a row are the halves of a pair. -/
theorem codePoints_apart (s : JString) : (codePoints s).IsChain Apart := by
  induction s using codePoints.induct with
  | case1 => exact List.IsChain.nil
  | case2 u => exact List.IsChain.singleton _
  | case3 u v s hpair ih =>
      rw [codePoints, if_pos hpair]
      have hle := (toCodePoint_bounds hpair).1
      rw [List.isChain_cons]
      refine ⟨fun d _ => ?_, ih⟩
      rw [Apart]
      omega
  | case4 u v s hpair ih =>
      rw [codePoints, if_neg hpair]
      rw [List.isChain_cons]
      refine ⟨fun d hd => ?_, ih⟩
      -- The next point is the unit behind, or a pair that begins with it.
      rcases head?_codePoints hd with rfl | hd
      · rw [Bool.and_eq_true, isHigh_iff, isLow_iff] at hpair
        exact hpair
      · rw [Apart]
        omega

theorem toNat_unit {n : Nat} (h : n < 0x10000) : n.toUInt16.toNat = n := Nat.mod_eq_of_lt h

/-- A point beyond the units is encoded as a pair. -/
theorem units_pair {c : Nat} (hle : ¬ c < 0x10000) (hlt : c < 0x110000) :
    ∃ u v, units c = [u, v] ∧ (isHigh u && isLow v) = true ∧ toCodePoint u v = c := by
  have hhigh : (0xD800 + (c - 0x10000) / 0x400).toUInt16.toNat
      = 0xD800 + (c - 0x10000) / 0x400 := toNat_unit (by omega)
  have hlow : (0xDC00 + (c - 0x10000) % 0x400).toUInt16.toNat
      = 0xDC00 + (c - 0x10000) % 0x400 := toNat_unit (by omega)
  refine ⟨_, _, if_neg hle, ?_, ?_⟩
  · rw [Bool.and_eq_true, isHigh_iff, isLow_iff, hhigh, hlow]
    omega
  · unfold toCodePoint
    simp only [hhigh, hlow]
    omega

/-- The first unit of a point is the point, or no second half. -/
theorem units_cons {d : Nat} (h : d < 0x110000) :
    ∃ v w, units d = v :: w ∧ (v.toNat = d ∨ v.toNat < 0xDC00) := by
  by_cases hbmp : d < 0x10000
  · exact ⟨d.toUInt16, [], if_pos hbmp, Or.inl (toNat_unit hbmp)⟩
  · rcases units_pair hbmp h with ⟨u, v, hunits, hpair, _⟩
    rw [Bool.and_eq_true, isHigh_iff] at hpair
    exact ⟨u, [v], hunits, Or.inr hpair.1.2⟩

/-- An ASCII unit is a point of its own wherever it stands. -/
theorem mem_codePoints_ascii {u : UInt16} (hu : u.toNat < 128) (s : JString) :
    u.toNat ∈ codePoints s ↔ u ∈ s := by
  induction s using codePoints.induct with
  | case1 => exact iff_of_false List.not_mem_nil List.not_mem_nil
  | case2 v => rw [codePoints, List.mem_singleton, List.mem_singleton, UInt16.toNat_inj]
  | case3 v w s hpair ih =>
      have hle := (toCodePoint_bounds hpair).1
      rw [codePoints, if_pos hpair, List.mem_cons, ih, List.mem_cons, List.mem_cons]
      rw [Bool.and_eq_true, isHigh_iff, isLow_iff] at hpair
      -- Neither half of a pair is ASCII, and what they stand for is not.
      have hv : u ≠ v := by
        rintro rfl
        omega
      have hw : u ≠ w := by
        rintro rfl
        omega
      rw [or_iff_right hv, or_iff_right hw, or_iff_right (by omega)]
  | case4 v w s hpair ih =>
      rw [codePoints, if_neg hpair, List.mem_cons, ih, UInt16.toNat_inj]
      exact List.mem_cons.symm

/-- A byte of a point is zero only for the point zero. -/
theorem zero_mem_utf8Point {c : Nat} (hc : c < 0x110000) (h : 0 ∈ utf8Point c) : c = 0 := by
  have hbyte : ∀ n : Nat, n < 256 → (0 : UInt8) = n.toUInt8 → n = 0 := by
    intro n hn h0
    have hnat := congrArg UInt8.toNat h0
    rw [UInt8.toNat_ofNat_of_lt' hn] at hnat
    exact hnat.symm
  unfold utf8Point at h
  split at h
  · exact hbyte c (by omega) (List.mem_singleton.mp h)
  -- In a longer encoding every byte has a high bit.
  · split at h
    · simp only [List.mem_cons, List.not_mem_nil, or_false] at h
      rcases h with h | h <;> have := hbyte _ (by omega) h <;> omega
    · split at h
      · exact absurd (List.mem_singleton.mp h) (by decide)
      · split at h
        · simp only [List.mem_cons, List.not_mem_nil, or_false] at h
          rcases h with h | h | h <;> have := hbyte _ (by omega) h <;> omega
        · simp only [List.mem_cons, List.not_mem_nil, or_false] at h
          rcases h with h | h | h | h <;> have := hbyte _ (by omega) h <;> omega

/-- A text without a zero has none in its bytes. -/
theorem zero_notMem_utf8 {s : JString} (h : 0 ∉ s) : 0 ∉ utf8 s := by
  intro h0
  rcases List.mem_flatMap.mp h0 with ⟨c, hc, hbyte⟩
  have hzero := zero_mem_utf8Point (codePoints_lt s c hc) hbyte
  rw [hzero] at hc
  exact h ((mem_codePoints_ascii (by decide : (0 : UInt16).toNat < 128) s).mp hc)

/-- Points in a row that are not halves of a pair are those of the text they are
    encoded to. -/
theorem codePoints_units : ∀ l : List Nat, l.IsChain Apart → (∀ c ∈ l, c < 0x110000) →
    codePoints (l.flatMap units) = l := by
  intro l
  induction l with
  | nil => exact fun _ _ => rfl
  | cons c l ih =>
      intro hchain hlt
      have hc := hlt c List.mem_cons_self
      have hrest := ih hchain.tail (fun d hd => hlt d (List.mem_cons_of_mem c hd))
      rw [List.flatMap_cons]
      by_cases hbmp : c < 0x10000
      · have hunit : c.toUInt16.toNat = c := toNat_unit hbmp
        rw [units, if_pos hbmp, List.singleton_append]
        cases l with
        | nil => rw [List.flatMap_nil, codePoints, hunit]
        | cons d l =>
            have hd := hlt d (List.mem_cons_of_mem c List.mem_cons_self)
            have hapart := (List.isChain_cons_cons.mp hchain).1
            rcases units_cons hd with ⟨v, w, hunits, hv⟩
            rw [List.flatMap_cons, hunits, List.cons_append] at hrest ⊢
            rw [codePoints, if_neg, hrest, hunit]
            rw [Bool.and_eq_true, isHigh_iff, isLow_iff, hunit]
            rcases hv with hv | hv
            · rw [hv]
              exact hapart
            · omega
      -- The two units are a pair, whatever follows.
      · rcases units_pair hbmp hc with ⟨u, v, hunits, hpair, hpoint⟩
        rw [hunits, List.cons_append, List.singleton_append, codePoints, if_pos hpair, hrest,
          hpoint]

end Utf16

end SendingSystem
