import SendingSystem.Server.FileService

/-!
# The limit of the fill loop

`MAX_FILENAME` is 255 and the local array of `sanitize_filename` has room for
255 bytes and their NUL, but both clamps keep a segment of valid bytes one short
of that. Only an invalid byte can become the last byte of a full array. So the
array is the byte-by-byte image of the first 255 bytes of a name exactly when the
name is shorter than that, or the last of them is one that is replaced, or it is
`_` and an invalid byte that comes later is taken for it.

## Main definitions

* `FillsBytewise`: The array holds the image of the first 255 bytes.
* `FirstBytesDecide`: Names with the same first 255 bytes have one result.
* `KeptAsIs`: A name with nothing to replace, to cut or to skip is returned as it is.

## Theorems

* `fillText_eq_iff`: When the filled text is the image of the first 255 bytes.
* `fillsBytewise_iff`: The same of the array the loop leaves.
* `finishName_append_ne`: One more `_` at the end makes another name.
* `sanitized_bytewise_iff`: When the function works byte by byte.
-/

namespace SendingSystem

namespace Server

open CString Runs

/-- The fill loop ends with the image of the first `MAX_FILENAME` bytes in the
    array, whatever the array held. -/
def FillsBytewise (src : CStr) : Prop :=
  ∀ temp, ∃ s, Loop.run (fillTurn src) (src.bytes.length + 1) ⟨temp, 0, 0⟩ = some s ∧
    s.temp.bytes.take s.tempLen = (src.bytes.take maxFilename).map keepByte

/-- No byte behind the first `MAX_FILENAME` ones has a say in the result. -/
def FirstBytesDecide (src : CStr) : Prop :=
  ∀ src' : CStr, src'.bytes.take maxFilename = src.bytes.take maxFilename →
    safeName true (some src') = safeName true (some src)

/-- A name of at most `MAX_FILENAME` allowed bytes, without `..` and without a
    leading dot, is the name returned. -/
def KeptAsIs (src : CStr) : Prop :=
  src.bytes ≠ [] → src.bytes.length ≤ maxFilename → (∀ b ∈ src.bytes, validByte b = true) →
    ¬ [dot, dot] <:+: src.bytes → src.bytes.head? ≠ some dot →
    safeName true (some src) = src.bytes

/-- A byte outside the class is copied as `_`, and `_` is the only byte of the
    class that is. -/
theorem keepByte_eq_underscore {b : UInt8} :
    keepByte b = underscore ↔ validByte b = false ∨ b = underscore := by
  rw [keepByte]
  -- An underscore comes of a byte that is replaced, or is one that is kept.
  constructor
  · intro h
    by_cases hb : validByte b = true
    · rw [if_pos hb] at h
      exact Or.inr h
    · exact Or.inl (Bool.eq_false_iff.mpr hb)
  · rintro (h | rfl)
    · rw [h]
      rfl
    · rw [if_pos validByte_underscore]

/-- The text of a name that reaches the clamp: 254 images, and `_` if a byte from
    there on is invalid. -/
theorem fillText_at_limit {front rest : List UInt8} {b : UInt8} (hlen : front.length = 254) :
    fillText (front ++ b :: rest) = front.map keepByte ++
      if validByte b = false ∨ ∃ c ∈ rest, validByte c = false then [underscore] else [] := by
  have hany : (b :: rest).any (fun c => !validByte c) = true ↔
      validByte b = false ∨ ∃ c ∈ rest, validByte c = false := by
    simp only [List.any_cons, Bool.or_eq_true, Bool.not_eq_true', List.any_eq_true]
  rw [fillText, List.take_left' hlen, List.drop_left' hlen]
  by_cases h : (b :: rest).any (fun c => !validByte c) = true
  · rw [if_pos h, if_pos (hany.mp h)]
  · rw [if_neg h, if_neg (fun h' => h (hany.mpr h'))]

/-- A name is short, or it goes on behind the clamp. -/
theorem limit_cases (l : List UInt8) :
    l.length ≤ 254 ∨ ∃ front b rest, l = front ++ b :: rest ∧ front.length = 254 := by
  rcases Nat.lt_or_ge 254 l.length with h | h
  · refine Or.inr ⟨l.take 254, l[254], l.drop 255, ?_, List.length_take_of_le (by omega)⟩
    rw [List.getElem_cons_drop, List.take_append_drop]
  · exact Or.inl h

theorem take_at_limit {front rest : List UInt8} {b : UInt8} (hlen : front.length = 254) :
    (front ++ b :: rest).take maxFilename = front ++ [b] := by
  rw [show maxFilename = front.length + 1 by rw [hlen]; rfl, List.take_length_add_append,
    List.take_succ_cons, List.take_zero]

/-- When the filled text is the image of the first 255 bytes. -/
theorem fillText_eq_iff {front rest : List UInt8} {b : UInt8} (hlen : front.length = 254) :
    fillText (front ++ b :: rest) = ((front ++ b :: rest).take maxFilename).map keepByte ↔
      validByte b = false ∨ (b = underscore ∧ ∃ c ∈ rest, validByte c = false) := by
  rw [fillText_at_limit hlen, take_at_limit hlen, List.map_append, List.append_cancel_left_eq,
    List.map_singleton]
  by_cases hb : validByte b = false
  · rw [if_pos (Or.inl hb), keepByte_eq_underscore.mpr (Or.inl hb)]
    simp only [hb, true_or]
  · by_cases hrest : ∃ c ∈ rest, validByte c = false
    -- A later byte puts `_` where the image of `b` belongs.
    · rw [if_pos (Or.inr hrest), List.cons.injEq]
      simp only [hb, hrest, and_true]
      rw [eq_comm, keepByte_eq_underscore]
      simp only [hb]
    · rw [if_neg (not_or.mpr ⟨hb, hrest⟩)]
      simp only [hb, hrest, reduceCtorEq, and_false, or_self]

/-- The array holds the image of the first 255 bytes exactly when the filled text
    is that image. -/
theorem fillsBytewise_iff (src : CStr) :
    FillsBytewise src ↔ fillText src.bytes = (src.bytes.take maxFilename).map keepByte := by
  constructor
  · intro h
    rcases h (uninit _) with ⟨s, hs, htake⟩
    rcases fill_spec src (uninit _) with ⟨s', hs', _, htake'⟩
    rw [hs, Option.some.injEq] at hs'
    rw [← htake, ← htake', hs']
  · intro h temp
    rcases fill_spec src temp with ⟨s, hs, _, htake⟩
    exact ⟨s, hs, htake.trans h⟩

theorem finishName_dot {m : List UInt8} (hm : m ≠ []) : finishName (dot :: m) = m := by
  simp only [finishName, List.head?_cons, if_true, List.tail_cons, if_neg hm]

theorem finishName_cons {a : UInt8} {m : List UInt8} (ha : a ≠ dot) :
    finishName (a :: m) = a :: m := by
  simp only [finishName, List.head?_cons, Option.some.injEq, if_neg ha, reduceCtorEq, if_false]

/-- One more `_` at the end makes another name. -/
theorem finishName_append_ne (m : List UInt8) :
    finishName (m ++ [underscore]) ≠ finishName m := by
  have hlonger : ∀ l : List UInt8, l ++ [underscore] ≠ l := by
    intro l h
    have hlen := congrArg List.length h
    rw [List.length_append, List.length_singleton] at hlen
    omega
  cases m with
  | nil => decide
  | cons a m =>
      by_cases ha : a = dot
      · subst ha
        -- The lone dot becomes the default name, which is not `_`.
        by_cases hm : m = []
        · subst hm
          decide
        · have hne : m ++ [underscore] ≠ [] := List.append_ne_nil_of_left_ne_nil hm _
          rw [List.cons_append, finishName_dot hne, finishName_dot hm]
          exact hlonger m
      · rw [List.cons_append, finishName_cons ha, finishName_cons ha]
        exact hlonger (a :: m)

theorem safeName_fillText (src : CStr) :
    safeName true (some src) = finishName (mapRuns dot (halved dot underscore)
      (fillText src.bytes)) := by
  rw [safeName_eq, sanitizedName, if_pos rfl]

/-- Short of the limit the text is read to its end and copied as it is. -/
theorem bytewise_of_short (src : CStr) (hshort : src.bytes.length ≤ 254) :
    FillsBytewise src ∧ FirstBytesDecide src ∧ KeptAsIs src := by
  have htake : src.bytes.take maxFilename = src.bytes :=
    List.take_of_length_le (by unfold maxFilename; omega)
  -- The clamp is not reached, so the loop keeps or replaces every byte.
  refine ⟨?_, ?_, ?_⟩
  · rw [fillsBytewise_iff, fillText_of_length_le hshort, htake]
  · intro src' h
    rw [htake] at h
    have hlen := congrArg List.length h
    rw [List.length_take] at hlen
    unfold maxFilename at hlen h
    rw [List.take_of_length_le (by omega)] at h
    rw [safeName_fillText, safeName_fillText, h]
  · intro hne hmax hvalid hdots hhead
    rw [safeName_eq]
    exact sanitizedName_of_safe src ⟨hvalid, hne, hmax, hdots, hhead⟩ hshort

/-- A replaced byte at the limit fills the array to its end. -/
theorem bytewise_of_invalid (src : CStr) {front rest : List UInt8} {b : UInt8}
    (hsrc : src.bytes = front ++ b :: rest) (hlen : front.length = 254)
    (hb : validByte b = false) : FillsBytewise src ∧ FirstBytesDecide src ∧ KeptAsIs src := by
  have himage : fillText src.bytes = (src.bytes.take maxFilename).map keepByte := by
    rw [hsrc, fillText_eq_iff hlen]
    exact Or.inl hb
  refine ⟨(fillsBytewise_iff src).mpr himage, ?_, ?_⟩
  · intro src' h
    rcases limit_cases src'.bytes with hshort | ⟨front', b', rest', hsrc', hlen'⟩
    · have hcount := congrArg List.length h
      rw [hsrc, take_at_limit hlen, List.length_take, List.length_append, hlen,
        List.length_singleton] at hcount
      omega
    -- The byte at the limit is the same, so the other text is filled alike.
    · have heq := h
      rw [hsrc, take_at_limit hlen, hsrc', take_at_limit hlen'] at heq
      have hbyte := (List.append_inj' heq rfl).2
      rw [List.cons.injEq] at hbyte
      have himage' : fillText src'.bytes = (src'.bytes.take maxFilename).map keepByte := by
        rw [hsrc', fillText_eq_iff hlen']
        exact Or.inl (hbyte.1 ▸ hb)
      rw [safeName_fillText, safeName_fillText, himage, himage', h]
  · intro _ _ hvalid _ _
    rw [hvalid b (by rw [hsrc]; exact List.mem_append_right _ List.mem_cons_self)] at hb
    exact absurd hb.symm Bool.false_ne_true

/-- A `_` at the limit that only a later byte put there is lost when the name is
    cut behind it: the bytes that follow do count. -/
theorem not_firstBytesDecide (src : CStr) {front rest : List UInt8}
    (hsrc : src.bytes = front ++ underscore :: rest) (hlen : front.length = 254)
    (hrest : ∃ c ∈ rest, validByte c = false) : ¬ FirstBytesDecide src := by
  intro hfirst
  have hnul : 0 ∉ front ++ [underscore] := by
    intro h0
    refine src.noNul ?_
    rw [hsrc, ← List.singleton_append, ← List.append_assoc]
    exact List.mem_append_left _ h0
  -- Compare with the name that ends at the limit: the fill is one byte shorter there.
  have hcut := hfirst ⟨front ++ [underscore], hnul⟩ (by
    rw [hsrc, take_at_limit hlen, take_at_limit hlen])
  have hfull : fillText (front ++ underscore :: rest) = front.map keepByte ++ [underscore] := by
    rw [fillText_at_limit hlen, if_pos (Or.inr hrest)]
  have hless : fillText (front ++ [underscore]) = front.map keepByte := by
    rw [fillText_at_limit hlen, if_neg, List.append_nil]
    rintro (h | ⟨c, hc, _⟩)
    · rw [validByte_underscore] at h
      exact absurd h.symm Bool.false_ne_true
    · exact absurd hc List.not_mem_nil
  rw [safeName_fillText, safeName_fillText, hsrc, hfull, hless,
    mapRuns_break dot _ underscore (by decide)] at hcut
  exact finishName_append_ne _ hcut.symm

/-- The array holds the image of the first 255 bytes, no other byte counts and a
    name that is fine is kept, exactly when the name is short of the limit or its
    byte at the limit is replaced. -/
theorem sanitized_bytewise_iff (src : CStr) :
    (FillsBytewise src ∧ FirstBytesDecide src ∧ KeptAsIs src) ↔
      src.bytes.length < maxFilename ∨
        ∃ b, src.bytes[maxFilename - 1]? = some b ∧ validByte b = false := by
  -- A name past the limit has a byte at it, and that byte decides.
  rcases limit_cases src.bytes with hshort | ⟨front, b, rest, hsrc, hlen⟩
  · exact ⟨fun _ => Or.inl (by unfold maxFilename; omega), fun _ => bytewise_of_short src hshort⟩
  · have hbyte : src.bytes[maxFilename - 1]? = some b := by
      rw [hsrc, show maxFilename - 1 = front.length by rw [hlen]; rfl,
        List.getElem?_append_right (Nat.le_refl _), Nat.sub_self]
      rfl
    constructor
    · rintro ⟨hfills, hfirst, _⟩
      refine Or.inr ⟨b, hbyte, ?_⟩
      rw [fillsBytewise_iff, hsrc, fillText_eq_iff hlen] at hfills
      rcases hfills with hb | ⟨rfl, hrest⟩
      · exact hb
      · exact absurd hfirst (not_firstBytesDecide src hsrc hlen hrest)
    · rintro (hlt | ⟨b', hb', hinvalid⟩)
      · rw [hsrc, List.length_append, hlen, List.length_cons] at hlt
        unfold maxFilename at hlt
        omega
      · rw [hbyte, Option.some.injEq] at hb'
        exact bytewise_of_invalid src hsrc hlen (hb' ▸ hinvalid)

/-- A name of letters `a`. -/
def letters (n : Nat) : CStr :=
  ⟨List.replicate n 97, fun h => absurd (List.eq_of_mem_replicate h) (by decide)⟩

/-- 255 letters, all of them allowed, come out as 254. -/
theorem full_name_is_cut :
    ¬ FillsBytewise (letters 255) ∧ safeName true (some (letters 255)) = (letters 254).bytes := by
  have hsplit : (letters 255).bytes = (letters 254).bytes ++ 97 :: [] := List.replicate_succ'
  have hlen : (letters 254).bytes.length = 254 := List.length_replicate
  have hvalid : ¬ (validByte 97 = false ∨ ∃ c ∈ ([] : List UInt8), validByte c = false) := by
    decide
  constructor
  · rw [fillsBytewise_iff, hsplit, fillText_eq_iff hlen]
    decide
  -- Letters alone are left as they are by everything but the clamp.
  · have hdots : ¬ [dot, dot] <:+: (letters 254).bytes := fun h =>
      absurd (List.eq_of_mem_replicate (h.subset List.mem_cons_self)) (by decide)
    have hkeep : (letters 254).bytes.map keepByte = (letters 254).bytes :=
      map_keepByte_of_valid fun b hb => List.eq_of_mem_replicate hb ▸ (by decide)
    rw [safeName_fillText, hsplit, fillText_at_limit hlen, if_neg hvalid, List.append_nil, hkeep,
      mapRuns_of_noPair dot _ rfl rfl _ hdots]
    exact finishName_cons (by decide)

end Server

end SendingSystem
