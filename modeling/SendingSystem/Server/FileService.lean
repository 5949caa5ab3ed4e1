import SendingSystem.Lib.CString
import SendingSystem.Lib.Loop
import SendingSystem.Lib.Runs
import SendingSystem.Server.Config

/-!
# File name sanitisation

`sanitize_filename` of `FileService.c`, on buffers. The function copies the name
into a local array segment by segment, a regular expression finding the bytes to
replace, then rewrites `..` in place until none is left, then skips a leading dot
and copies the rest out. Every copy is clamped with unsigned arithmetic, so the
model keeps the arrays, the wrapping subtraction and the read pointer: a `some`
result means no access left its object and both loops ended.

What comes out is `sanitizedName`, which names no buffer. The fill loop is
`fillText`: the first 254 bytes with the invalid ones replaced, and one more
replacement when an invalid byte follows. The rewrite loop is the pair filter of
`Runs`. The proof of each loop is one turn (`fillTurn_spec`, `dotdotTurn_spec`)
and the total-correctness rule of `Loop`.

## Main definitions

* `regexec`: The first byte outside `[[:alnum:]._-]`.
* `fillTurn`: One turn of the loop that fills the array.
* `dotdotTurn`: One turn of the loop that rewrites `..`.
* `sanitizeFilename`: The function.
* `sanitizedName`: The name it leaves in the destination.
* `safeName`: The name a caller reads out of its own array.
* `SafeName`: What the sanitiser makes of every name.

## Theorems

* `fillTurn_spec`: One turn keeps the fill invariant or ends the fill.
* `fill_spec`: The filled array holds `fillText`.
* `dotdotTurn_spec`: One turn rewrites one pair or finds none.
* `dotdot_spec`: The rewritten array holds the pair filter of the text.
* `sanitizeFilename_spec`: The destination holds `sanitizedName`.
* `sanitizedName_safe`: What every such name is like.
* `sanitizedName_of_safe`: Safe names short of the clamp are left alone.
-/

namespace SendingSystem

namespace Server

open CString Runs

/-- The byte `_`. -/
def underscore : UInt8 := 95

/-- The byte `.`. -/
def dot : UInt8 := 46

/-- The default name. -/
def unnamed : List UInt8 := ascii "unnamed.dat"

/-- A byte of `[[:alnum:]._-]` in the C locale. -/
def validByte (b : UInt8) : Bool :=
  (48 ≤ b && b ≤ 57) || (65 ≤ b && b ≤ 90) || (97 ≤ b && b ≤ 122) || b == dot || b == underscore
    || b == 45

/-- `regexec` with the pattern `[^[:alnum:]._-]`: `rm_so` of the match, the offset
    of the first byte outside the class. `rm_eo` is the next one. -/
def regexec (s : List UInt8) : Option Nat := s.findIdx? (fun b => !validByte b)

/-- The locals of the fill loop. -/
structure Fill where
  temp : Buf (maxFilename + 1)
  tempLen : Nat
  p : Nat

/-- One turn of `while (*p && temp_len < MAX_FILENAME)`. -/
def fillTurn (src : CStr) (s : Fill) : Option (Fill ⊕ Fill) := do
  let c ← src.read s.p
  if c ≠ 0 ∧ s.tempLen < maxFilename then
    match regexec (src.bytes.drop s.p) with
    | some so =>
      let len :=
        -- `MAX_FILENAME - temp_len - 1` on `size_t`, one short of what would fit.
        if maxFilename ≤ s.tempLen + so then sizeSub (sizeSub maxFilename s.tempLen) 1 else so
      let temp ← s.temp.strncpy s.tempLen (src.bytes.drop s.p) len
      let tempLen := s.tempLen + len
      if tempLen < maxFilename then
        let temp ← temp.write tempLen [underscore]
        some (.inl ⟨temp, tempLen + 1, s.p + (so + 1)⟩)
      else
        some (.inl ⟨temp, tempLen, s.p + (so + 1)⟩)
    | none =>
      let remaining := (src.bytes.drop s.p).length
      let remaining :=
        if maxFilename ≤ s.tempLen + remaining then sizeSub (sizeSub maxFilename s.tempLen) 1
        else remaining
      let temp ← s.temp.strncpy s.tempLen (src.bytes.drop s.p) remaining
      some (.inr ⟨temp, s.tempLen + remaining, s.p⟩)
  else
    some (.inr s)

/-- One turn of `while ((dotdot = strstr(temp, "..")) != NULL)`. -/
def dotdotTurn {n : Nat} (temp : Buf n) : Option (Buf n ⊕ Buf n) := do
  match ← temp.strstr [dot, dot] with
  | none => some (.inr temp)
  | some i =>
    let temp ← temp.write i [underscore]
    let temp ← temp.write (i + 1) [underscore]
    -- The tail and its terminator close the gap the second dot leaves.
    let len ← temp.strlen (i + 2)
    let temp ← temp.memmove (i + 1) (i + 2) (len + 1)
    some (.inl temp)

/-- `sanitize_filename(dest, dest_size, src)`. `regcomp` says whether the pattern
    compiled, `temp` and `dest` are the arrays with whatever they held before.
    The loops get as many turns as there are bytes to go through. -/
def sanitizeFilename {n : Nat} (regcomp : Bool) (temp : Buf (maxFilename + 1)) (dest : Buf n)
    (destSize : Nat) (src : Option CStr) : Option (Buf n) :=
  match src with
  | none => dest.strncpy 0 unnamed destSize
  | some src =>
    if regcomp then do
      let filled ← Loop.run (fillTurn src) (src.bytes.length + 1) ⟨temp, 0, 0⟩
      let temp ← filled.temp.write filled.tempLen [0]
      let temp ← Loop.run dotdotTurn (maxFilename + 1) temp
      -- One leading dot is skipped, not all of them.
      let final := if temp.bytes.head? = some dot then 1 else 0
      let len ← temp.strlen final
      let dest ←
        if len = 0 then dest.strncpy 0 unnamed destSize
        else dest.strncpy 0 (temp.cstr final) destSize
      -- The last byte is cleared on this path only.
      dest.write (destSize - 1) [0]
    else dest.strncpy 0 unnamed destSize

/-- A byte as the fill loop copies it. -/
def keepByte (b : UInt8) : UInt8 := if validByte b then b else underscore

/-- The text the fill loop leaves in the array. -/
def fillText (src : List UInt8) : List UInt8 :=
  (src.take 254).map keepByte ++
    if (src.drop 254).any (fun b => !validByte b) then [underscore] else []

/-- A name without its leading dot, or the default when nothing is left. -/
def finishName (l : List UInt8) : List UInt8 :=
  let final := if l.head? = some dot then l.tail else l
  if final = [] then unnamed else final

/-- The name `sanitize_filename` leaves in the destination. -/
def sanitizedName (regcomp : Bool) (src : Option CStr) : List UInt8 :=
  match src with
  | none => unnamed
  | some src =>
    if regcomp then finishName (mapRuns dot (halved dot underscore) (fillText src.bytes))
    else unnamed

/-- An array before its first write. `sanitizeFilename_spec` holds of every
    content, so which one a caller's array has does not matter. -/
def uninit (n : Nat) : Buf n := ⟨List.replicate n 0, List.length_replicate⟩

/-- `char safe_name[MAX_FILENAME + 1]` after `sanitize_filename`, read as a string. -/
def safeName (regcomp : Bool) (src : Option CStr) : List UInt8 :=
  match sanitizeFilename regcomp (uninit _) (uninit (maxFilename + 1)) (maxFilename + 1) src with
  | some dest => dest.cstr 0
  | none => []

theorem validByte_underscore : validByte underscore = true := by decide

theorem validByte_keepByte (b : UInt8) : validByte (keepByte b) = true := by
  unfold keepByte
  split
  · assumption
  · exact validByte_underscore

theorem keepByte_of_valid {b : UInt8} (h : validByte b = true) : keepByte b = b := by
  rw [keepByte, if_pos h]

theorem map_keepByte_of_valid {l : List UInt8} (h : ∀ b ∈ l, validByte b = true) :
    l.map keepByte = l := by
  refine (List.map_congr_left (fun b hb => keepByte_of_valid (h b hb))).trans ?_
  exact List.map_id' l

/-- A match splits the text: valid bytes, then the first invalid one. -/
theorem regexec_eq_some {s : List UInt8} {so : Nat} (h : regexec s = some so) :
    ∃ seg b rest, s = seg ++ b :: rest ∧ seg.length = so ∧ (∀ x ∈ seg, validByte x = true) ∧
      validByte b = false := by
  rw [regexec, List.findIdx?_eq_some_iff_getElem] at h
  rcases h with ⟨hlt, hbad, hfirst⟩
  -- The match ends in front of the first byte of another class.
  refine ⟨s.take so, s[so], s.drop (so + 1), ?_, ?_, ?_, ?_⟩
  · rw [List.getElem_cons_drop, List.take_append_drop]
  · rw [List.length_take]
    omega
  · intro x hx
    rcases List.mem_take_iff_getElem.mp hx with ⟨j, hj, hjx⟩
    have hj' := hfirst j (by omega)
    simp only [Bool.not_eq_true', Bool.not_eq_false] at hj'
    rw [← hjx]
    exact hj'
  · simp only [Bool.not_eq_true'] at hbad
    exact hbad

theorem regexec_eq_none {s : List UInt8} (h : regexec s = none) :
    ∀ b ∈ s, validByte b = true := by
  rw [regexec, List.findIdx?_eq_none_iff] at h
  intro b hb
  have := h b hb
  simp only [Bool.not_eq_false'] at this
  exact this

/-- A text shorter than the clamp is copied byte by byte. -/
theorem fillText_of_length_le {l : List UInt8} (h : l.length ≤ 254) :
    fillText l = l.map keepByte := by
  rw [fillText, List.take_of_length_le h, List.drop_of_length_le h, List.any_nil]
  simp only [Bool.false_eq_true, if_false, List.append_nil]

/-- Past the clamp only whether an invalid byte follows still counts. -/
theorem fillText_of_invalid {front rest : List UInt8} {b : UInt8} (hb : validByte b = false)
    (hlen : 254 ≤ front.length) :
    fillText (front ++ b :: rest) = (front.take 254).map keepByte ++ [underscore] := by
  have hany : ((front ++ b :: rest).drop 254).any (fun x => !validByte x) = true := by
    rw [List.drop_append_of_le_length hlen, List.any_eq_true]
    exact ⟨b, List.mem_append_right _ List.mem_cons_self, by rw [hb]; rfl⟩
  rw [fillText, hany, if_pos rfl, List.take_append_of_le_length hlen]

theorem fillText_of_valid {front rest : List UInt8} (hrest : ∀ b ∈ rest, validByte b = true)
    (hlen : front.length ≤ 254) :
    fillText (front ++ rest) = ((front ++ rest).take 254).map keepByte := by
  have hany : ((front ++ rest).drop 254).any (fun x => !validByte x) = false := by
    rw [List.any_eq_false]
    intro b hb
    rw [List.drop_append, List.drop_of_length_le hlen, List.nil_append] at hb
    rw [hrest b (List.mem_of_mem_drop hb)]
    exact Bool.false_ne_true
  rw [fillText, hany]
  simp only [Bool.false_eq_true, if_false, List.append_nil]

/-- What the fill loop keeps true: while it reads, as many bytes are written as
    are read, each its image; when it stops early the array is full. -/
def FillInv (src : CStr) (s : Fill) : Prop :=
  s.p ≤ src.bytes.length ∧
    ((s.tempLen = s.p ∧ s.p < maxFilename ∧
        s.temp.bytes.take s.p = (src.bytes.take s.p).map keepByte) ∨
      (s.tempLen = maxFilename ∧ s.temp.bytes.take maxFilename = fillText src.bytes))

/-- What the fill loop ends with. -/
def FillPost (src : CStr) (s : Fill) : Prop :=
  s.tempLen ≤ maxFilename ∧ s.temp.bytes.take s.tempLen = fillText src.bytes

/-- The clamp, on the lengths it is reached with, does not wrap. -/
theorem clamp_eq {tempLen : Nat} (h : tempLen < maxFilename) :
    sizeSub (sizeSub maxFilename tempLen) 1 = 254 - tempLen := by
  unfold maxFilename at *
  rw [sizeSub_of_le (by omega : tempLen ≤ 255) (by omega), sizeSub_of_le (by omega) (by omega)]
  omega

/-- Where the loop reads, the text ends or goes on with a byte that is not NUL. -/
theorem read_cases (src : CStr) {p : Nat} (hp : p ≤ src.bytes.length) :
    (p = src.bytes.length ∧ src.read p = some 0) ∨
      (p < src.bytes.length ∧ ∃ c, src.read p = some c ∧ c ≠ 0) := by
  rcases Nat.lt_or_ge p src.bytes.length with hlt | hge
  · refine Or.inr ⟨hlt, src.bytes[p], ?_, ?_⟩
    · rw [CStr.read, List.getElem?_append_left hlt, List.getElem?_eq_getElem hlt]
    · intro h0
      exact src.noNul (h0 ▸ List.getElem_mem hlt)
  · have heq : p = src.bytes.length := by omega
    refine Or.inl ⟨heq, ?_⟩
    rw [CStr.read, heq, List.getElem?_append_right (Nat.le_refl _), Nat.sub_self]
    rfl

/-- The guard fails: the text is at its end, or the array is full. -/
theorem fillTurn_stop (src : CStr) (s : Fill) (hinv : FillInv src s)
    (hguard : s.p = src.bytes.length ∨ s.tempLen = maxFilename) :
    fillTurn src s = some (.inr s) ∧ FillPost src s := by
  rcases hinv with ⟨hp, hrest⟩
  constructor
  · rcases read_cases src hp with ⟨_, hread⟩ | ⟨hlt, c, hread, _⟩
    · rw [fillTurn, hread, Option.bind_eq_bind, Option.bind_some, if_neg]
      rintro ⟨hc, _⟩
      exact hc rfl
    · have hfull : s.tempLen = maxFilename := hguard.resolve_left (by omega)
      rw [fillTurn, hread, Option.bind_eq_bind, Option.bind_some, if_neg]
      rintro ⟨_, hlt'⟩
      omega
  -- Read to the end, or full: either way the array holds the final text.
  · rcases hrest with ⟨hlen, hlt, htake⟩ | ⟨hlen, htake⟩
    · have hend : s.p = src.bytes.length := hguard.resolve_right (by omega)
      refine ⟨by omega, ?_⟩
      unfold maxFilename at hlt
      rw [hlen, htake, hend, List.take_length, fillText_of_length_le (by omega)]
    · exact ⟨by omega, by rw [hlen]; exact htake⟩

/-- The tail turn: no invalid byte is left, so what remains is copied as it is,
    up to the clamp. -/
theorem fillTurn_tail (src : CStr) (s : Fill) (hlen : s.tempLen = s.p) (hlt : s.p < maxFilename)
    (hp : s.p < src.bytes.length)
    (htake : s.temp.bytes.take s.p = (src.bytes.take s.p).map keepByte)
    (hre : regexec (src.bytes.drop s.p) = none) :
    ∃ s', fillTurn src s = some (.inr s') ∧ FillPost src s' := by
  have hvalid := regexec_eq_none hre
  rcases read_cases src (Nat.le_of_lt hp) with ⟨hend, _⟩ | ⟨_, c, hread, hc⟩
  · omega
  -- The clamp and the whole tail are one case: the smaller of the two lengths.
  have hrem : (if maxFilename ≤ s.tempLen + (src.bytes.drop s.p).length
      then sizeSub (sizeSub maxFilename s.tempLen) 1 else (src.bytes.drop s.p).length)
      = min (254 - s.p) (src.bytes.drop s.p).length := by
    rw [clamp_eq (by omega), hlen]
    unfold maxFilename
    split <;> omega
  rcases strncpy_take s.temp s.tempLen (src.bytes.drop s.p)
    (min (254 - s.p) (src.bytes.drop s.p).length) (by omega)
    (by unfold maxFilename at *; omega) with ⟨temp', htemp', hbytes⟩
  refine ⟨⟨temp', s.tempLen + min (254 - s.p) (src.bytes.drop s.p).length, s.p⟩, ?_, ?_, ?_⟩
  · rw [fillTurn, hread, Option.bind_eq_bind, Option.bind_some, if_pos ⟨hc, by omega⟩, hre]
    simp only [hrem, htemp', Option.bind_eq_bind, Option.bind_some]
  · unfold maxFilename at *
    simp only
    omega
  · have hfront : (src.bytes.take s.p).length = s.p := List.length_take_of_le (Nat.le_of_lt hp)
    have hcopy : ((src.bytes.drop s.p).take (254 - s.p)).map keepByte
        = (src.bytes.drop s.p).take (254 - s.p) :=
      map_keepByte_of_valid (fun b hb => hvalid b (List.mem_of_mem_take hb))
    have hmin : (src.bytes.drop s.p).take (min (254 - s.p) (src.bytes.drop s.p).length)
        = (src.bytes.drop s.p).take (254 - s.p) := by
      rw [← List.take_take, List.take_length]
    -- Behind the read pointer all is valid, so the final text has no extra `_`.
    have hsplit : fillText src.bytes = (src.bytes.take 254).map keepByte := by
      have h : fillText (src.bytes.take s.p ++ src.bytes.drop s.p)
          = ((src.bytes.take s.p ++ src.bytes.drop s.p).take 254).map keepByte :=
        fillText_of_valid hvalid (by unfold maxFilename at hlt; omega)
      rw [List.take_append_drop] at h
      exact h
    simp only
    rw [hbytes, hsplit, hmin, ← hcopy, hlen, htake, ← List.map_append]
    unfold maxFilename at hlt
    rw [show 254 = s.p + (254 - s.p) by omega, List.take_add, Nat.add_sub_cancel_left]

/-- A match turn: the valid segment is copied up to the clamp and the invalid
    byte becomes `_`. Short of the clamp reading and writing stay in step; at it
    the array is full. -/
theorem fillTurn_match (src : CStr) (s : Fill) (so : Nat) (hlen : s.tempLen = s.p)
    (hlt : s.p < maxFilename) (hp : s.p < src.bytes.length)
    (htake : s.temp.bytes.take s.p = (src.bytes.take s.p).map keepByte)
    (hre : regexec (src.bytes.drop s.p) = some so) :
    ∃ s', fillTurn src s = some (.inl s') ∧ FillInv src s' ∧ s.p < s'.p := by
  rcases regexec_eq_some hre with ⟨seg, b, rest, hdrop, hseg, hvalid, hb⟩
  rcases read_cases src (Nat.le_of_lt hp) with ⟨hend, _⟩ | ⟨_, c, hread, hc⟩
  · omega
  have hfront : (src.bytes.take s.p).length = s.p := List.length_take_of_le (Nat.le_of_lt hp)
  have hsrc : src.bytes = (src.bytes.take s.p ++ seg) ++ b :: rest := by
    rw [List.append_assoc, ← hdrop, List.take_append_drop]
  have hsrclen : s.p + so < src.bytes.length := by
    have := congrArg List.length hdrop
    simp only [List.length_drop, List.length_append, List.length_cons] at this
    omega
  have hclamp : (if maxFilename ≤ s.tempLen + so
      then sizeSub (sizeSub maxFilename s.tempLen) 1 else so) = min (254 - s.p) so := by
    rw [clamp_eq (by omega), hlen]
    unfold maxFilename
    split <;> omega
  unfold maxFilename at hlt
  -- The copy of the segment, then the `_` behind it.
  rcases strncpy_take s.temp s.tempLen (src.bytes.drop s.p) (min (254 - s.p) so)
    (by rw [List.length_drop]; omega) (by unfold maxFilename; omega) with ⟨temp', htemp', hbytes'⟩
  rcases write_take temp' (s.tempLen + min (254 - s.p) so) [underscore]
    (by rw [List.length_singleton]; unfold maxFilename; omega) with ⟨temp'', htemp'', hbytes''⟩
  rw [List.length_singleton] at hbytes''
  refine ⟨⟨temp'', s.tempLen + min (254 - s.p) so + 1, s.p + (so + 1)⟩, ?_, ⟨?_, ?_⟩, ?_⟩
  · rw [fillTurn, hread, Option.bind_eq_bind, Option.bind_some,
      if_pos ⟨hc, by unfold maxFilename; omega⟩, hre]
    simp only [hclamp, htemp', Option.bind_eq_bind, Option.bind_some]
    rw [if_pos (by unfold maxFilename; omega), htemp'', Option.bind_some]
  · simp only
    omega
  · have hcopy : (seg.take (min (254 - s.p) so)).map keepByte = seg.take (min (254 - s.p) so) :=
      map_keepByte_of_valid (fun x hx => hvalid x (List.mem_of_mem_take hx))
    have hwritten : temp''.bytes.take (s.tempLen + min (254 - s.p) so + 1)
        = (src.bytes.take s.p ++ seg.take (min (254 - s.p) so)).map keepByte ++ [underscore] := by
      rw [hbytes'', hbytes', hlen, htake, hdrop, List.take_append_of_le_length (by omega),
        List.map_append, hcopy]
    by_cases hfull : 254 ≤ s.p + so
    -- The clamp is reached: the array is full and holds the final text.
    · right
      have hm : min (254 - s.p) so = 254 - s.p := by omega
      refine ⟨by simp only; unfold maxFilename; omega, ?_⟩
      simp only
      rw [hm, show s.tempLen + (254 - s.p) + 1 = maxFilename by unfold maxFilename; omega]
        at hwritten
      rw [hwritten, hsrc, fillText_of_invalid hb (by rw [List.length_append]; omega),
        ← hsrc, List.take_append, hfront, List.take_of_length_le (by omega : _ ≤ 254)]
    -- Short of it the turn wrote exactly what it read.
    · left
      have hm : min (254 - s.p) so = so := by omega
      refine ⟨by simp only; omega, by simp only; unfold maxFilename; omega, ?_⟩
      simp only
      rw [hm, show s.tempLen + so + 1 = s.p + (so + 1) by omega] at hwritten
      have hkb : keepByte b = underscore := by
        rw [keepByte, hb]
        rfl
      have hread : src.bytes.take (s.p + (so + 1)) = (src.bytes.take s.p ++ seg) ++ [b] := by
        rw [List.take_add, hdrop, ← hseg, List.take_length_add_append, List.take_succ_cons,
          List.take_zero, List.append_assoc]
      rw [hwritten, hread, ← hseg, List.take_length]
      simp only [List.map_append, List.map_cons, List.map_nil, hkb]
  · simp only
    omega

/-- One turn keeps the invariant, the read pointer moving on, or ends the fill. -/
theorem fillTurn_spec (src : CStr) (s : Fill) (hinv : FillInv src s) :
    (∃ s', fillTurn src s = some (.inl s') ∧ FillInv src s' ∧
      src.bytes.length - s'.p < src.bytes.length - s.p) ∨
    (∃ s', fillTurn src s = some (.inr s') ∧ FillPost src s') := by
  by_cases hguard : s.p = src.bytes.length ∨ s.tempLen = maxFilename
  · exact Or.inr ⟨s, fillTurn_stop src s hinv hguard⟩
  · rw [not_or] at hguard
    rcases hinv with ⟨hp, ⟨hlen, hlt, htake⟩ | ⟨hlen, _⟩⟩
    · have hp' : s.p < src.bytes.length := by omega
      -- A match moves `p` past a byte; without one the rest is copied and the loop is left.
      rcases hre : regexec (src.bytes.drop s.p) with _ | so
      · exact Or.inr (fillTurn_tail src s hlen hlt hp' htake hre)
      · rcases fillTurn_match src s so hlen hlt hp' htake hre with ⟨s', hs', hinv', hmove⟩
        exact Or.inl ⟨s', hs', hinv', by have := hinv'.1; omega⟩
    · exact absurd hlen hguard.2

/-- The fill loop ends, with `fillText` in the array. -/
theorem fill_spec (src : CStr) (temp : Buf (maxFilename + 1)) :
    ∃ s, Loop.run (fillTurn src) (src.bytes.length + 1) ⟨temp, 0, 0⟩ = some s ∧ FillPost src s := by
  -- The measure is what is left to read.
  refine Loop.run_total (fillTurn src) (FillInv src) (FillPost src)
    (fun s => src.bytes.length - s.p) (fillTurn_spec src) _ _ ⟨Nat.zero_le _, Or.inl ?_⟩ ?_
  · exact ⟨rfl, (by decide : 0 < maxFilename), rfl⟩
  · simp only
    omega

/-- The name in an array without its NUL is what the fill loop wrote. -/
theorem noNul_fillText (l : List UInt8) : 0 ∉ fillText l := by
  intro h
  have hvalid : validByte 0 = true := by
    rcases List.mem_append.mp h with h | h
    · rcases List.mem_map.mp h with ⟨b, _, hb⟩
      exact hb ▸ validByte_keepByte b
    · split at h
      · rw [List.mem_singleton] at h
        exact h ▸ validByte_underscore
      · exact absurd h List.not_mem_nil
  exact absurd hvalid (by decide)

/-- A hit of `..` that is the first one does not follow a dot. -/
theorem getLast?_ne_dot {pre rest : List UInt8}
    (hfirst : ∀ j < pre.length, ¬ [dot, dot] <+: (pre ++ dot :: rest).drop j) :
    pre.getLast? ≠ some dot := by
  intro hlast
  rcases List.eq_nil_or_concat pre with rfl | ⟨p, a, rfl⟩
  · simp only [List.getLast?_nil, reduceCtorEq] at hlast
  · rw [List.concat_eq_append] at hlast hfirst
    rw [List.getLast?_concat, Option.some.injEq] at hlast
    refine hfirst p.length (by rw [List.length_append, List.length_singleton]; omega) ?_
    rw [List.append_assoc, List.drop_left, hlast]
    exact ⟨rest, rfl⟩

/-- One turn on an array holding `s`: without `..` the loop ends, with the array
    as it is; otherwise the first `..` becomes `_` and the text is one shorter. -/
theorem dotdotTurn_spec {n : Nat} (temp : Buf n) (s : List UInt8) (h : HoldsAt temp 0 s) :
    (dotdotTurn temp = some (.inr temp) ∧ ¬ [dot, dot] <:+: s) ∨
    (∃ pre post temp', s = pre ++ dot :: dot :: post ∧ pre.getLast? ≠ some dot ∧
      dotdotTurn temp = some (.inl temp') ∧ HoldsAt temp' 0 (pre ++ underscore :: post)) := by
  rcases hfind : findSub [dot, dot] s with _ | i
  · refine Or.inl ⟨?_, findSub_eq_none hfind⟩
    rw [dotdotTurn, h.strstr, hfind]
    rfl
  · right
    -- The text around the first hit, and what the array holds behind it.
    rcases findSub_eq_some hfind with ⟨pre, post, hs, hi, hfirst⟩
    rw [List.append_assoc, List.cons_append, List.cons_append, List.nil_append] at hs
    rcases h with ⟨hnul, rest, hrest⟩
    rw [List.drop_zero, hs] at hrest
    have hpost : 0 ∉ pre ++ underscore :: post := by
      rw [hs] at hnul
      simp only [List.mem_append, List.mem_cons, not_or] at hnul ⊢
      exact ⟨hnul.1, by decide, hnul.2.2.2⟩
    -- The two stores put `__` where the dots were.
    rcases write_split temp pre [dot] (dot :: post ++ 0 :: rest) [underscore]
      (by rw [hrest]; simp only [List.append_assoc, List.cons_append, List.nil_append]) rfl with
      ⟨temp₁, h₁, hb₁⟩
    rcases write_split temp₁ (pre ++ [underscore]) [dot] (post ++ 0 :: rest) [underscore]
      (by rw [hb₁]; simp only [List.append_assoc, List.cons_append, List.nil_append]) rfl with
      ⟨temp₂, h₂, hb₂⟩
    rw [List.length_append, List.length_singleton, hi] at h₂
    rw [hi] at h₁
    -- The tail and its NUL move one byte down.
    have htail : HoldsAt temp₂ (i + 2) post := by
      refine ⟨fun hmem => hpost (by
        rw [List.mem_append]; exact Or.inr (List.mem_cons_of_mem _ hmem)), rest, ?_⟩
      rw [hb₂, show i + 2 = (pre ++ [underscore] ++ [underscore]).length by
        simp only [List.length_append, List.length_singleton]; omega, List.drop_left]
    have hsize := htail.length_lt
    rcases write_split temp₂ (pre ++ [underscore]) (underscore :: post) (0 :: rest)
      (post ++ [0]) (by rw [hb₂]; simp only [List.append_assoc, List.cons_append, List.nil_append])
      (by simp only [List.length_append, List.length_cons, List.length_nil]) with
      ⟨temp₃, h₃, hb₃⟩
    rw [List.length_append, List.length_singleton, hi] at h₃
    have hmove : temp₂.memmove (i + 1) (i + 2) (post.length + 1) = some temp₃ := by
      rcases htail with ⟨_, rest', hrest'⟩
      rw [Buf.memmove, if_pos (by omega), hrest', List.take_append, List.take_of_length_le
        (by omega), Nat.add_sub_cancel_left, List.take_succ_cons, List.take_zero, h₃]
    refine ⟨pre, post, temp₃, hs, ?_, ?_, hpost, 0 :: rest, ?_⟩
    · rw [hs] at hfirst
      exact getLast?_ne_dot (fun j hj => hfirst j (by omega))
    · have hstr : temp.strstr [dot, dot] = some (some i) := by
        rw [← hfind]
        exact HoldsAt.strstr ⟨hnul, rest, by rw [List.drop_zero, hrest, hs]⟩ _
      simp only [dotdotTurn, hstr, h₁, h₂, htail.strlen, hmove, Option.bind_eq_bind,
        Option.bind_some]
    · rw [List.drop_zero, hb₃]
      simp only [List.append_assoc, List.cons_append, List.nil_append]

/-- The rewrite loop ends, with the pair filter of the text in the array. The
    invariant is that the filter of what the array holds does not change. -/
theorem dotdot_spec {n fuel : Nat} (temp : Buf n) (s : List UInt8) (h : HoldsAt temp 0 s)
    (hfuel : s.length < fuel) :
    ∃ temp', Loop.run dotdotTurn fuel temp = some temp' ∧
      HoldsAt temp' 0 (mapRuns dot (halved dot underscore) s) := by
  refine Loop.run_total dotdotTurn
    (fun t => ∃ s', HoldsAt t 0 s' ∧
      mapRuns dot (halved dot underscore) s' = mapRuns dot (halved dot underscore) s)
    (fun t => HoldsAt t 0 (mapRuns dot (halved dot underscore) s))
    (fun t => (t.cstr 0).length) ?_ _ temp ⟨s, h, rfl⟩ ?_
  · rintro t ⟨s', ht, heq⟩
    rcases dotdotTurn_spec t s' ht with ⟨hturn, hnone⟩ | ⟨pre, post, t', hs', hlast, hturn, ht'⟩
    · refine Or.inr ⟨t, hturn, ?_⟩
      rw [← heq, mapRuns_of_noPair dot _ rfl rfl s' hnone]
      exact ht
    · refine Or.inl ⟨t', hturn, ⟨_, ht', ?_⟩, ?_⟩
      -- The first pair of a run is what the filter would replace, too.
      · rw [← heq, hs']
        exact (mapRuns_halved_pair dot underscore (by decide) pre post hlast).symm
      · rw [ht.cstr, ht'.cstr, hs']
        simp only [List.length_append, List.length_cons]
        omega
  · rw [h.cstr]
    exact hfuel

/-- What a string written to the destination and its last byte cleared holds. -/
theorem copyOut_spec (dest : Buf (maxFilename + 1)) (s : List UInt8) (hs : 0 ∉ s)
    (hlen : s.length ≤ maxFilename) :
    ∃ mid out, dest.strncpy 0 s (maxFilename + 1) = some mid ∧ HoldsAt mid 0 s ∧
      mid.write maxFilename [0] = some out ∧ HoldsAt out 0 s := by
  rcases strncpy_holds dest s hs (by omega) with ⟨mid, hmid, hholds, hbytes⟩
  -- The padding already ends in a NUL, so the last store changes nothing.
  have hpad : mid.bytes = (s ++ List.replicate (maxFilename - s.length) 0) ++ [0] ++ [] := by
    rw [hbytes, show maxFilename + 1 - s.length = (maxFilename - s.length) + 1 by omega,
      List.replicate_succ', List.append_nil, List.append_assoc]
  rcases write_split mid _ [0] [] [0] hpad rfl with ⟨out, hout, hobytes⟩
  rw [List.length_append, List.length_replicate, show s.length + (maxFilename - s.length) =
    maxFilename by omega] at hout
  refine ⟨mid, out, hmid, hholds, hout, hs, ?_⟩
  have hsame : out.bytes = mid.bytes := by rw [hobytes, hpad]
  rcases hholds with ⟨_, rest, hrest⟩
  exact ⟨rest, by rw [hsame]; exact hrest⟩

/-- The text left after skipping a leading dot. -/
theorem holdsAt_final {n : Nat} {temp : Buf n} {s : List UInt8} (h : HoldsAt temp 0 s) :
    HoldsAt temp (if temp.bytes.head? = some dot then 1 else 0)
      (if s.head? = some dot then s.tail else s) := by
  have hhead : temp.bytes.head? = some dot ↔ s.head? = some dot := by
    rcases h with ⟨_, rest, hrest⟩
    rw [List.drop_zero] at hrest
    rw [hrest]
    cases s with
    | nil =>
        rw [List.nil_append, List.head?_cons, List.head?_nil]
        decide
    | cons a s => rfl
  -- The array starts with the dot exactly when its text does.
  by_cases hs : s.head? = some dot
  · rw [if_pos hs, if_pos (hhead.mpr hs)]
    cases s with
    | nil => simp only [List.head?_nil, reduceCtorEq] at hs
    | cons a s =>
        have hsplit : HoldsAt temp 0 ([a] ++ s) := h
        exact hsplit.drop
  · rw [if_neg hs, if_neg (fun h' => hs (hhead.mp h'))]
    exact h

theorem noNul_unnamed : 0 ∉ unnamed := by decide

theorem length_fillText_le (l : List UInt8) : (fillText l).length ≤ maxFilename := by
  rw [fillText, List.length_append, List.length_map, List.length_take]
  unfold maxFilename
  split
  · rw [List.length_singleton]
    omega
  · rw [List.length_nil]
    omega

/-- Whatever the arrays held, the function returns, and the destination holds
    `sanitizedName`, terminated. -/
theorem sanitizeFilename_spec (regcomp : Bool) (temp dest : Buf (maxFilename + 1))
    (src : Option CStr) :
    ∃ out, sanitizeFilename regcomp temp dest (maxFilename + 1) src = some out ∧
      HoldsAt out 0 (sanitizedName regcomp src) := by
  rcases copyOut_spec dest unnamed noNul_unnamed (by decide) with ⟨mid, out, hmid, hm, hout, ho⟩
  cases src with
  | none =>
      rw [sanitizeFilename, sanitizedName]
      exact ⟨mid, hmid, hm⟩
  | some src =>
      cases regcomp with
      | false =>
          simp only [sanitizeFilename, sanitizedName, Bool.false_eq_true, if_false]
          exact ⟨mid, hmid, hm⟩
      | true =>
          rcases fill_spec src temp with ⟨filled, hfill, hlen, htake⟩
          -- The store behind the filled text terminates it.
          have hterm : ∃ temp₁, filled.temp.write filled.tempLen [0] = some temp₁ ∧
              HoldsAt temp₁ 0 (fillText src.bytes) := by
            rcases write_eq filled.temp filled.tempLen [0]
              (by rw [List.length_singleton]; omega) with ⟨temp₁, h₁, hb₁⟩
            refine ⟨temp₁, h₁, noNul_fillText _,
              filled.temp.bytes.drop (filled.tempLen + [(0 : UInt8)].length), ?_⟩
            rw [List.drop_zero, hb₁, htake, List.append_assoc, List.singleton_append]
          rcases hterm with ⟨temp₁, h₁, hheld₁⟩
          have hfits : (fillText src.bytes).length < maxFilename + 1 := by
            have := hheld₁.length_lt
            omega
          rcases dotdot_spec temp₁ _ hheld₁ hfits with ⟨temp₂, h₂, hheld₂⟩
          have hfinal := holdsAt_final hheld₂
          generalize hs : mapRuns dot (halved dot underscore) (fillText src.bytes) = s at *
          generalize ht : (if s.head? = some dot then s.tail else s) = t at *
          have hname : sanitizedName true (some src) = if t = [] then unnamed else t := by
            simp only [sanitizedName, finishName, if_true, hs, ht]
          have hresult : sanitizeFilename true temp dest (maxFilename + 1) (some src)
              = (if t.length = 0 then dest.strncpy 0 unnamed (maxFilename + 1)
                else dest.strncpy 0 t (maxFilename + 1)).bind
                  (fun d => d.write maxFilename [0]) := by
            simp only [sanitizeFilename, if_true, hfill, h₁, h₂, hfinal.strlen, hfinal.cstr,
              Option.bind_eq_bind, Option.bind_some, Nat.add_sub_cancel]
            split <;> rfl
          -- A name that vanished becomes the default, another is copied out.
          by_cases hempty : t = []
          · refine ⟨out, ?_, ?_⟩
            · rw [hresult, hempty, List.length_nil, if_pos rfl, hmid, Option.bind_some, hout]
            · rw [hname, if_pos hempty]
              exact ho
          · have hbound := hfinal.length_lt
            rcases copyOut_spec dest t hfinal.1 (by omega) with ⟨mid', out', hmid', _, hout', ho'⟩
            refine ⟨out', ?_, ?_⟩
            · rw [hresult, if_neg (fun h => hempty (List.length_eq_zero_iff.mp h)), hmid',
                Option.bind_some, hout']
            · rw [hname, if_neg hempty]
              exact ho'

theorem safeName_eq (regcomp : Bool) (src : Option CStr) :
    safeName regcomp src = sanitizedName regcomp src := by
  rcases sanitizeFilename_spec regcomp (uninit _) (uninit (maxFilename + 1)) src with
    ⟨out, hout, hholds⟩
  rw [safeName, hout]
  exact hholds.cstr

/-- What the sanitiser makes of every name. -/
structure SafeName (name : List UInt8) : Prop where
  valid : ∀ b ∈ name, validByte b = true
  nonempty : name ≠ []
  length_le : name.length ≤ maxFilename
  noDotdot : ¬ [dot, dot] <:+: name
  head : name.head? ≠ some dot

theorem safeName_unnamed : SafeName unnamed where
  valid := List.all_eq_true.mp (by decide)
  nonempty := by decide
  length_le := by decide
  noDotdot := by decide
  head := by decide

theorem fillText_valid (l : List UInt8) : ∀ b ∈ fillText l, validByte b = true := by
  intro b hb
  rcases List.mem_append.mp hb with h | h
  · rcases List.mem_map.mp h with ⟨c, _, rfl⟩
    exact validByte_keepByte c
  · split at h
    · rw [List.mem_singleton] at h
      exact h ▸ validByte_underscore
    · exact absurd h List.not_mem_nil

/-- Skipping the dot in front of a text without `..` uncovers no other dot. -/
theorem finishName_safe {l : List UInt8} (hvalid : ∀ b ∈ l, validByte b = true)
    (hlen : l.length ≤ maxFilename) (hpair : ¬ [dot, dot] <:+: l) : SafeName (finishName l) := by
  have hsuffix := trimHead_suffix dot l
  have hhead := trimHead_head? hpair
  simp only [finishName]
  generalize (if l.head? = some dot then l.tail else l) = final at hsuffix hhead ⊢
  -- A suffix of a name without two dots in a row is one again.
  by_cases hempty : final = []
  · rw [if_pos hempty]
    exact safeName_unnamed
  · rw [if_neg hempty]
    exact {
      valid := fun b hb => hvalid b (hsuffix.subset hb)
      nonempty := hempty
      length_le := Nat.le_trans hsuffix.length_le hlen
      noDotdot := fun h => hpair (h.trans hsuffix.isInfix)
      head := hhead }

theorem sanitizedName_safe (regcomp : Bool) (src : Option CStr) :
    SafeName (sanitizedName regcomp src) := by
  cases src with
  | none => exact safeName_unnamed
  | some src =>
      cases regcomp with
      | false => exact safeName_unnamed
      | true =>
          simp only [sanitizedName, if_true]
          -- Each of the three properties survives the rewriting of dots.
          refine finishName_safe ?_ ?_ ?_
          · refine forall_mem_mapRunsFrom dot _ (fun b => validByte b = true) ?_ _ 0
              (fillText_valid src.bytes)
            intro n b hb
            rcases mem_halved hb with rfl | rfl
            · decide
            · exact validByte_underscore
          · refine Nat.le_trans (length_mapRuns_le dot _ (fun n => ?_) _)
              (length_fillText_le src.bytes)
            rw [length_halved]
            omega
          · exact noPair_mapRuns dot _ (halved_noPair dot underscore (by decide)) _

/-- A safe name short of the clamp is its own sanitised form. -/
theorem sanitizedName_of_safe (src : CStr) (h : SafeName src.bytes)
    (hlen : src.bytes.length ≤ 254) :
    sanitizedName true (some src) = src.bytes := by
  have hpair := h.noDotdot
  have hhead := h.head
  have hne := h.nonempty
  simp only [sanitizedName, if_true, fillText_of_length_le hlen, map_keepByte_of_valid h.valid,
    mapRuns_of_noPair dot (halved dot underscore) rfl rfl _ hpair, finishName, if_neg hhead,
    if_neg hne]

theorem SafeName.noNul {name : List UInt8} (h : SafeName name) : 0 ∉ name := by
  intro h0
  exact absurd (h.valid 0 h0) (by decide)

end Server

end SendingSystem
