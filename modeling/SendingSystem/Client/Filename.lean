import SendingSystem.Lib.Runs
import SendingSystem.Lib.Utf16

/-!
# The client's file names

`Connector.sanitizeFilename`: three regular expressions, one after the other. The
first replaces every code point outside `[a-zA-Z0-9._-]`, the second every run of
two dots or more, the third removes a dot in front. A text that vanishes becomes
a default name; no text stays no text.

`CleanName` is what the function makes of every text, and such a name is its own
sanitised form, so applying the function again changes nothing.

## Main definitions

* `validPoint`: The character class.
* `sanitizeFilename`: The function.
* `CleanName`: What it makes of a text.

## Theorems

* `sanitizeFilename_clean`: A text becomes a clean name.
* `sanitizeFilename_of_clean`: A clean name stays as it is.
* `sanitizeFilename_idem`: A second pass changes nothing.
-/

namespace SendingSystem

namespace Client

open Utf16 Runs

/-- The unit `_`. -/
def underscore : UInt16 := 95

/-- The unit `.`. -/
def dot : UInt16 := 46

/-- `"unnamed.dat"`. -/
def unnamed : JString := lit "unnamed.dat"

/-- A code point of `[a-zA-Z0-9._-]`. -/
def validPoint (c : Nat) : Bool :=
  (97 ≤ c && c ≤ 122) || (65 ≤ c && c ≤ 90) || (48 ≤ c && c ≤ 57) || c == 46 || c == 95 || c == 45

/-- `replaceAll("[^a-zA-Z0-9._-]", "_")`. -/
def replaceInvalid (s : JString) : JString := replacePoints (fun c => !validPoint c) underscore s

/-- `replaceAll("\\.{2,}", "_")`: the quantifier is greedy, so a match is a whole
    run of dots. -/
def replaceDots (s : JString) : JString := mapRuns dot (merged dot underscore) s

/-- `replaceFirst("^\\.", "")`. -/
def stripDot (s : JString) : JString := if s.head? = some dot then s.tail else s

/-- `Connector.sanitizeFilename`. -/
def sanitizeFilename (input : Option JString) : JString :=
  match input with
  | none => []
  | some input =>
    if input = [] then []
    else
      let safe := replaceInvalid input
      let safe := replaceDots safe
      let safe := stripDot safe
      if safe = [] then unnamed else safe

/-- What the function makes of a text. -/
structure CleanName (name : JString) : Prop where
  valid : ∀ u ∈ name, validPoint u.toNat = true
  nonempty : name ≠ []
  noDotdot : ¬ [dot, dot] <:+: name
  head : name.head? ≠ some dot

theorem cleanName_unnamed : CleanName unnamed where
  valid := List.all_eq_true.mp (by decide)
  nonempty := by decide
  noDotdot := by decide
  head := by decide

/-- The character class is ASCII. -/
theorem lt_of_validPoint {c : Nat} (h : validPoint c = true) : c < 128 := by
  simp only [validPoint, Bool.or_eq_true, Bool.and_eq_true, decide_eq_true_eq, beq_iff_eq] at h
  omega

theorem CleanName.ascii {name : JString} (h : CleanName name) : ∀ u ∈ name, u.toNat < 128 :=
  fun u hu => lt_of_validPoint (h.valid u hu)

/-- Only points of the class are left. -/
theorem replaceInvalid_valid (s : JString) : ∀ u ∈ replaceInvalid s, validPoint u.toNat = true := by
  intro u hu
  rcases mem_replacePoints hu with rfl | ⟨c, hc, hu⟩
  · decide
  · rw [Bool.not_eq_false'] at hc
    have hlt := lt_of_validPoint hc
    rw [units, if_pos (by omega), List.mem_singleton] at hu
    have hnat : u.toNat = c := by
      rw [hu]
      exact UInt16.toNat_ofNat_of_lt' (by simp only [UInt16.size]; omega)
    rw [hnat]
    exact hc

theorem replaceDots_valid {s : JString} (h : ∀ u ∈ s, validPoint u.toNat = true) :
    ∀ u ∈ replaceDots s, validPoint u.toNat = true := by
  refine forall_mem_mapRunsFrom dot _ (fun u => validPoint u.toNat = true) ?_ s 0 h
  intro n u hu
  rcases mem_merged hu with rfl | rfl
  · decide
  · decide

theorem replaceDots_noDotdot (s : JString) : ¬ [dot, dot] <:+: replaceDots s :=
  noPair_mapRuns dot _ (merged_noPair dot underscore) s

/-- A text becomes a clean name. -/
theorem sanitizeFilename_clean {s : JString} (hs : s ≠ []) :
    CleanName (sanitizeFilename (some s)) := by
  simp only [sanitizeFilename, if_neg hs]
  -- What is left is a suffix of a text that is clean but for a dot in front.
  by_cases hempty : stripDot (replaceDots (replaceInvalid s)) = []
  · rw [if_pos hempty]
    exact cleanName_unnamed
  · rw [if_neg hempty]
    have hsuffix := trimHead_suffix dot (replaceDots (replaceInvalid s))
    have hpair := replaceDots_noDotdot (replaceInvalid s)
    exact {
      valid := fun u hu => replaceDots_valid (replaceInvalid_valid s) u (hsuffix.subset hu)
      nonempty := hempty
      noDotdot := fun h => hpair (h.trans hsuffix.isInfix)
      head := trimHead_head? hpair }

/-- A clean name stays as it is: none of the three passes finds anything. -/
theorem sanitizeFilename_of_clean {name : JString} (h : CleanName name) :
    sanitizeFilename (some name) = name := by
  have hhead := h.head
  have hinvalid : replaceInvalid name = name :=
    replacePoints_of_none _ underscore h.ascii (fun u hu => by rw [h.valid u hu]; rfl)
  have hdots : replaceDots name = name :=
    mapRuns_of_noPair dot (merged dot underscore) rfl rfl name h.noDotdot
  simp only [sanitizeFilename, if_neg h.nonempty, hinvalid, hdots, stripDot, if_neg hhead]

/-- A second pass changes nothing. -/
theorem sanitizeFilename_idem (input : Option JString) :
    sanitizeFilename (some (sanitizeFilename input)) = sanitizeFilename input := by
  cases input with
  | none => rfl
  | some s =>
      by_cases hs : s = []
      · rw [hs]
        rfl
      · exact sanitizeFilename_of_clean (sanitizeFilename_clean hs)

end Client

end SendingSystem
