import SendingSystem.Client.Filename
import SendingSystem.Server.FileService

/-!
# The two sanitisers

The client's sanitiser is documented to mirror the server's. They differ in one
place: the client's expression takes a run of dots as a whole, the server's loop
takes two dots at a time. On ASCII text short enough for the server's array both
come to one filter over the same bytes, `merged` on one side and `halved` on the
other, so they agree exactly when no three dots follow one another.

## Theorems

* `client_sanitize_ofBytes`: The client's function on ASCII bytes.
* `finishName_eq_iff`: When two filtered texts end in the same name.
* `sanitisers_agree_iff`: When the two sanitisers agree.
-/

namespace SendingSystem

open CString Utf16 Runs Server

/-- The two character classes are the same. -/
theorem validPoint_toNat (b : UInt8) : Client.validPoint b.toNat = validByte b := by
  rw [Bool.eq_iff_iff]
  simp only [Client.validPoint, validByte, dot, underscore, Bool.or_eq_true, Bool.and_eq_true,
    decide_eq_true_eq, beq_iff_eq, UInt8.le_iff_toNat_le, ← UInt8.toNat_inj, UInt8.toNat_ofNat]
  omega

/-- The client's function on ASCII bytes. -/
theorem client_sanitize_ofBytes {l : List UInt8} (hl : l ≠ []) (hascii : ∀ b ∈ l, b.toNat < 128) :
    Client.sanitizeFilename (some (ofBytes l))
      = ofBytes (finishName (mapRuns dot (merged dot underscore) (l.map keepByte))) := by
  have hne : ofBytes l ≠ [] := fun h => hl (ofBytes_eq_nil.mp h)
  -- Each of the three passes on ASCII units is the pass on bytes.
  have hinvalid : Client.replaceInvalid (ofBytes l) = ofBytes (l.map keepByte) := by
    rw [Client.replaceInvalid, replacePoints_ascii _ _ (ofBytes_ascii hascii), ofBytes, ofBytes,
      List.map_map, List.map_map]
    refine List.map_congr_left fun b _ => ?_
    simp only [Function.comp_apply, toNat_toUInt16, validPoint_toNat, keepByte]
    cases validByte b <;> rfl
  have hdots : ∀ m, Client.replaceDots (ofBytes m)
      = ofBytes (mapRuns dot (merged dot underscore) m) :=
    mapRuns_merged_map toUInt16_injective dot underscore
  have hstrip : ∀ m, Client.stripDot (ofBytes m)
      = ofBytes (if m.head? = some dot then m.tail else m) := by
    intro m
    cases m with
    | nil => rfl
    | cons b m =>
        have hb : b.toUInt16 = Client.dot ↔ b = dot := toUInt16_injective.eq_iff (b := dot)
        simp only [Client.stripDot, ofBytes, List.map_cons, List.head?_cons, Option.some.injEq, hb,
          List.tail_cons]
        split <;> rfl
  simp only [Client.sanitizeFilename, if_neg hne, hinvalid, hdots, hstrip, finishName]
  -- What is left to see is the empty text.
  generalize (if (mapRuns dot (merged dot underscore) (l.map keepByte)).head? = some dot then
    (mapRuns dot (merged dot underscore) (l.map keepByte)).tail
    else mapRuns dot (merged dot underscore) (l.map keepByte)) = final
  by_cases hfinal : final = []
  · rw [if_pos hfinal, if_pos (ofBytes_eq_nil.mpr hfinal)]
    rfl
  · rw [if_neg hfinal, if_neg (fun h => hfinal (ofBytes_eq_nil.mp h))]

/-- Two texts that start alike end in the same name only if they are equally
    long, as soon as the first is more than a dot. -/
theorem length_eq_of_finishName_eq {a b : List UInt8} (hhead : a.head? = b.head?)
    (ha : (if a.head? = some dot then a.tail else a) ≠ []) (hlen : a.length ≤ b.length)
    (h : finishName a = finishName b) : a.length = b.length := by
  simp only [finishName, if_neg ha] at h
  rw [← hhead] at h
  -- They start alike, so both lose a dot or neither does.
  by_cases hdot : a.head? = some dot
  · rw [if_pos hdot] at h ha
    simp only [if_pos hdot] at h
    have hb : b.tail ≠ [] := by
      intro hnil
      have hlen' : b.tail.length = 0 := by rw [hnil]; rfl
      have hpos := List.length_pos_iff.mpr ha
      rw [List.length_tail] at hlen' hpos
      omega
    rw [if_neg hb] at h
    have htails := congrArg List.length h
    have hpos := List.length_pos_iff.mpr ha
    rw [List.length_tail] at htails hpos
    rw [List.length_tail] at htails
    omega
  · rw [if_neg hdot] at ha
    simp only [if_neg hdot] at h
    have hb : b ≠ [] := by
      rintro rfl
      have hpos := List.length_pos_iff.mpr ha
      rw [List.length_nil] at hlen
      omega
    rw [if_neg hb] at h
    exact congrArg List.length h

/-- The names made of a text by the two filters are the same exactly when it has
    no three dots in a row. -/
theorem finishName_eq_iff (l : List UInt8) :
    finishName (mapRuns dot (merged dot underscore) l)
      = finishName (mapRuns dot (halved dot underscore) l) ↔ ¬ [dot, dot, dot] <:+: l := by
  constructor
  · intro h hdots
    have hlt := length_merged_lt dot underscore l hdots
    have hhead := head?_merged_halved dot underscore l
    -- The merged text has a replacement, so removing a dot leaves something.
    have hmem : underscore ∈ mapRuns dot (merged dot underscore) l := by
      have hpair : [dot, dot] <:+: l := List.IsInfix.trans ⟨[], [dot], rfl⟩ hdots
      refine mem_mapRunsFrom_merged dot underscore l 0 ?_
      rw [List.replicate_zero, List.nil_append]
      exact hpair
    have hrest : (if (mapRuns dot (merged dot underscore) l).head? = some dot then
        (mapRuns dot (merged dot underscore) l).tail
        else mapRuns dot (merged dot underscore) l) ≠ [] := by
      generalize mapRuns dot (merged dot underscore) l = m at hmem
      cases m with
      | nil => exact absurd hmem List.not_mem_nil
      | cons b m =>
          simp only [List.head?_cons, Option.some.injEq, List.tail_cons]
          by_cases hb : b = dot
          · rw [if_pos hb]
            rcases List.mem_cons.mp hmem with heq | hmem
            · rw [hb] at heq
              exact absurd heq (by decide)
            · exact List.ne_nil_of_mem hmem
          · rw [if_neg hb]
            exact List.cons_ne_nil b m
    -- Equal names would have to be equally long, but three dots shorten one more.
    have heq := length_eq_of_finishName_eq hhead hrest (by omega) h
    omega
  · intro h
    rw [(merged_eq_halved_iff dot underscore l).mpr h]

/-- Copying a byte makes no dot and loses none. -/
theorem triple_map_keepByte (l : List UInt8) :
    [dot, dot, dot] <:+: l.map keepByte ↔ [dot, dot, dot] <:+: l := by
  have hdot : ∀ b, keepByte b = dot ↔ b = dot := by
    intro b
    rw [keepByte]
    constructor
    · intro h
      split at h
      · exact h
      · exact absurd h (by decide)
    · rintro rfl
      rfl
  constructor
  · rintro ⟨u, v, h⟩
    rw [List.append_assoc] at h
    rcases List.map_eq_append_iff.mp h.symm with ⟨p, rest, rfl, _, hrest⟩
    rcases List.map_eq_append_iff.mp hrest with ⟨m, q, rfl, hm, _⟩
    -- Only a dot is copied as a dot.
    have hdots : m = [dot, dot, dot] := by
      rcases m with _ | ⟨a, _ | ⟨b, _ | ⟨c, _ | ⟨d, m⟩⟩⟩⟩ <;>
        simp only [List.map_nil, List.map_cons, List.cons.injEq, reduceCtorEq, and_false] at hm
      rw [(hdot a).mp hm.1, (hdot b).mp hm.2.1, (hdot c).mp hm.2.2.1]
    rw [hdots]
    exact ⟨p, q, List.append_assoc _ _ _⟩
  · rintro ⟨u, v, rfl⟩
    refine ⟨u.map keepByte, v.map keepByte, ?_⟩
    rw [List.map_append, List.map_append]
    rfl

/-- On a text the server takes as a whole, the two sanitisers agree exactly when
    it has no three dots in a row. -/
theorem sanitisers_agree_iff (s : CStr) (hs : s.bytes ≠ []) (hascii : ∀ b ∈ s.bytes, b.toNat < 128)
    (hlen : s.bytes.length ≤ 254) :
    Client.sanitizeFilename (some (ofBytes s.bytes)) = ofBytes (safeName true (some s)) ↔
      ¬ [dot, dot, dot] <:+: s.bytes := by
  have hserver : safeName true (some s)
      = finishName (mapRuns dot (halved dot underscore) (s.bytes.map keepByte)) := by
    rw [safeName_eq, sanitizedName, if_pos rfl, fillText_of_length_le hlen]
  rw [client_sanitize_ofBytes hs hascii, hserver, ofBytes_injective.eq_iff, finishName_eq_iff,
    triple_map_keepByte]

/-- The condition on a name as users type it. -/
theorem sanitisers_agree_iff_report :
    Client.sanitizeFilename (some (ofBytes (ascii "my report..pdf")))
      = ofBytes (safeName true (some (.lit "my report..pdf"))) :=
  (sanitisers_agree_iff (.lit "my report..pdf") (by decide)
    (List.all_iff_forall_prop.mp (by decide)) (by decide)).mpr (by decide)

/-- Three dots are one `_` to the client and `_.` to the server. -/
theorem three_dots_differ :
    Client.sanitizeFilename (some (ofBytes (ascii "..."))) ≠
      ofBytes (safeName true (some (.lit "..."))) := by
  have hclient : Client.sanitizeFilename (some (ofBytes (ascii "..."))) = lit "_" := by decide
  have hserver : safeName true (some (.lit "...")) = ascii "_." := by
    rw [safeName_eq]
    decide
  rw [hclient, hserver]
  decide

end SendingSystem
