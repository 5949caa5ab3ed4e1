import Mathlib.Data.List.Basic
import Mathlib.Data.List.Chain
import Mathlib.Data.List.Infix
import Mathlib.Tactic.Basic

/-!
# Patterns with wildcards

The patterns of SQL's `LIKE`: one letter stands for any text, one for any single
letter, and an escape letter makes the letter behind it stand for itself. A
pattern that ends in its escape letter matches nothing.

A pattern is read into tokens first. A text matches when it can be cut into one
piece for each token (`matchText_iff`), and from this the rest follows without
going through the matcher again: a text of plain letters between two wildcards
matches what contains it, and with a special letter in it, it does not.

## Main definitions

* `Letters`: The three special letters.
* `Token`, `tokens`: What a pattern says.
* `matchText`, `like`: The matcher.
* `Token.Covers`: What a token stands for.
* `fill`: A text that matches.

## Theorems

* `matchText_iff`: A match is a cut into pieces.
* `like_surround`: Plain text between wildcards matches what contains it.
* `like_fill`, `not_infix_fill`: With a special letter, something else matches too.
* `exists_like_ne`: Text between wildcards that is not plain.
-/

namespace SendingSystem

/-- The special letters of a pattern language. -/
structure Letters (α : Type) where
  sequence : α
  one : α
  escape : α
  escape_ne_sequence : escape ≠ sequence

namespace Like

variable {α : Type}

/-- What stands in a pattern. -/
inductive Token (α : Type) where
  | sequence
  | one
  | char (c : α)
  deriving DecidableEq

/-- The letter is special. -/
def Special (L : Letters α) (c : α) : Prop := c = L.sequence ∨ c = L.one ∨ c = L.escape

instance [DecidableEq α] (L : Letters α) (c : α) : Decidable (Special L c) :=
  inferInstanceAs (Decidable (_ ∨ _))

/-- The pieces of text a token stands for. -/
def Token.Covers : Token α → List α → Prop
  | .sequence, _ => True
  | .one, w => ∃ c, w = [c]
  | .char c, w => w = [c]

/-- A token with a wildcard replaced by a letter. -/
def fillToken (a : α) : Token α → α
  | .sequence => a
  | .one => a
  | .char c => c

/-- A text that matches: every wildcard stands for the letter `a`. -/
def fill (a : α) (t : List (Token α)) : List α := t.map (fillToken a)

/-- The pattern that has the text between two wildcards. -/
def surround (L : Letters α) (q : List α) : List α := L.sequence :: (q ++ [L.sequence])

theorem ne_escape_of_mem_surround {L : Letters α} {q : List α} (hq : L.escape ∉ q) :
    ∀ c ∈ surround L q, c ≠ L.escape := by
  intro c hc
  rw [surround, List.mem_cons, List.mem_append, List.mem_singleton] at hc
  rcases hc with rfl | hc | rfl
  · exact L.escape_ne_sequence.symm
  · exact fun h => hq (h ▸ hc)
  · exact L.escape_ne_sequence.symm

/-- A token is filled to `a`, or to the letter it stands for. -/
theorem fillToken_mem (a : α) {k : Token α} {w : List α} (hk : k.Covers w) :
    fillToken a k = a ∨ fillToken a k ∈ w := by
  cases k with
  | sequence => exact Or.inl rfl
  | one => exact Or.inl rfl
  | char c =>
      right
      rw [show w = [c] from hk]
      exact List.mem_singleton_self c

/-- Tokens side by side are filled to letters that may stand side by side. -/
theorem fillToken_rel {a : α} {R : α → α → Prop} (hleft : ∀ c, R c a) (hright : ∀ c, R a c)
    {k k' : Token α} {w w' s : List α} (hk : k.Covers w) (hk' : k'.Covers w')
    (hchain : (w ++ (w' ++ s)).IsChain R) : R (fillToken a k) (fillToken a k') := by
  -- Wildcards become `a`, which may stand beside anything.
  cases k with
  | sequence => exact hright _
  | one => exact hright _
  | char c =>
      cases k' with
      | sequence => exact hleft c
      | one => exact hleft c
      | char c' =>
          rw [show w = [c] from hk, show w' = [c'] from hk'] at hchain
          exact (List.isChain_cons_cons.mp hchain).1

/-- The filled text has a text's letters, and its neighbours, if the text matches. -/
theorem fill_covered {a : α} {R : α → α → Prop} (hleft : ∀ c, R c a) (hright : ∀ c, R a c)
    {t : List (Token α)} {pieces : List (List α)} (hcovers : List.Forall₂ Token.Covers t pieces)
    (hchain : pieces.flatten.IsChain R) :
    (fill a t).IsChain R ∧ ∀ c ∈ fill a t, c = a ∨ c ∈ pieces.flatten := by
  induction hcovers with
  | nil => exact ⟨List.IsChain.nil, fun c hc => absurd hc List.not_mem_nil⟩
  | @cons k w t rest hk hrest ih =>
      rw [List.flatten_cons] at hchain ⊢
      rcases ih (List.isChain_append.mp hchain).2.1 with ⟨hfill, hmem⟩
      rw [fill, List.map_cons, ← fill]
      refine ⟨List.isChain_cons.mpr ⟨fun d hd => ?_, hfill⟩, fun c hc => ?_⟩
      · cases hrest with
        | nil => cases hd
        | cons hk' _ =>
            rw [fill, List.map_cons, List.head?_cons, Option.mem_def, Option.some.injEq] at hd
            rw [List.flatten_cons] at hchain
            exact hd ▸ fillToken_rel hleft hright hk hk' hchain
      · rcases List.mem_cons.mp hc with rfl | hc
        · exact (fillToken_mem a hk).imp_right (List.mem_append_left rest.flatten)
        · exact (hmem c hc).imp_right (List.mem_append_right w)

variable [DecidableEq α]

/-- A letter without an escape in front of it. -/
def token (L : Letters α) (c : α) : Token α :=
  if c = L.sequence then .sequence else if c = L.one then .one else .char c

/-- The tokens of a pattern, nothing if it ends in its escape letter. -/
def tokens (L : Letters α) : List α → Option (List (Token α))
  | [] => some []
  | [c] => if c = L.escape then none else some [token L c]
  | c :: d :: p =>
    if c = L.escape then (tokens L p).map (fun t => .char d :: t)
    else (tokens L (d :: p)).map (fun t => token L c :: t)

/-- The text matches the tokens. -/
def matchText : List (Token α) → List α → Bool
  | [], s => s.isEmpty
  | .sequence :: t, s => s.tails.any (fun s' => matchText t s')
  | .one :: t, s =>
    match s with
    | [] => false
    | _ :: s => matchText t s
  | .char c :: t, s =>
    match s with
    | [] => false
    | d :: s => d = c && matchText t s

/-- `s LIKE p`. -/
def like (L : Letters α) (p s : List α) : Bool :=
  match tokens L p with
  | none => false
  | some t => matchText t s

/-- A text matches exactly if it can be cut into a piece for each token. -/
theorem matchText_iff : ∀ (t : List (Token α)) (s : List α),
    matchText t s = true ↔ ∃ pieces, List.Forall₂ Token.Covers t pieces ∧ pieces.flatten = s := by
  intro t
  induction t with
  | nil =>
      intro s
      rw [matchText, List.isEmpty_iff]
      constructor
      · rintro rfl
        exact ⟨[], List.Forall₂.nil, rfl⟩
      · rintro ⟨pieces, hcovers, rfl⟩
        rw [List.forall₂_nil_left_iff.mp hcovers, List.flatten_nil]
  | cons k t ih =>
      intro s
      -- The first piece, and a cut of what is left.
      have hcut : (∃ pieces, List.Forall₂ Token.Covers (k :: t) pieces ∧ pieces.flatten = s) ↔
          ∃ w s', k.Covers w ∧ w ++ s' = s ∧ matchText t s' = true := by
        constructor
        · rintro ⟨pieces, hcovers, rfl⟩
          rcases List.forall₂_cons_left_iff.mp hcovers with ⟨w, rest, hw, hrest, rfl⟩
          exact ⟨w, rest.flatten, hw, List.flatten_cons.symm, (ih _).mpr ⟨rest, hrest, rfl⟩⟩
        · rintro ⟨w, s', hw, rfl, hs'⟩
          rcases (ih s').mp hs' with ⟨rest, hrest, rfl⟩
          exact ⟨w :: rest, List.Forall₂.cons hw hrest, List.flatten_cons⟩
      rw [hcut]
      cases k with
      | sequence =>
          rw [matchText, List.any_eq_true]
          simp only [List.mem_tails, Token.Covers, true_and]
          constructor
          · rintro ⟨s', ⟨w, hw⟩, hs'⟩
            exact ⟨w, s', hw, hs'⟩
          · rintro ⟨w, s', hw, hs'⟩
            exact ⟨s', ⟨w, hw⟩, hs'⟩
      | one =>
          cases s with
          | nil =>
              refine iff_of_false Bool.false_ne_true ?_
              rintro ⟨_, s', ⟨c, rfl⟩, hs, _⟩
              cases hs
          | cons d s =>
              constructor
              · exact fun hs => ⟨[d], s, ⟨d, rfl⟩, rfl, hs⟩
              · rintro ⟨_, s', ⟨c, rfl⟩, hs, hs'⟩
                cases hs
                exact hs'
      | char c =>
          cases s with
          | nil =>
              refine iff_of_false Bool.false_ne_true ?_
              rintro ⟨_, s', rfl, hs, _⟩
              cases hs
          | cons d s =>
              rw [matchText, Bool.and_eq_true, decide_eq_true_eq]
              constructor
              · rintro ⟨rfl, hs⟩
                exact ⟨[d], s, rfl, rfl, hs⟩
              · rintro ⟨_, s', rfl, hs, hs'⟩
                cases hs
                exact ⟨rfl, hs'⟩

/-- Tokens match one after the other. -/
theorem matchText_append {t t' : List (Token α)} {s : List α} :
    matchText (t ++ t') s = true ↔
      ∃ u v, s = u ++ v ∧ matchText t u = true ∧ matchText t' v = true := by
  constructor
  · intro h
    rcases (matchText_iff _ _).mp h with ⟨pieces, hcovers, rfl⟩
    -- The pieces of the first tokens make one text, those of the others the rest.
    have htake := List.forall₂_take t.length hcovers
    have hdrop := List.forall₂_drop t.length hcovers
    rw [List.take_left] at htake
    rw [List.drop_left] at hdrop
    refine ⟨(pieces.take t.length).flatten, (pieces.drop t.length).flatten, ?_, ?_, ?_⟩
    · rw [← List.flatten_append, List.take_append_drop]
    · exact (matchText_iff _ _).mpr ⟨_, htake, rfl⟩
    · exact (matchText_iff _ _).mpr ⟨_, hdrop, rfl⟩
  · rintro ⟨u, v, rfl, hu, hv⟩
    rcases (matchText_iff _ _).mp hu with ⟨pieces, hcovers, rfl⟩
    rcases (matchText_iff _ _).mp hv with ⟨pieces', hcovers', rfl⟩
    exact (matchText_iff _ _).mpr
      ⟨pieces ++ pieces', List.rel_append hcovers hcovers', List.flatten_append⟩

/-- Letters match themselves only. -/
theorem matchText_chars {q s : List α} : matchText (q.map Token.char) s = true ↔ s = q := by
  rw [matchText_iff]
  constructor
  · rintro ⟨pieces, hcovers, rfl⟩
    rw [List.forall₂_map_left_iff] at hcovers
    induction hcovers with
    | nil => rfl
    | cons hw _ ih => rw [List.flatten_cons, ih, hw, List.singleton_append]
  · rintro rfl
    -- A text is cut into its letters.
    refine ⟨s.map (fun c => [c]), ?_, ?_⟩
    · rw [List.forall₂_map_left_iff, List.forall₂_map_right_iff]
      exact List.forall₂_same.mpr (fun c _ => rfl)
    · rw [← List.flatMap_def, List.flatMap_singleton']

/-- Any text matches the wildcard for sequences. -/
theorem matchText_sequence (s : List α) : matchText [Token.sequence] s = true :=
  (matchText_iff _ _).mpr ⟨[s], List.Forall₂.cons trivial List.Forall₂.nil, by
    rw [List.flatten_cons, List.flatten_nil, List.append_nil]⟩

theorem token_of_not_special {L : Letters α} {c : α} (h : ¬ Special L c) :
    token L c = .char c := by
  rw [Special, not_or] at h
  rw [token, if_neg h.1, if_neg (fun hone => h.2 (Or.inl hone))]

/-- Without the escape letter every letter is a token. -/
theorem tokens_of_noEscape {L : Letters α} : ∀ p : List α, (∀ c ∈ p, c ≠ L.escape) →
    tokens L p = some (p.map (token L)) := by
  intro p
  induction p with
  | nil => exact fun _ => rfl
  | cons c p ih =>
      intro h
      have hc := h c List.mem_cons_self
      have hp := ih (fun d hd => h d (List.mem_cons_of_mem c hd))
      cases p with
      | nil => rw [tokens, if_neg hc, List.map_singleton]
      | cons d p =>
          rw [tokens, if_neg hc, hp, Option.map_some]
          rfl

theorem tokens_surround {L : Letters α} {q : List α} (hq : L.escape ∉ q) :
    tokens L (surround L q) = some ((surround L q).map (token L)) :=
  tokens_of_noEscape _ (ne_escape_of_mem_surround hq)

/-- Plain text between wildcards matches what contains it. -/
theorem like_surround {L : Letters α} {q : List α} (hq : ∀ c ∈ q, ¬ Special L c) (s : List α) :
    like L (surround L q) s = true ↔ q <:+: s := by
  have htoken : token L L.sequence = .sequence := if_pos rfl
  have hchars : q.map (token L) = q.map Token.char :=
    List.map_congr_left (fun c hc => token_of_not_special (hq c hc))
  have htokens : tokens L (surround L q) = some ([.sequence] ++ (q.map .char ++ [.sequence])) := by
    have hescape : L.escape ∉ q := fun hmem => hq L.escape hmem (Or.inr (Or.inr rfl))
    rw [tokens_surround hescape, surround, List.map_cons, List.map_append, List.map_singleton,
      htoken, hchars, List.singleton_append]
  -- What is in front of the text and what is behind it is left to the wildcards.
  rw [like, htokens]
  simp only [matchText_append, matchText_chars, matchText_sequence]
  constructor
  · rintro ⟨u, _, rfl, -, v, w, rfl, rfl, -⟩
    exact ⟨u, w, List.append_assoc ..⟩
  · rintro ⟨u, w, rfl⟩
    exact ⟨u, q ++ w, List.append_assoc .., trivial, q, w, rfl, rfl, trivial⟩

/-- A pattern matches the text its tokens are filled to. -/
theorem like_fill {L : Letters α} {p : List α} {t : List (Token α)} (ht : tokens L p = some t)
    (a : α) : like L p (fill a t) = true := by
  rw [like, ht]
  refine (matchText_iff _ _).mpr ⟨t.map (fun k => [fillToken a k]), ?_, ?_⟩
  · rw [List.forall₂_map_right_iff]
    refine List.forall₂_same.mpr (fun k _ => ?_)
    cases k with
    | sequence => trivial
    | one => exact ⟨a, rfl⟩
    | char c => rfl
  · rw [fill, ← List.flatMap_def, List.map_eq_flatMap]

/-- A letter that is no escape is filled to one that is plain. -/
theorem not_special_fillToken {L : Letters α} {a c : α} (ha : ¬ Special L a) (hc : c ≠ L.escape) :
    ¬ Special L (fillToken a (token L c)) := by
  rw [token]
  split
  · exact ha
  · split
    · exact ha
    · rename_i hsequence hone
      rintro (h | h | h)
      · exact hsequence h
      · exact hone h
      · exact hc h

/-- An escape letter that is meant takes two in the pattern. -/
theorem count_fill {L : Letters α} {a : α} (ha : ¬ Special L a) : ∀ (p : List α)
    (t : List (Token α)), tokens L p = some t →
    2 * (fill a t).count L.escape ≤ p.count L.escape := by
  have hplain : ∀ c, c ≠ L.escape → fillToken a (token L c) ≠ L.escape :=
    fun c hc h => not_special_fillToken ha hc (Or.inr (Or.inr h))
  intro p
  induction p using tokens.induct L with
  | case1 =>
      intro t ht
      cases ht
      exact Nat.zero_le _
  | case2 =>
      intro t ht
      rw [tokens, if_pos rfl] at ht
      cases ht
  | case3 c hc =>
      intro t ht
      rw [tokens, if_neg hc] at ht
      cases ht
      rw [fill, List.map_singleton, List.count_singleton, if_neg (by simpa using hplain c hc)]
      exact Nat.zero_le _
  -- An escape and the letter behind it: at most one of the two is left.
  | case4 d p ih =>
      intro t ht
      rw [tokens, if_pos rfl, Option.map_eq_some_iff] at ht
      rcases ht with ⟨t, ht, rfl⟩
      have hrest := ih t ht
      rw [fill] at hrest
      rw [fill, List.map_cons, fillToken, List.count_cons, List.count_cons_self, List.count_cons]
      split
      · omega
      · omega
  | case5 c d p hc ih =>
      intro t ht
      rw [tokens, if_neg hc, Option.map_eq_some_iff] at ht
      rcases ht with ⟨t, ht, rfl⟩
      have hrest := ih t ht
      rw [fill] at hrest
      rw [fill, List.map_cons, List.count_cons_of_ne (hplain c hc), List.count_cons_of_ne hc]
      exact hrest

/-- Text that is not plain is not in what its pattern is filled to: an escape
    letter is lost, and if there is none, a wildcard. -/
theorem not_infix_fill {L : Letters α} {a : α} (ha : ¬ Special L a) {q : List α}
    (hq : ∃ c ∈ q, Special L c) {t : List (Token α)} (ht : tokens L (surround L q) = some t) :
    ¬ q <:+: fill a t := by
  intro hinfix
  by_cases hescape : L.escape ∈ q
  -- The wildcards around the text are no escape letters, so half of them are gone.
  · have hle := count_fill ha _ t ht
    have hcount := hinfix.sublist.count_le L.escape
    have hpos := List.count_pos_iff.mpr hescape
    have hsame : (surround L q).count L.escape = q.count L.escape := by
      rw [surround, List.count_cons_of_ne L.escape_ne_sequence.symm, List.count_append,
        List.count_cons_of_ne L.escape_ne_sequence.symm, List.count_nil, Nat.add_zero]
    omega
  · rcases hq with ⟨c, hc, hspecial⟩
    -- Letter by letter, every special one has become `a`.
    have hsurround := tokens_surround (L := L) hescape
    rw [ht, Option.some.injEq] at hsurround
    have hmem := hinfix.subset hc
    rw [hsurround, fill, List.map_map, List.mem_map] at hmem
    rcases hmem with ⟨d, hd, rfl⟩
    exact not_special_fillToken ha (ne_escape_of_mem_surround hescape d hd) hspecial

/-- Between wildcards, text that is not plain either fails to match itself or matches
    a text that does not contain it. This one is no further from the text than a
    letter `a` here and there. -/
theorem exists_like_ne {L : Letters α} {a : α} (ha : ¬ Special L a) {R : α → α → Prop}
    (hleft : ∀ c, R c a) (hright : ∀ c, R a c) {q : List α} (hchain : q.IsChain R)
    (hq : ∃ c ∈ q, Special L c) : ∃ s, s.IsChain R ∧ (∀ c ∈ s, c = a ∨ c ∈ q) ∧
      ¬ (like L (surround L q) s = true ↔ q <:+: s) := by
  by_cases hself : like L (surround L q) q = true
  · rcases ht : tokens L (surround L q) with _ | t
    · rw [like, ht] at hself
      cases hself
    have hmatch := hself
    rw [like, ht] at hmatch
    -- The text itself is cut into pieces, so it tells what stands side by side.
    rcases (matchText_iff _ _).mp hmatch with ⟨pieces, hcovers, rfl⟩
    rcases fill_covered hleft hright hcovers hchain with ⟨hfill, hmem⟩
    exact ⟨fill a t, hfill, hmem, fun h => not_infix_fill ha hq ht (h.mp (like_fill ht a))⟩
  · exact ⟨q, hchain, fun c hc => Or.inr hc, fun h => hself (h.mpr List.infix_rfl)⟩

end Like

end SendingSystem
