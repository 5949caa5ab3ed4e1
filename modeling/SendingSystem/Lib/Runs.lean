import Mathlib.Data.List.Basic
import Mathlib.Data.List.Infix
import Mathlib.Tactic.Basic

/-!
# Rewriting the runs of a letter

Text filters that squeeze repeated characters all have the same shape: every
maximal run of one letter `x` is replaced by something that depends only on how
long the run is, and everything else stays. `mapRuns x f` is that filter, with
`f n` the replacement for a run of length `n`.

Two filters are studied. `halved` replaces pairs, so a run of `n` leaves `n / 2`
copies of the replacement and the odd letter; it is what repeatedly rewriting
the leftmost pair comes to (`mapRuns_halved_pair` is the single rewrite).
`merged` replaces a whole run of two or more by one letter, as a regular
expression with a greedy bound does. Neither leaves a pair behind, and they
agree exactly on the texts without three letters in a row
(`merged_eq_halved_iff`).

The recursion counts the run it is inside of, so `mapRunsFrom n` filters the
text that follows `n` letters already seen. Every lemma is an induction on the
text with that count generalised.

What the filter is for is said without counting: a text is the run in front and
then every other letter with the run behind it, in exactly one way, and the
filter replaces the runs (`mapRuns_eq`).

## Main definitions

* `mapRuns`: Replace every maximal run of a letter.
* `halved`: A run with its pairs replaced.
* `merged`: A run of two or more replaced as a whole.
* `Segments`, `segments`: A text cut at the other letters.

## Theorems

* `infix_break`: A pattern without `a` lies on one side of an `a`.
* `mapRuns_break`: The filter works separately on both sides of another letter.
* `mapRuns_of_noPair`: Texts without a pair are left alone.
* `trimHead_head?`: What removing one letter in front leaves.
* `noPair_mapRuns`: A filter whose replacements have no pair leaves none.
* `mapRuns_halved_pair`: Rewriting one pair does not change the result.
* `length_merged_lt`: The two filters differ in length on a run of three.
* `merged_eq_halved_iff`: The two filters agree off runs of three.
* `text_segments`, `segments_text`: There is one way to cut a text.
* `mapRuns_eq`: The filter replaces the runs.
-/

namespace SendingSystem

namespace Runs

variable {α : Type}

/-- A run of `n` letters with each pair replaced by `y`. -/
def halved (x y : α) (n : Nat) : List α := List.replicate (n / 2) y ++ List.replicate (n % 2) x

/-- A run of `n` letters replaced by one `y` when there are two or more. -/
def merged (x y : α) (n : Nat) : List α := if 2 ≤ n then [y] else List.replicate n x

/-- A pattern that does not contain `a` cannot straddle one. -/
theorem infix_break {p u v : List α} {a : α} (ha : a ∉ p) :
    p <:+: u ++ a :: v ↔ p <:+: u ∨ p <:+: v := by
  constructor
  · intro h
    rcases List.infix_append_iff_ne_nil.mp h with hu | hv | ⟨l₁, l₂, _, h₂, hp, _, hpre⟩
    · exact Or.inl hu
    · rcases List.infix_cons_iff.mp hv with hpre | hv
      · rcases p with _ | ⟨b, p⟩
        · exact Or.inl List.nil_infix
        · rw [List.cons_prefix_cons] at hpre
          exact absurd (hpre.1 ▸ List.mem_cons_self) ha
      · exact Or.inr hv
    -- The part on the right would start with `a`.
    · rcases l₂ with _ | ⟨b, l₂⟩
      · exact absurd rfl h₂
      · rw [List.cons_prefix_cons] at hpre
        refine absurd ?_ ha
        rw [hp, ← hpre.1]
        exact List.mem_append_right _ List.mem_cons_self
  · rintro (hu | hv)
    · exact List.infix_append_of_infix_left hu
    · exact List.infix_append_of_infix_right (List.infix_cons hv)

theorem not_mem_pair {x a : α} (ha : a ≠ x) : a ∉ [x, x] := by
  simp only [List.mem_cons, List.not_mem_nil, or_false, or_self]
  exact ha

theorem halved_noPair (x y : α) (hyx : y ≠ x) (n : Nat) : ¬ [x, x] <:+: halved x y n := by
  rw [halved]
  -- Induction on the replacements in front of the odd letter.
  induction n / 2 with
  | zero =>
      intro h
      have := h.length_le
      simp only [List.replicate_zero, List.nil_append, List.length_cons, List.length_nil,
        List.length_replicate] at this
      omega
  | succ k ih =>
      rw [List.replicate_succ, List.cons_append]
      intro h
      rcases List.infix_cons_iff.mp h with hpre | hin
      · rw [List.cons_prefix_cons] at hpre
        exact hyx hpre.1.symm
      · exact ih hin

theorem merged_noPair (x y : α) (n : Nat) : ¬ [x, x] <:+: merged x y n := by
  intro h
  have hlen := h.length_le
  -- A replacement is too short to hold a pair.
  have hle : (merged x y n).length ≤ 1 := by
    rw [merged]
    split
    · exact Nat.le_refl 1
    · rw [List.length_replicate]
      omega
  simp only [List.length_cons, List.length_nil] at hlen
  omega

/-- The letters of a replacement are the two the filter names. -/
theorem mem_merged {x y a : α} {n : Nat} (h : a ∈ merged x y n) : a = x ∨ a = y := by
  rw [merged] at h
  split at h
  · exact Or.inr (List.mem_singleton.mp h)
  · exact Or.inl (List.eq_of_mem_replicate h)

theorem mem_halved {x y a : α} {n : Nat} (h : a ∈ halved x y n) : a = x ∨ a = y := by
  rcases List.mem_append.mp h with h | h
  · exact Or.inr (List.eq_of_mem_replicate h)
  · exact Or.inl (List.eq_of_mem_replicate h)

theorem length_halved (x y : α) (n : Nat) : (halved x y n).length = n / 2 + n % 2 := by
  rw [halved, List.length_append, List.length_replicate, List.length_replicate]

theorem length_merged (x y : α) (n : Nat) : (merged x y n).length = if 2 ≤ n then 1 else n := by
  rw [merged]
  split
  · rfl
  · exact List.length_replicate

/-- Runs shorter than three are treated alike. -/
theorem merged_eq_halved {x y : α} {n : Nat} (h : n < 3) : merged x y n = halved x y n := by
  rcases n with _ | _ | _ | n
  · rfl
  · rfl
  · rfl
  · omega

section Filter

variable [DecidableEq α]

theorem trimHead_suffix (x : α) (l : List α) : (if l.head? = some x then l.tail else l) <:+ l := by
  split
  · exact List.tail_suffix l
  · exact List.suffix_refl l

/-- Without a pair, removing a letter in front uncovers no other. -/
theorem trimHead_head? {x : α} {l : List α} (h : ¬ [x, x] <:+: l) :
    (if l.head? = some x then l.tail else l).head? ≠ some x := by
  split
  · next hhead =>
      rcases l with _ | ⟨a, _ | ⟨b, l⟩⟩
      · simp only [List.head?_nil, reduceCtorEq] at hhead
      · simp only [List.tail_cons, List.head?_nil, ne_eq, reduceCtorEq, not_false_eq_true]
      -- Two letters in front would have been a pair.
      · intro hb
        simp only [List.tail_cons, List.head?_cons, Option.some.injEq] at hhead hb
        exact h ⟨[], l, by rw [hhead, hb]; rfl⟩
  · assumption

/-- Filter a text that follows `n` letters `x`, replacing each maximal run of
    them, the one in progress included. -/
def mapRunsFrom (x : α) (f : Nat → List α) : Nat → List α → List α
  | n, [] => f n
  | n, a :: l => if a = x then mapRunsFrom x f (n + 1) l else f n ++ a :: mapRunsFrom x f 0 l

/-- Replace each maximal run of `n` letters `x` by `f n`. -/
def mapRuns (x : α) (f : Nat → List α) (l : List α) : List α := mapRunsFrom x f 0 l

/-- Another letter separates the filter's work into two. -/
theorem mapRunsFrom_break (x : α) (f : Nat → List α) (a : α) (ha : a ≠ x) (r : List α) :
    ∀ (l : List α) (n : Nat),
      mapRunsFrom x f n (l ++ a :: r) = mapRunsFrom x f n l ++ a :: mapRuns x f r := by
  intro l
  induction l with
  | nil =>
      intro n
      simp only [List.nil_append, mapRunsFrom, if_neg ha, mapRuns]
  | cons b l ih =>
      intro n
      simp only [List.cons_append, mapRunsFrom]
      -- The count of the run that is open goes on until the first other element.
      by_cases hb : b = x
      · rw [if_pos hb, if_pos hb, ih]
      · rw [if_neg hb, if_neg hb, ih, List.append_assoc, List.cons_append]

theorem mapRuns_break (x : α) (f : Nat → List α) (a : α) (ha : a ≠ x) (l r : List α) :
    mapRuns x f (l ++ a :: r) = mapRuns x f l ++ a :: mapRuns x f r :=
  mapRunsFrom_break x f a ha r l 0

/-- With single letters kept, a text without a pair is left alone. The
    induction carries the two counts such a text can be entered with. -/
theorem mapRunsFrom_of_noPair (x : α) (f : Nat → List α) (h0 : f 0 = []) (h1 : f 1 = [x]) :
    ∀ l : List α, (¬ [x, x] <:+: l → mapRunsFrom x f 0 l = l) ∧
      (¬ [x, x] <:+: x :: l → mapRunsFrom x f 1 l = x :: l) := by
  intro l
  induction l with
  | nil => exact ⟨fun _ => h0, fun _ => h1⟩
  | cons a l ih =>
      constructor
      · intro hpair
        simp only [mapRunsFrom]
        by_cases ha : a = x
        · rw [if_pos ha, ha]
          exact ih.2 (ha ▸ hpair)
        · rw [if_neg ha, h0, List.nil_append, ih.1 (fun h => hpair (List.infix_cons h))]
      · intro hpair
        -- One letter is in progress, so a second one would make a pair.
        have ha : a ≠ x := by
          rintro rfl
          exact hpair ⟨[], l, rfl⟩
        simp only [mapRunsFrom]
        rw [if_neg ha, h1, ih.1 (fun h => hpair (List.infix_cons (List.infix_cons h)))]
        rfl

theorem mapRuns_of_noPair (x : α) (f : Nat → List α) (h0 : f 0 = []) (h1 : f 1 = [x])
    (l : List α) (h : ¬ [x, x] <:+: l) : mapRuns x f l = l :=
  (mapRunsFrom_of_noPair x f h0 h1 l).1 h

/-- Replacements without a pair leave a text without a pair. -/
theorem noPair_mapRunsFrom (x : α) (f : Nat → List α) (hf : ∀ n, ¬ [x, x] <:+: f n) :
    ∀ (l : List α) (n : Nat), ¬ [x, x] <:+: mapRunsFrom x f n l := by
  intro l
  induction l with
  | nil => exact hf
  | cons a l ih =>
      intro n
      simp only [mapRunsFrom]
      by_cases ha : a = x
      · rw [if_pos ha]
        exact ih (n + 1)
      -- A run that has ended is cut off by an element that is in no pair.
      · rw [if_neg ha, infix_break (not_mem_pair ha)]
        rintro (h | h)
        · exact hf n h
        · exact ih 0 h

theorem noPair_mapRuns (x : α) (f : Nat → List α) (hf : ∀ n, ¬ [x, x] <:+: f n) (l : List α) :
    ¬ [x, x] <:+: mapRuns x f l := noPair_mapRunsFrom x f hf l 0

/-- A property of letters that the text and the replacements have. -/
theorem forall_mem_mapRunsFrom (x : α) (f : Nat → List α) (P : α → Prop)
    (hf : ∀ n, ∀ a ∈ f n, P a) :
    ∀ (l : List α) (n : Nat), (∀ a ∈ l, P a) → ∀ a ∈ mapRunsFrom x f n l, P a := by
  intro l
  induction l with
  | nil => exact fun n _ => hf n
  | cons b l ih =>
      intro n hl
      have hrest : ∀ a ∈ l, P a := fun a ha => hl a (List.mem_cons_of_mem b ha)
      simp only [mapRunsFrom]
      by_cases hb : b = x
      · rw [if_pos hb]
        exact ih (n + 1) hrest
      · rw [if_neg hb]
        intro a ha
        rcases List.mem_append.mp ha with ha | ha
        · exact hf n a ha
        · rcases List.mem_cons.mp ha with rfl | ha
          · exact hl a List.mem_cons_self
          · exact ih 0 hrest a ha

/-- Replacements no longer than their run leave a text no longer than before. -/
theorem length_mapRunsFrom_le (x : α) (f : Nat → List α) (hf : ∀ n, (f n).length ≤ n) :
    ∀ (l : List α) (n : Nat), (mapRunsFrom x f n l).length ≤ n + l.length := by
  -- The elements counted in the run that is open are charged to it.
  intro l
  induction l with
  | nil => exact hf
  | cons a l ih =>
      intro n
      simp only [mapRunsFrom, List.length_cons]
      by_cases ha : a = x
      · rw [if_pos ha]
        have := ih (n + 1)
        omega
      · rw [if_neg ha, List.length_append, List.length_cons]
        have := hf n
        have := ih 0
        omega

theorem length_mapRuns_le (x : α) (f : Nat → List α) (hf : ∀ n, (f n).length ≤ n) (l : List α) :
    (mapRuns x f l).length ≤ l.length := by
  have := length_mapRunsFrom_le x f hf l 0
  rw [Nat.zero_add] at this
  exact this

/-- Two more letters of the run in progress are one more replacement. -/
theorem mapRunsFrom_halved_add_two (x y : α) :
    ∀ (l : List α) (n : Nat),
      mapRunsFrom x (halved x y) (n + 2) l = y :: mapRunsFrom x (halved x y) n l := by
  have hstep : ∀ n, halved x y (n + 2) = y :: halved x y n := by
    intro n
    rw [halved, halved, show (n + 2) / 2 = n / 2 + 1 by omega, Nat.add_mod_right,
      List.replicate_succ, List.cons_append]
  -- Two more elements are one more `y` in front, whenever the run ends.
  intro l
  induction l with
  | nil => exact hstep
  | cons a l ih =>
      intro n
      simp only [mapRunsFrom]
      by_cases ha : a = x
      · rw [if_pos ha, if_pos ha, show n + 2 + 1 = n + 1 + 2 by omega, ih]
      · rw [if_neg ha, if_neg ha, hstep, List.cons_append]

/-- Rewriting a pair that starts its run does not change the filtered text. -/
theorem mapRuns_halved_pair (x y : α) (hyx : y ≠ x) (pre post : List α)
    (hpre : pre.getLast? ≠ some x) :
    mapRuns x (halved x y) (pre ++ x :: x :: post) = mapRuns x (halved x y) (pre ++ y :: post) := by
  -- With nothing in front, the pair is the run in progress.
  have hkey : mapRuns x (halved x y) (x :: x :: post) = mapRuns x (halved x y) (y :: post) := by
    simp only [mapRuns, mapRunsFrom, if_pos, if_neg hyx, Nat.zero_add]
    rw [mapRunsFrom_halved_add_two x y post 0]
    rfl
  rcases List.eq_nil_or_concat pre with rfl | ⟨p, a, rfl⟩
  · exact hkey
  -- The letter before the pair is another one, so the work splits there.
  · rw [List.concat_eq_append] at hpre ⊢
    have ha : a ≠ x := by
      rintro rfl
      exact hpre List.getLast?_concat
    rw [List.append_assoc, List.append_assoc, List.singleton_append, List.singleton_append,
      mapRuns_break x _ a ha, mapRuns_break x _ a ha, hkey]

/-- A run of three somewhere, the `n` letters in progress included, makes the
    merged text the shorter one; without one the two texts are equal. -/
theorem merged_halved_cases (x y : α) : ∀ (l : List α) (n : Nat),
    ([x, x, x] <:+: List.replicate n x ++ l →
      (mapRunsFrom x (merged x y) n l).length < (mapRunsFrom x (halved x y) n l).length) ∧
    (¬ [x, x, x] <:+: List.replicate n x ++ l →
      mapRunsFrom x (merged x y) n l = mapRunsFrom x (halved x y) n l) := by
  -- What the run in progress contributes, by its length alone.
  have htriple : ∀ n, [x, x, x] <:+: List.replicate n x ↔ 3 ≤ n := by
    intro n
    rw [show [x, x, x] = List.replicate 3 x from rfl, List.infix_replicate_iff,
      List.length_replicate]
    exact ⟨fun h => h.1, fun h => ⟨h, rfl⟩⟩
  have hlen : ∀ n, (merged x y n).length ≤ (halved x y n).length ∧
      (3 ≤ n → (merged x y n).length < (halved x y n).length) := by
    intro n
    rw [length_merged, length_halved]
    split <;> omega
  intro l
  induction l with
  | nil =>
      intro n
      rw [List.append_nil, htriple]
      exact ⟨(hlen n).2, fun h => merged_eq_halved (by omega)⟩
  | cons a l ih =>
      intro n
      simp only [mapRunsFrom]
      by_cases ha : a = x
      · rw [if_pos ha, if_pos ha, ha, List.append_cons, ← List.replicate_succ']
        exact ih (n + 1)
      · rw [if_neg ha, if_neg ha]
        have hout : a ∉ [x, x, x] := by
          simp only [List.mem_cons, List.not_mem_nil, or_false, or_self]
          exact ha
        rw [infix_break hout, htriple, List.length_append, List.length_append, List.length_cons,
          List.length_cons]
        have hrest := ih 0
        rw [List.replicate_zero, List.nil_append] at hrest
        have hn := hlen n
        constructor
        -- The longer part is strictly longer, the other at least as long.
        · rintro (h3 | hin)
          · have := hn.2 h3
            by_cases hin : [x, x, x] <:+: l
            · have := hrest.1 hin
              omega
            · rw [hrest.2 hin]
              omega
          · have := hrest.1 hin
            omega
        · intro hno
          rw [not_or] at hno
          rw [hrest.2 hno.2, merged_eq_halved (by omega)]

/-- A run of three makes the merged text strictly shorter. -/
theorem length_merged_lt (x y : α) (l : List α) (h : [x, x, x] <:+: l) :
    (mapRuns x (merged x y) l).length < (mapRuns x (halved x y) l).length :=
  (merged_halved_cases x y l 0).1 h

/-- The two filters agree exactly off runs of three. -/
theorem merged_eq_halved_iff (x y : α) (l : List α) :
    mapRuns x (merged x y) l = mapRuns x (halved x y) l ↔ ¬ [x, x, x] <:+: l := by
  constructor
  · intro heq h
    have := length_merged_lt x y l h
    rw [heq] at this
    omega
  · exact (merged_halved_cases x y l 0).2

/-- Where there is a pair, the `n` letters in progress included, the merged text
    has the replacement. -/
theorem mem_mapRunsFrom_merged (x y : α) :
    ∀ (l : List α) (n : Nat), [x, x] <:+: List.replicate n x ++ l →
      y ∈ mapRunsFrom x (merged x y) n l := by
  have hpair : ∀ n, [x, x] <:+: List.replicate n x → merged x y n = [y] := by
    intro n h
    have hlen := h.length_le
    rw [List.length_replicate] at hlen
    exact if_pos hlen
  intro l
  induction l with
  | nil =>
      intro n h
      rw [List.append_nil] at h
      rw [mapRunsFrom, hpair n h]
      exact List.mem_singleton_self y
  | cons a l ih =>
      intro n h
      simp only [mapRunsFrom]
      by_cases ha : a = x
      · rw [if_pos ha]
        -- The element joins the run that is open, which is still in front of the rest.
        refine ih (n + 1) ?_
        rw [List.replicate_succ', List.append_assoc, List.singleton_append, ← ha]
        exact ha ▸ h
      -- The run ends here: the pair is in it, or in what follows.
      · rw [if_neg ha, List.mem_append]
        rcases (infix_break (not_mem_pair ha)).mp h with hin | hin
        · left
          rw [hpair n hin]
          exact List.mem_singleton_self y
        · exact Or.inr (List.mem_cons_of_mem a (ih 0 hin))

/-- Filtering commutes with a renaming of the letters that keeps them apart. -/
theorem mapRunsFrom_map {β : Type} [DecidableEq β] {e : α → β} (he : Function.Injective e) (x : α)
    (f : Nat → List α) (g : Nat → List β) (hfg : ∀ n, g n = (f n).map e) :
    ∀ (l : List α) (n : Nat),
      mapRunsFrom (e x) g n (l.map e) = (mapRunsFrom x f n l).map e := by
  intro l
  induction l with
  | nil => exact hfg
  | cons a l ih =>
      intro n
      simp only [List.map_cons, mapRunsFrom]
      by_cases ha : a = x
      · rw [if_pos (congrArg e ha), if_pos ha, ih]
      · rw [if_neg (fun h => ha (he h)), if_neg ha, hfg, ih, List.map_append, List.map_cons]

theorem mapRuns_merged_map {β : Type} [DecidableEq β] {e : α → β} (he : Function.Injective e)
    (x y : α) (l : List α) :
    mapRuns (e x) (merged (e x) (e y)) (l.map e) = (mapRuns x (merged x y) l).map e := by
  refine mapRunsFrom_map he x (merged x y) _ (fun n => ?_) l 0
  rw [merged, merged]
  split
  · rfl
  · rw [List.map_replicate]

/-- The filtered text starts like the replacement of its first run: filters that
    agree on where a replacement starts agree on where the text starts. -/
theorem head?_mapRunsFrom (x : α) (f g : Nat → List α)
    (hfg : ∀ n, (f n).head? = (g n).head?) :
    ∀ (l : List α) (n : Nat),
      (mapRunsFrom x f n l).head? = (mapRunsFrom x g n l).head? := by
  intro l
  induction l with
  | nil => exact hfg
  | cons a l ih =>
      intro n
      simp only [mapRunsFrom]
      by_cases ha : a = x
      · rw [if_pos ha, if_pos ha]
        exact ih (n + 1)
      · rw [if_neg ha, if_neg ha, List.head?_append, List.head?_append, hfg n]
        rfl

theorem head?_merged_halved (x y : α) (l : List α) :
    (mapRuns x (merged x y) l).head? = (mapRuns x (halved x y) l).head? := by
  refine head?_mapRunsFrom x _ _ (fun n => ?_) l 0
  rcases n with _ | _ | n
  · rfl
  · rfl
  -- From two letters on, both replacements start with `y`.
  · rw [merged, if_pos (by omega), halved, show (n + 2) / 2 = n / 2 + 1 by omega,
      List.replicate_succ]
    rfl

/-- A text cut at the letters that are not `x`: the length of the run in front, and
    each of these letters with the length of the run behind it. -/
structure Segments (x : α) where
  first : Nat
  rest : List ({a : α // a ≠ x} × Nat)

namespace Segments

variable {x : α}

/-- The text with its runs replaced. -/
def rewritten (f : Nat → List α) (c : Segments x) : List α :=
  f c.first ++ c.rest.flatMap (fun p => p.1.val :: f p.2)

/-- The text that is cut so. -/
def text (c : Segments x) : List α := c.rewritten (fun n => List.replicate n x)

end Segments

/-- Cut a text. -/
def segments (x : α) : List α → Segments x
  | [] => ⟨0, []⟩
  | a :: l =>
    if h : a = x then ⟨(segments x l).first + 1, (segments x l).rest⟩
    else ⟨0, (⟨a, h⟩, (segments x l).first) :: (segments x l).rest⟩

/-- The filter replaces every run and keeps every other letter. -/
theorem mapRunsFrom_eq (x : α) (f : Nat → List α) : ∀ (l : List α) (n : Nat),
    mapRunsFrom x f n l
      = Segments.rewritten f ⟨n + (segments x l).first, (segments x l).rest⟩ := by
  intro l
  induction l with
  | nil => exact fun n => (List.append_nil (f n)).symm
  | cons a l ih =>
      intro n
      rw [mapRunsFrom, segments]
      by_cases ha : a = x
      · rw [if_pos ha, dif_pos ha, ih (n + 1), Nat.add_assoc, Nat.add_comm 1]
      · rw [if_neg ha, dif_neg ha, ih 0, Nat.zero_add, Nat.add_zero]
        rfl

theorem mapRuns_eq (x : α) (f : Nat → List α) (l : List α) :
    mapRuns x f l = (segments x l).rewritten f := by
  rw [mapRuns, mapRunsFrom_eq, Nat.zero_add]

/-- The segments make up the text again. -/
theorem text_segments (x : α) (l : List α) : (segments x l).text = l := by
  induction l with
  | nil => rfl
  | cons a l ih =>
      rw [segments]
      by_cases ha : a = x
      · rw [dif_pos ha, ha]
        exact congrArg (List.cons x) ih
      · rw [dif_neg ha]
        exact congrArg (List.cons a) ih

/-- A run in front is counted. -/
theorem segments_replicate (x : α) (l : List α) (n : Nat) :
    segments x (List.replicate n x ++ l)
      = ⟨n + (segments x l).first, (segments x l).rest⟩ := by
  induction n with
  | zero =>
      rw [List.replicate_zero, List.nil_append, Nat.zero_add]
  | succ n ih =>
      rw [List.replicate_succ, List.cons_append, segments, dif_pos rfl, ih, Nat.add_right_comm]

/-- There is no other way to cut it. -/
theorem segments_text {x : α} (c : Segments x) : segments x c.text = c := by
  rcases c with ⟨n, rest⟩
  rw [Segments.text, Segments.rewritten, segments_replicate]
  simp only
  -- Over the other letters, each of which ends a run.
  induction rest generalizing n with
  | nil => rfl
  | cons p rest ih =>
      rw [List.flatMap_cons, List.cons_append, segments, dif_neg p.1.property,
        segments_replicate]
      have hrest := ih p.2
      simp only [Segments.mk.injEq] at hrest ⊢
      rw [hrest.1, hrest.2]
      exact ⟨rfl, rfl⟩

end Filter

end Runs

end SendingSystem
