import Mathlib

/-!
# Programs over a heap

What a program does that allocates, reads, writes and frees blocks, and what can be
said of it. A step that C leaves undefined, such as reading a block that is not in use
or freeing it a second time, is a program that ends without a result. Where a block is
put is up to a placement, which knows nothing but that the place is free; whether there
is memory for it is up to the program.

Assertions are about the blocks a program may touch. They are multiplied by splitting
the heap: `P * Q` holds of two disjoint parts, and `1` of no block at all, which makes
them a commutative quantale. `Triple P c Q` says that the program runs wherever `P`
holds of a part of the heap, leaves `Q` of that part, and does not touch the rest.

## Main definitions

* `Heap`, `Placement`: The blocks in use, and where a new one goes.
* `Prog`: A program; it may end without a result.
* `malloc`, `load`, `store`, `realloc`, `free`: The calls.
* `Assertion`, `fact`, `owns`: What can be said of a part of the heap.
* `Triple`: What can be said of a program.

## Theorems

* `Triple.frame`, `Triple.bind`, `Triple.weaken`: The rules of composition.
* `Triple.at_fact`, `Triple.at_iSup`: What an assertion states can be used.
* `triple_malloc`, `triple_load`, `triple_store`, `triple_realloc`, `triple_free`: The
  rules of the calls.
* `Triple.run_clean`: A program that owns nothing before and after leaves every heap as
  it is.
-/

namespace SendingSystem

namespace Heaps

/-- The address of a block. -/
abbrev Addr : Type := Nat

/-- What the blocks in use hold. -/
abbrev Heap (V : Type) : Type := Finmap (fun _ : Addr => V)

/-- Where the next block is put: not over a block in use. -/
structure Placement (V : Type) where
  place : Heap V → Addr
  fresh : ∀ h, place h ∉ h

/-- There is such a placement: behind all blocks in use. -/
def Placement.last (V : Type) : Placement V where
  place h := h.keys.sup id + 1
  fresh h hmem := by
    have hle : h.keys.sup id + 1 ≤ h.keys.sup id :=
      Finset.le_sup (f := id) (Finmap.mem_keys.mpr hmem)
    exact Nat.not_succ_le_self _ hle

/-- A program; without a result where its behaviour is undefined. -/
abbrev Prog (V : Type) : Type → Type := StateT (Heap V) Option

section Calls

variable {V α : Type}

/-- A value that may be missing. -/
def ofOption (x : Option α) : Prog V α := fun h => x.map (fun a => (a, h))

/-- `malloc`, and what the new block then holds. -/
def malloc (placement : Placement V) (fails : Bool) (v : V) : Prog V (Option Addr) := fun h =>
  if fails then some (none, h)
  else some (some (placement.place h), h.insert (placement.place h) v)

/-- What a pointer points to. -/
def load (p : Option Addr) : Prog V V := fun h =>
  (p.bind (fun a => h.lookup a)).map (fun v => (v, h))

/-- Writing where a pointer points to. -/
def store (p : Option Addr) (v : V) : Prog V Unit := fun h =>
  p.bind (fun a => if a ∈ h then some ((), h.insert a v) else none)

/-- `free`. -/
def free (p : Option Addr) : Prog V Unit := fun h =>
  match p with
  | none => some ((), h)
  | some a => if a ∈ h then some ((), h.erase a) else none

/-- `realloc`, and what the block then holds. It may stay where it is. -/
def realloc (placement : Placement V) (fails : Bool) (p : Option Addr) (v : V) :
    Prog V (Option Addr) :=
  match p with
  | none => malloc placement fails v
  | some a => fun h =>
    if a ∈ h then if fails then some (none, h) else malloc placement false v (h.erase a)
    else none

end Calls

/-- What is said of a part of a heap. -/
def Assertion (V : Type) : Type := Heap V → Prop

namespace Assertion

variable {V : Type} {ι : Sort*} {P Q R : Assertion V} {h : Heap V}

/-- What is said holds of the heap. -/
def Holds (P : Assertion V) (h : Heap V) : Prop := P h

/-- That this holds of the heap. -/
def that (p : Heap V → Prop) : Assertion V := p

instance : CompleteLattice (Assertion V) := inferInstanceAs (CompleteLattice (Heap V → Prop))

/-- There is no block. -/
instance : One (Assertion V) := ⟨that fun h => h = ∅⟩

/-- Each holds of its part. -/
instance : Mul (Assertion V) :=
  ⟨fun P Q => that fun h => ∃ h₁ h₂, P.Holds h₁ ∧ Q.Holds h₂ ∧ h₁.Disjoint h₂ ∧ h = h₁ ∪ h₂⟩

theorem that_iff {p : Heap V → Prop} : (that p).Holds h ↔ p h := Iff.rfl

@[ext] theorem ext (hPQ : ∀ h, P.Holds h ↔ Q.Holds h) : P = Q :=
  funext fun h => propext (hPQ h)

theorem Holds.mono (h' : P.Holds h) (hPQ : P ≤ Q) : Q.Holds h := hPQ h h'

theorem mul_iff : (P * Q).Holds h ↔
    ∃ h₁ h₂, P.Holds h₁ ∧ Q.Holds h₂ ∧ h₁.Disjoint h₂ ∧ h = h₁ ∪ h₂ := Iff.rfl

theorem iSup_iff {P : ι → Assertion V} : (⨆ i, P i).Holds h ↔ ∃ i, (P i).Holds h := by
  have hpoint : (⨆ i, P i).Holds h = ⨆ i, (P i).Holds h := iSup_apply
  rw [hpoint, iSup_Prop_eq]

theorem sSup_iff {s : Set (Assertion V)} : (sSup s).Holds h ↔ ∃ P ∈ s, P.Holds h := by
  rw [sSup_eq_iSup, iSup_iff]
  exact exists_congr fun P => iSup_iff.trans exists_prop

theorem mul_comm' (P Q : Assertion V) : P * Q = Q * P := by
  ext h
  constructor
  · rintro ⟨h₁, h₂, h₁P, h₂Q, hdisjoint, rfl⟩
    exact ⟨h₂, h₁, h₂Q, h₁P, hdisjoint.symm, Finmap.union_comm_of_disjoint hdisjoint⟩
  · rintro ⟨h₁, h₂, h₁Q, h₂P, hdisjoint, rfl⟩
    exact ⟨h₂, h₁, h₂P, h₁Q, hdisjoint.symm, Finmap.union_comm_of_disjoint hdisjoint⟩

theorem mul_assoc' (P Q R : Assertion V) : P * Q * R = P * (Q * R) := by
  ext h
  constructor
  · rintro ⟨_, h₃, ⟨h₁, h₂, h₁P, h₂Q, h₁₂, rfl⟩, h₃R, h₁₂₃, rfl⟩
    rcases (Finmap.disjoint_union_left _ _ _).mp h₁₂₃ with ⟨h₁₃, h₂₃⟩
    exact ⟨h₁, h₂ ∪ h₃, h₁P, ⟨h₂, h₃, h₂Q, h₃R, h₂₃, rfl⟩,
      (Finmap.disjoint_union_right _ _ _).mpr ⟨h₁₂, h₁₃⟩, Finmap.union_assoc⟩
  · rintro ⟨h₁, _, h₁P, ⟨h₂, h₃, h₂Q, h₃R, h₂₃, rfl⟩, h₁₂₃, rfl⟩
    rcases (Finmap.disjoint_union_right _ _ _).mp h₁₂₃ with ⟨h₁₂, h₁₃⟩
    exact ⟨h₁ ∪ h₂, h₃, ⟨h₁, h₂, h₁P, h₂Q, h₁₂, rfl⟩, h₃R,
      (Finmap.disjoint_union_left _ _ _).mpr ⟨h₁₃, h₂₃⟩, Finmap.union_assoc.symm⟩

theorem one_mul' (P : Assertion V) : 1 * P = P := by
  ext h
  constructor
  · rintro ⟨_, h₂, rfl, h₂P, _, rfl⟩
    rw [Finmap.empty_union]
    exact h₂P
  · intro hP
    exact ⟨∅, h, rfl, hP, Finmap.disjoint_empty h, Finmap.empty_union.symm⟩

instance : CommMonoid (Assertion V) where
  mul_assoc := mul_assoc'
  mul_comm := mul_comm'
  one_mul := one_mul'
  mul_one P := (mul_comm' P 1).trans (one_mul' P)

theorem mul_sSup (P : Assertion V) (s : Set (Assertion V)) : P * sSup s = ⨆ Q ∈ s, P * Q := by
  ext h
  rw [iSup_iff]
  constructor
  · rintro ⟨h₁, h₂, h₁P, h₂s, hdisjoint, rfl⟩
    rcases sSup_iff.mp h₂s with ⟨Q, hQ, h₂Q⟩
    exact ⟨Q, iSup_iff.mpr ⟨hQ, h₁, h₂, h₁P, h₂Q, hdisjoint, rfl⟩⟩
  · rintro ⟨Q, h'⟩
    rcases iSup_iff.mp h' with ⟨hQ, h₁, h₂, h₁P, h₂Q, hdisjoint, rfl⟩
    exact ⟨h₁, h₂, h₁P, sSup_iff.mpr ⟨Q, hQ, h₂Q⟩, hdisjoint, rfl⟩

instance : IsQuantale (Assertion V) where
  mul_sSup_distrib := mul_sSup
  sSup_mul_distrib s P := by
    rw [mul_comm, mul_sSup]
    exact iSup_congr fun Q => by rw [mul_comm]

/-- The fact holds, and there is no block. -/
def fact (p : Prop) : Assertion V := that fun h => p ∧ h = ∅

/-- The block of a pointer and what it holds; no block for a null pointer. -/
def owns (p : Option Addr) (v : Option V) : Assertion V :=
  match p, v with
  | none, none => 1
  | some a, some v => that fun h => h = Finmap.singleton a v
  | _, _ => ⊥

theorem fact_mul_iff {p : Prop} : (fact p * P).Holds h ↔ p ∧ P.Holds h := by
  constructor
  · rintro ⟨_, h₂, ⟨hp, rfl⟩, h₂P, _, rfl⟩
    rw [Finmap.empty_union]
    exact ⟨hp, h₂P⟩
  · rintro ⟨hp, hP⟩
    exact ⟨∅, h, ⟨hp, rfl⟩, hP, Finmap.disjoint_empty h, Finmap.empty_union.symm⟩

theorem fact_mul_le {p : Prop} (hPQ : p → P ≤ Q) : fact p * P ≤ Q := by
  intro h hP
  rcases fact_mul_iff.mp hP with ⟨hp, hP⟩
  exact hPQ hp h hP

/-- What is known may be left out. -/
theorem fact_of {p : Prop} (hp : p) : (fact p : Assertion V) = 1 := by
  ext h
  exact and_iff_right hp

theorem owns_null : (owns none none : Assertion V) = 1 := rfl

/-- A pointer is null where there is nothing to hold. -/
theorem owns_cases {p : Option Addr} {x : Option V} (hown : (owns p x * P).Holds h) :
    (p = none ∧ x = none) ∨ ∃ a v, p = some a ∧ x = some v := by
  rcases hown with ⟨h₁, _, hown, _⟩
  match p, x with
  | none, none => exact Or.inl ⟨rfl, rfl⟩
  | some a, some v => exact Or.inr ⟨a, v, rfl, rfl⟩
  | none, some v => exact False.elim hown
  | some a, none => exact False.elim hown

/-- A block beside others. -/
theorem owns_mul_iff {a : Addr} {v : V} :
    (owns (some a) (some v) * P).Holds h ↔ ∃ h', P.Holds h' ∧ a ∉ h' ∧ h = h'.insert a v := by
  have hinsert : ∀ h' : Heap V, Finmap.singleton a v ∪ h' = h'.insert a v := by
    intro h'
    calc Finmap.singleton a v ∪ h' = (∅ : Heap V).insert a v ∪ h' := rfl
      _ = (∅ ∪ h').insert a v := Finmap.insert_union.symm
      _ = h'.insert a v := by rw [Finmap.empty_union]
  have hdisjoint : ∀ h' : Heap V, (Finmap.singleton a v).Disjoint h' ↔ a ∉ h' := by
    intro h'
    constructor
    · exact fun hd => hd a ((Finmap.mem_singleton a a v).mpr rfl)
    · intro ha b hb
      rw [(Finmap.mem_singleton b a v).mp hb]
      exact ha
  rw [mul_iff]
  constructor
  · rintro ⟨_, h', rfl, hP, hd, rfl⟩
    exact ⟨h', hP, (hdisjoint h').mp hd, hinsert h'⟩
  · rintro ⟨h', hP, ha, rfl⟩
    exact ⟨Finmap.singleton a v, h', rfl, hP, (hdisjoint h').mpr ha, (hinsert h').symm⟩

end Assertion

open Assertion

section Rules

variable {V α β : Type} {P P' R : Assertion V} {Q Q' : α → Assertion V} {c : Prog V α}

/-- Wherever the first holds of a part of the heap, the program has a result for which
    the second holds of that part, and the rest is as it was. -/
def Triple (P : Assertion V) (c : Prog V α) (Q : α → Assertion V) : Prop :=
  ∀ F h, (P * F).Holds h → ∃ a h', c.run h = some (a, h') ∧ (Q a * F).Holds h'

/-- What a program does not need stays. -/
theorem Triple.frame (hc : Triple P c Q) (R : Assertion V) :
    Triple (P * R) c (fun a => Q a * R) := by
  intro F h hP
  rw [mul_assoc] at hP
  rcases hc (R * F) h hP with ⟨a, h', hrun, hQ⟩
  rw [← mul_assoc] at hQ
  exact ⟨a, h', hrun, hQ⟩

theorem Triple.weaken (hc : Triple P c Q) (hP : P' ≤ P) (hQ : ∀ a, Q a ≤ Q' a) :
    Triple P' c Q' := by
  intro F h hP'
  rcases hc F h (hP'.mono (mul_le_mul_left hP F)) with ⟨a, h', hrun, hQa⟩
  exact ⟨a, h', hrun, hQa.mono (mul_le_mul_left (hQ a) F)⟩

theorem Triple.pure {a : α} (h : P ≤ Q a) : Triple P (Pure.pure a) Q := by
  intro F x hP
  exact ⟨a, x, rfl, hP.mono (mul_le_mul_left h F)⟩

theorem Triple.bind {f : α → Prog V β} {T : β → Assertion V} (hc : Triple P c Q)
    (hf : ∀ a, Triple (Q a) (f a) T) : Triple P (c >>= f) T := by
  intro F h hP
  rcases hc F h hP with ⟨a, h', hrun, hQ⟩
  rcases hf a F h' hQ with ⟨b, h'', hrun', hT⟩
  refine ⟨b, h'', ?_, hT⟩
  rw [StateT.run_bind, hrun]
  exact hrun'

/-- A first part that needs only some of what there is. -/
theorem Triple.bind_frame {f : α → Prog V β} {T : β → Assertion V} (hc : Triple P c Q)
    (hf : ∀ a, Triple (Q a * R) (f a) T) : Triple (P * R) (c >>= f) T :=
  (hc.frame R).bind hf

/-- A first part that needs nothing. -/
theorem Triple.bind_one {f : α → Prog V β} {T : β → Assertion V} (hc : Triple 1 c Q)
    (hf : ∀ a, Triple (Q a * R) (f a) T) : Triple R (c >>= f) T :=
  (hc.bind_frame hf).weaken (one_mul R).ge fun _ => le_rfl

/-- A fact can be used. -/
theorem Triple.at_fact {p : Prop} (hc : p → Triple P c Q) : Triple (fact p * P) c Q := by
  intro F h hP
  rw [mul_assoc, fact_mul_iff] at hP
  exact hc hP.1 F h hP.2

/-- Nothing has to be done where there is no heap. -/
theorem Triple.at_bot : Triple ⊥ c Q := by
  intro F h hP
  rw [Quantale.bot_mul] at hP
  exact False.elim hP

/-- What there is can be named. -/
theorem Triple.at_iSup {ι : Type} {P : ι → Assertion V} (hc : ∀ i, Triple (P i) c Q) :
    Triple (⨆ i, P i) c Q := by
  intro F h hP
  rw [Quantale.iSup_mul_distrib, iSup_iff] at hP
  rcases hP with ⟨i, hP⟩
  exact hc i F h hP

/-- A program that owns nothing before and after, run in any heap. -/
theorem Triple.run_clean {p : α → Prop} (hc : Triple 1 c (fun a => fact (p a))) (h : Heap V) :
    ∃ a, c.run h = some (a, h) ∧ p a := by
  rcases hc (that fun h' => h' = h) h (by rw [one_mul]; exact that_iff.mpr rfl) with
    ⟨a, h', hrun, hQ⟩
  rcases fact_mul_iff.mp hQ with ⟨hp, rfl⟩
  exact ⟨a, hrun, hp⟩

end Rules

section Calls

variable {V α : Type} {a : Addr} {v w : V} {h : Heap V} {placement : Placement V}

theorem load_insert : (load (some a)).run (h.insert a v) = some (v, h.insert a v) := by
  have hlookup : (h.insert a v).lookup a = some v := Finmap.lookup_insert h
  change ((h.insert a v).lookup a).map _ = _
  rw [hlookup]
  rfl

theorem store_insert : (store (some a) w).run (h.insert a v) = some ((), h.insert a w) := by
  change (if a ∈ h.insert a v then some ((), (h.insert a v).insert a w) else none) = _
  rw [if_pos (Finmap.mem_insert.mpr (Or.inl rfl)), Finmap.insert_insert]

/-- A block taken out again. -/
theorem erase_insert (ha : a ∉ h) : (h.insert a v).erase a = h := by
  refine Finmap.ext_lookup fun b => ?_
  by_cases hb : b = a
  · rw [hb, Finmap.lookup_erase, Finmap.lookup_eq_none.mpr ha]
  · rw [Finmap.lookup_erase_ne hb, Finmap.lookup_insert_of_ne h hb]

theorem free_insert (ha : a ∉ h) : (free (some a)).run (h.insert a v) = some ((), h) := by
  change (if a ∈ h.insert a v then some ((), (h.insert a v).erase a) else none) = _
  rw [if_pos (Finmap.mem_insert.mpr (Or.inl rfl)), erase_insert ha]

theorem realloc_insert (ha : a ∉ h) (fails : Bool) :
    (realloc placement fails (some a) w).run (h.insert a v)
      = if fails then some (none, h.insert a v) else (malloc placement false w).run h := by
  change (if a ∈ h.insert a v then _ else none) = _
  rw [if_pos (Finmap.mem_insert.mpr (Or.inl rfl)), erase_insert ha]
  rfl

theorem triple_ofOption (x : α) :
    Triple (1 : Assertion V) (ofOption (some x)) (fun y => fact (y = x)) := by
  intro F h hP
  rw [one_mul] at hP
  exact ⟨x, h, rfl, fact_mul_iff.mpr ⟨rfl, hP⟩⟩

/-- A new block, unless there is no memory for it. -/
theorem triple_malloc (fails : Bool) : Triple 1 (malloc placement fails v)
    (fun p => owns p (if fails then none else some v)) := by
  intro F h hP
  rw [one_mul] at hP
  cases fails with
  | true =>
      rw [← one_mul F, ← owns_null] at hP
      exact ⟨none, h, rfl, hP⟩
  | false =>
      refine ⟨some (placement.place h), h.insert (placement.place h) v, rfl, ?_⟩
      rw [if_neg Bool.false_ne_true]
      exact owns_mul_iff.mpr ⟨h, hP, placement.fresh h, rfl⟩

theorem triple_load (p : Option Addr) : Triple (owns p (some v)) (load p)
    (fun w => fact (w = v) * owns p (some v)) := by
  intro F h hP
  rcases owns_cases hP with ⟨_, hx⟩ | ⟨a, _, rfl, _⟩
  · exact absurd hx (Option.some_ne_none v)
  · rcases owns_mul_iff.mp hP with ⟨h', _, _, rfl⟩
    refine ⟨v, h'.insert a v, load_insert, ?_⟩
    rw [mul_assoc]
    exact fact_mul_iff.mpr ⟨rfl, hP⟩

theorem triple_store (p : Option Addr) : Triple (owns p (some v)) (store p w)
    (fun _ => owns p (some w)) := by
  intro F h hP
  rcases owns_cases hP with ⟨_, hx⟩ | ⟨a, _, rfl, _⟩
  · exact absurd hx (Option.some_ne_none v)
  · rcases owns_mul_iff.mp hP with ⟨h', hF, ha, rfl⟩
    exact ⟨(), h'.insert a w, store_insert, owns_mul_iff.mpr ⟨h', hF, ha, rfl⟩⟩

/-- Every block may be freed once; a null pointer always. -/
theorem triple_free (p : Option Addr) (x : Option V) :
    Triple (owns p x) (free p) (fun _ => 1) := by
  intro F h hP
  rcases owns_cases hP with ⟨rfl, rfl⟩ | ⟨a, v, rfl, rfl⟩
  · exact ⟨(), h, rfl, hP⟩
  · rcases owns_mul_iff.mp hP with ⟨h', hF, ha, rfl⟩
    refine ⟨(), h', free_insert ha, ?_⟩
    rw [one_mul]
    exact hF

/-- A block with other contents, perhaps elsewhere; the old one when there is no memory
    for it. -/
theorem triple_realloc (fails : Bool) (p : Option Addr) (x : Option V) :
    Triple (owns p x) (realloc placement fails p w) (fun q =>
      if fails then fact (q = none) * owns p x else fact (q ≠ none) * owns q (some w)) := by
  intro F h hP
  have hplaced : ∀ h' : Heap V, F.Holds h' →
      ((fact (some (placement.place h') ≠ none) * owns (some (placement.place h')) (some w))
        * F).Holds (h'.insert (placement.place h') w) := by
    intro h' hF
    rw [mul_assoc, fact_mul_iff]
    exact ⟨Option.some_ne_none _, owns_mul_iff.mpr ⟨h', hF, placement.fresh h', rfl⟩⟩
  have hkept : (fact ((none : Option Addr) = none) * owns p x * F).Holds h := by
    rw [mul_assoc, fact_mul_iff]
    exact ⟨rfl, hP⟩
  rcases owns_cases hP with ⟨rfl, rfl⟩ | ⟨a, v, rfl, rfl⟩
  · cases fails with
    | true => exact ⟨none, h, rfl, hkept⟩
    | false =>
        rw [owns_null, one_mul] at hP
        exact ⟨_, _, rfl, hplaced h hP⟩
  · rcases owns_mul_iff.mp hP with ⟨h', hF, ha, rfl⟩
    cases fails with
    | true => exact ⟨none, _, realloc_insert ha true, hkept⟩
    | false => exact ⟨_, _, realloc_insert ha false, hplaced h' hF⟩

end Calls

end Heaps

end SendingSystem
