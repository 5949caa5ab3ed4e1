import SendingSystem.Lib.Heap

/-!
# Arrays on a heap

Blocks of a type, and arrays that grow: cells of which the first ones have been
written. A cell that has not been written, or that lies behind the end, has nothing to
read, and a cell behind the end cannot be written either.

## Main definitions

* `Kind`: A type of block among the blocks of a heap.
* `loadAs`, `getCell`, `setCell`, `growCells`: What is done with an array.
* `forFrom`: A loop over so many numbers.
* `array`: An array of so many cells, the first of which hold these values.
* `ownsCells`: The same, with what each of those cells owns.

## Theorems

* `triple_growCells`, `triple_pushCell`, `triple_getCell`, `triple_setCell`,
  `triple_freeArray`: The rules.
* `Triple.forFrom`, `triple_forCells`: A loop, and one that gives up what belongs to
  the cells of an array.
* `triple_useCell`, `triple_pushOwned`, `triple_growOwned`, `triple_freeOwned`: The rules
  for cells that own something.
-/

namespace SendingSystem

namespace Heaps

open Assertion

/-- A type of block: how its values are held, and read back. -/
structure Kind (V α : Type) where
  put : α → V
  get : V → Option α
  get_put : ∀ x, get (put x) = some x

section Programs

variable {V α : Type}

/-- What a pointer points to, which is of this type. -/
def loadAs (kind : Kind V α) (p : Option Addr) : Prog V α := do
  let v ← load p
  ofOption (kind.get v)

/-- The value of a cell that was written. -/
def getCell (kind : Kind V (List (Option α))) (p : Option Addr) (i : Nat) : Prog V α := do
  let cells ← loadAs kind p
  ofOption (cells[i]?.join)

/-- A cell is written. -/
def setCell (kind : Kind V (List (Option α))) (p : Option Addr) (i : Nat) (x : α) :
    Prog V Unit := do
  let cells ← loadAs kind p
  if i < cells.length then store p (kind.put (cells.set i (some x))) else ofOption none

/-- The cells a pointer points to, none for a null pointer. -/
def oldCells (kind : Kind V (List (Option α))) (p : Option Addr) : Prog V (List (Option α)) :=
  match p with
  | none => pure []
  | some _ => loadAs kind p

/-- `realloc` for an array: the cells there were, and new ones behind them. -/
def growCells (placement : Placement V) (fails : Bool) (kind : Kind V (List (Option α)))
    (p : Option Addr) (capacity : Nat) : Prog V (Option Addr) := do
  let cells ← oldCells kind p
  realloc placement fails p
    (kind.put (cells.take capacity ++ List.replicate (capacity - cells.length) none))

/-- `for (i = start; i < start + n; i++)`. -/
def forFrom (f : Nat → Prog V Unit) : Nat → Nat → Prog V Unit
  | _, 0 => pure ()
  | start, n + 1 => do
    f start
    forFrom f (start + 1) n

end Programs

/-- The cells of an array, the first of which hold these values. -/
def cellsOf {α : Type} (capacity : Nat) (l : List α) : List (Option α) :=
  l.map some ++ List.replicate (capacity - l.length) none

section Cells

variable {α : Type} {capacity i : Nat} {l : List α} {x : α}

theorem length_cellsOf (h : l.length ≤ capacity) : (cellsOf capacity l).length = capacity := by
  rw [cellsOf, List.length_append, List.length_map, List.length_replicate]
  omega

theorem cellsOf_get (h : l[i]? = some x) : (cellsOf capacity l)[i]? = some (some x) := by
  rcases List.getElem?_eq_some_iff.mp h with ⟨hi, _⟩
  rw [cellsOf, List.getElem?_append_left (by rw [List.length_map]; exact hi), List.getElem?_map, h]
  rfl

theorem cellsOf_set (h : i < l.length) :
    (cellsOf capacity l).set i (some x) = cellsOf capacity (l.set i x) := by
  rw [cellsOf, cellsOf, List.set_append_left _ _ (by rw [List.length_map]; exact h),
    List.map_set, List.length_set]

theorem cellsOf_push (h : l.length < capacity) :
    (cellsOf capacity l).set l.length (some x) = cellsOf capacity (l ++ [x]) := by
  have hcount : capacity - l.length = capacity - (l ++ [x]).length + 1 := by
    rw [List.length_append, List.length_singleton]
    omega
  rw [cellsOf, cellsOf, List.set_append_right _ _ (by rw [List.length_map]), List.length_map,
    Nat.sub_self, hcount, List.replicate_succ, List.set_cons_zero, List.map_append,
    List.append_assoc]
  rfl

theorem cellsOf_grow {capacity' : Nat} (h : l.length ≤ capacity) (hle : capacity ≤ capacity') :
    (cellsOf capacity l).take capacity'
      ++ List.replicate (capacity' - (cellsOf capacity l).length) none = cellsOf capacity' l := by
  rw [List.take_of_length_le (by rw [length_cellsOf h]; exact hle), length_cellsOf h, cellsOf,
    cellsOf, List.append_assoc, List.replicate_append_replicate]
  congr 2
  omega

end Cells

section Rules

variable {V α β : Type} {kind : Kind V (List (Option α))} {p : Option Addr} {capacity : Nat}
  {l : List α} {x : α} {i : Nat} {placement : Placement V}

/-- An array of so many cells, the first of which hold these values; a null pointer
    when it has none. -/
def array (kind : Kind V (List (Option α))) (p : Option Addr) (capacity : Nat) (l : List α) :
    Assertion V :=
  fact (l.length ≤ capacity) *
    owns p (if capacity = 0 then none else some (kind.put (cellsOf capacity l)))

theorem array_nil : (array kind none 0 [] : Assertion V) = 1 := by
  rw [array, fact_of (Nat.le_of_eq List.length_nil), if_pos rfl, one_mul, owns_null]

/-- A null pointer is an array without cells. -/
theorem array_null : (array kind none capacity l : Assertion V) = fact (capacity = 0 ∧ l = []) := by
  by_cases hpos : 0 < capacity
  · rw [array, if_neg (by omega)]
    refine (Quantale.mul_bot).trans (Assertion.ext fun h => ⟨False.elim, fun h' => ?_⟩)
    exact absurd h'.1.1 (by omega)
  · have hzero : capacity = 0 := by omega
    rw [array, if_pos hzero, owns_null, mul_one, hzero, Nat.le_zero_eq, List.length_eq_zero_iff]
    congr 1
    exact propext ⟨fun hnil => ⟨rfl, hnil⟩, fun h => h.2⟩

theorem array_of_pos (h : 0 < capacity) : array kind p capacity l
    = fact (l.length ≤ capacity) * owns p (some (kind.put (cellsOf capacity l))) := by
  rw [array, if_neg (by omega)]

/-- What a pointer to a block holds. -/
theorem triple_loadAs {kind : Kind V α} : Triple (owns p (some (kind.put x))) (loadAs kind p)
    (fun y => fact (y = x) * owns p (some (kind.put x))) := by
  refine (triple_load p).bind fun v => Triple.at_fact fun hv => ?_
  rw [hv, kind.get_put]
  refine ((triple_ofOption x).frame (owns p (some (kind.put x)))).weaken ?_ fun y => le_rfl
  rw [one_mul]

/-- A cell that was written holds its value. -/
theorem triple_getCell (h : l[i]? = some x) : Triple (array kind p capacity l)
    (getCell kind p i) (fun y => fact (y = x) * array kind p capacity l) := by
  rcases List.getElem?_eq_some_iff.mp h with ⟨hi, _⟩
  by_cases hpos : 0 < capacity
  · rw [array_of_pos hpos]
    refine Triple.at_fact fun hle => triple_loadAs.bind fun cells => Triple.at_fact fun hcells => ?_
    rw [hcells, cellsOf_get h, fact_of hle, one_mul]
    refine ((triple_ofOption x).frame (owns p (some (kind.put (cellsOf capacity l))))).weaken ?_
      fun y => le_rfl
    rw [one_mul]
  · exact Triple.at_fact fun hle => absurd hle (by omega)

/-- Writing a cell. -/
theorem triple_setCell_of {l' : List α} (hi : i < capacity) (hlen : l'.length ≤ capacity)
    (hset : (cellsOf capacity l).set i (some x) = cellsOf capacity l') :
    Triple (array kind p capacity l) (setCell kind p i x) (fun _ => array kind p capacity l') := by
  have hpos : 0 < capacity := by omega
  rw [array_of_pos hpos, array_of_pos hpos]
  refine Triple.at_fact fun hle => triple_loadAs.bind fun cells => Triple.at_fact fun hcells => ?_
  rw [hcells, length_cellsOf hle, if_pos hi, hset, fact_of hlen, one_mul]
  exact triple_store p

/-- A written cell is written again. -/
theorem triple_setCell (hi : i < l.length) : Triple (array kind p capacity l)
    (setCell kind p i x) (fun _ => array kind p capacity (l.set i x)) := by
  by_cases hle : l.length ≤ capacity
  · exact triple_setCell_of (by omega) (by rw [List.length_set]; exact hle) (cellsOf_set hi)
  · exact Triple.at_fact fun hle' => absurd hle' hle

/-- The first cell that was not written is written. -/
theorem triple_pushCell (hroom : l.length < capacity) : Triple (array kind p capacity l)
    (setCell kind p l.length x) (fun _ => array kind p capacity (l ++ [x])) := by
  refine triple_setCell_of hroom ?_ (cellsOf_push hroom)
  rw [List.length_append, List.length_singleton]
  omega

theorem triple_oldCells : Triple (array kind p capacity l) (oldCells kind p)
    (fun cells => fact (cells = cellsOf capacity l) * array kind p capacity l) := by
  by_cases hpos : 0 < capacity
  · rw [array_of_pos hpos]
    refine Triple.at_fact fun hle => ?_
    rw [fact_of hle, one_mul]
    cases p with
    | none => exact Triple.at_bot
    | some a => exact triple_loadAs
  · refine Triple.at_fact fun hle => ?_
    have hzero : capacity = 0 := by omega
    have hnil : l = [] := List.length_eq_zero_iff.mp (by omega)
    subst hzero hnil
    cases p with
    | none =>
        refine Triple.pure ?_
        rw [array_nil, mul_one, if_pos rfl, owns_null]
        exact (fact_of rfl).ge
    | some a => exact Triple.at_bot

/-- An array that grows keeps its values. -/
theorem triple_growCells {capacity' : Nat} (hle : capacity ≤ capacity') (hpos : 0 < capacity') :
    Triple (array kind p capacity l) (growCells placement false kind p capacity')
      (fun q => fact (q ≠ none) * array kind q capacity' l) := by
  refine triple_oldCells.bind fun cells => Triple.at_fact fun hcells =>
    Triple.at_fact fun hlen => ?_
  rw [hcells, cellsOf_grow hlen hle]
  refine (triple_realloc false p _).weaken le_rfl fun q => le_of_eq ?_
  rw [if_neg Bool.false_ne_true, array_of_pos hpos, fact_of (hlen.trans hle), one_mul]

/-- It stays as it is when there is no memory. -/
theorem triple_growCells_fails (capacity' : Nat) : Triple (array kind p capacity l)
    (growCells placement true kind p capacity')
    (fun q => fact (q = none) * array kind p capacity l) := by
  refine triple_oldCells.bind fun cells => Triple.at_fact fun _ => Triple.at_fact fun hlen => ?_
  refine (triple_realloc true p _).weaken le_rfl fun q => le_of_eq ?_
  rw [if_pos rfl, array, fact_of hlen, one_mul]

theorem triple_freeArray : Triple (array kind p capacity l) (free p) (fun _ => 1) :=
  Triple.at_fact fun _ => triple_free p _

/-- A loop that keeps an invariant. -/
theorem Triple.forFrom {I : Nat → Assertion V} {f : Nat → Prog V Unit} (n : Nat) (start : Nat)
    (hf : ∀ i, start ≤ i → i < start + n → Triple (I i) (f i) (fun _ => I (i + 1))) :
    Triple (I start) (forFrom f start n) (fun _ => I (start + n)) := by
  induction n generalizing start with
  | zero => exact Triple.pure le_rfl
  | succ n ih =>
      refine (hf start (Nat.le_refl _) (by omega)).bind fun _ => ?_
      rw [(by omega : start + (n + 1) = start + 1 + n)]
      exact ih (start + 1) fun i hi hlt => hf i (by omega) (by omega)

/-- The state of a loop in which so many cells have given up what belongs to them. -/
def givenUp (kind : Kind V (List (Option α))) (p : Option Addr) (capacity : Nat) (l : List α)
    (own : α → Assertion V) (i : Nat) : Assertion V :=
  ⨆ l' : { l' : List α // ∀ j, i ≤ j → l'[j]? = l[j]? },
    array kind p capacity l'.1 * ((l.drop i).map own).prod

/-- A loop over the cells of an array that gives up what belongs to each, and may change
    the cells on its way. -/
theorem triple_forCells {own : α → Assertion V} {f : Nat → Prog V Unit}
    (hf : ∀ i (l' : List α) x, l'[i]? = some x → Triple (array kind p capacity l' * own x) (f i)
      (fun _ => ⨆ y, array kind p capacity (l'.set i y))) :
    Triple (array kind p capacity l * (l.map own).prod) (forFrom f 0 l.length)
      (fun _ => ⨆ l' : List α, array kind p capacity l') := by
  refine (Triple.forFrom (I := givenUp kind p capacity l own) l.length 0 ?_).weaken ?_ fun _ => ?_
  · intro i _ hi
    refine Triple.at_iSup fun ⟨l', hl'⟩ => ?_
    have hcell : l'[i]? = some l[i] := by
      rw [hl' i (Nat.le_refl i)]
      exact List.getElem?_eq_getElem (by omega)
    rw [List.drop_eq_getElem_cons (by omega : i < l.length), List.map_cons, List.prod_cons,
      ← mul_assoc]
    refine ((hf i l' _ hcell).frame _).weaken le_rfl fun _ => ?_
    rw [Quantale.iSup_mul_distrib]
    refine iSup_le fun y => le_iSup_of_le ⟨l'.set i y, fun j hj => ?_⟩ le_rfl
    rw [List.getElem?_set_ne (by omega), hl' j (by omega)]
  · exact le_iSup_of_le ⟨l, fun _ _ => rfl⟩ le_rfl
  · refine iSup_le fun l' => le_iSup_of_le l'.1 ?_
    rw [List.drop_of_length_le (by omega), List.map_nil, List.prod_nil, mul_one]

end Rules

section Owned

variable {V α β γ : Type} {kind : Kind V (List (Option α))} {own : α → β → Assertion V}
  {p : Option Addr} {capacity : Nat} {values : List β} {placement : Placement V}

/-- An array of so many cells, the first of which own what stands for these values. -/
def ownsCells (kind : Kind V (List (Option α))) (own : α → β → Assertion V) (p : Option Addr)
    (capacity : Nat) (values : List β) : Assertion V :=
  ⨆ pairs : { l : List (α × β) // l.map Prod.snd = values },
    array kind p capacity (pairs.1.map Prod.fst) * (pairs.1.map (fun x => own x.1 x.2)).prod

theorem le_ownsCells_nil : 1 ≤ ownsCells kind own none 0 [] := by
  refine le_iSup_of_le ⟨[], rfl⟩ (le_of_eq ?_)
  rw [List.map_nil, List.map_nil, array_nil, List.prod_nil, one_mul]

/-- Nothing belongs to a null pointer. -/
theorem ownsCells_null_le : ownsCells kind own none capacity values ≤ 1 := by
  refine iSup_le fun ⟨pairs, hpairs⟩ => ?_
  rw [array_null]
  refine fact_mul_le fun hnil => ?_
  rw [List.map_eq_nil_iff.mp hnil.2, List.map_nil, List.prod_nil]

/-- A cell with what it owns stands between the others. -/
theorem ownsCells_split (done todo : List (α × β)) (x : α × β) :
    array kind p capacity ((done ++ x :: todo).map Prod.fst) *
        ((done ++ x :: todo).map (fun x => own x.1 x.2)).prod
      = array kind p capacity ((done ++ x :: todo).map Prod.fst) * own x.1 x.2 *
          ((done ++ todo).map (fun x => own x.1 x.2)).prod := by
  simp only [List.map_append, List.map_cons, List.prod_append, List.prod_cons]
  ac_rfl

/-- What a cell owns is used and stays. -/
theorem triple_useCell {f : α → Prog V γ} {g : β → γ}
    (hf : ∀ x v, Triple (own x v) (f x) (fun y => fact (y = g v) * own x v))
    (done todo : List β) (v : β) :
    Triple (ownsCells kind own p capacity (done ++ v :: todo))
      (getCell kind p done.length >>= f)
      (fun y => fact (y = g v) * ownsCells kind own p capacity (done ++ v :: todo)) := by
  refine Triple.at_iSup fun ⟨pairs, hpairs⟩ => ?_
  rcases List.map_eq_append_iff.mp hpairs with ⟨done', rest, rfl, hdone, hrest⟩
  rcases List.map_eq_cons_iff.mp hrest with ⟨x, todo', rfl, hx, _⟩
  have hlen : done.length = done'.length := by rw [← hdone, List.length_map]
  have hcell : ((done' ++ x :: todo').map Prod.fst)[done'.length]? = some x.1 := by
    rw [List.getElem?_map, List.getElem?_append_right (Nat.le_refl _), Nat.sub_self]
    rfl
  have hback := le_iSup (fun pairs : { l : List (α × β) // l.map Prod.snd = done ++ v :: todo } =>
    array kind p capacity (pairs.1.map Prod.fst) * (pairs.1.map (fun x => own x.1 x.2)).prod)
    ⟨done' ++ x :: todo', hpairs⟩
  simp only [ownsCells_split] at hback ⊢
  rw [hlen, mul_assoc]
  refine (triple_getCell hcell).bind_frame fun y => ?_
  rw [mul_assoc]
  refine Triple.at_fact fun hy => ?_
  rw [hy, mul_comm, mul_assoc]
  refine ((hf x.1 x.2).frame _).weaken le_rfl fun y => ?_
  rw [hx, mul_assoc]
  refine mul_le_mul_right (le_trans (le_of_eq ?_) hback) _
  rw [hx]
  ac_rfl

/-- A cell is put behind the others with what it owns. -/
theorem triple_pushOwned (hroom : values.length < capacity) (x : α) (v : β) :
    Triple (own x v * ownsCells kind own p capacity values) (setCell kind p values.length x)
      (fun _ => ownsCells kind own p capacity (values ++ [v])) := by
  unfold ownsCells
  rw [Quantale.mul_iSup_distrib]
  refine Triple.at_iSup fun ⟨pairs, hpairs⟩ => ?_
  have hlen : values.length = (pairs.map Prod.fst).length := by
    rw [← hpairs, List.length_map, List.length_map]
  rw [hlen] at hroom ⊢
  refine ((triple_pushCell hroom).frame
    ((pairs.map (fun x => own x.1 x.2)).prod * own x v)).weaken (le_of_eq (by ac_rfl)) fun _ => ?_
  refine le_iSup_of_le ⟨pairs ++ [(x, v)], ?_⟩ (le_of_eq ?_)
  · rw [List.map_append, hpairs]
    rfl
  · simp only [List.map_append, List.map_cons, List.map_nil, List.prod_append, List.prod_cons,
      List.prod_nil, mul_one]

/-- An array that grows keeps what its cells own. -/
theorem triple_growOwned {capacity' : Nat} (hle : capacity ≤ capacity') (hpos : 0 < capacity') :
    Triple (ownsCells kind own p capacity values) (growCells placement false kind p capacity')
      (fun q => fact (q ≠ none) * ownsCells kind own q capacity' values) := by
  refine Triple.at_iSup fun pairs => ((triple_growCells hle hpos).frame _).weaken le_rfl
    fun q => ?_
  have hback : array kind q capacity' (pairs.1.map Prod.fst) *
      (pairs.1.map (fun x => own x.1 x.2)).prod ≤ ownsCells kind own q capacity' values :=
    le_iSup_of_le pairs le_rfl
  rw [mul_assoc]
  exact mul_le_mul_right hback _

theorem triple_growOwned_fails (capacity' : Nat) :
    Triple (ownsCells kind own p capacity values) (growCells placement true kind p capacity')
      (fun q => fact (q = none) * ownsCells kind own p capacity values) := by
  refine Triple.at_iSup fun pairs => ((triple_growCells_fails capacity').frame _).weaken le_rfl
    fun q => ?_
  have hback : array kind p capacity (pairs.1.map Prod.fst) *
      (pairs.1.map (fun x => own x.1 x.2)).prod ≤ ownsCells kind own p capacity values :=
    le_iSup_of_le pairs le_rfl
  rw [mul_assoc]
  exact mul_le_mul_right hback _

/-- The array is released after all that its cells own. -/
theorem triple_freeOwned {f : Nat → Prog V Unit}
    (hf : ∀ i (l : List α) x v, l[i]? = some x → Triple (array kind p capacity l * own x v) (f i)
      (fun _ => ⨆ y, array kind p capacity (l.set i y))) :
    Triple (ownsCells kind own p capacity values)
      (do forFrom f 0 values.length; free p) (fun _ => 1) := by
  refine Triple.at_iSup fun ⟨pairs, hpairs⟩ => ?_
  have hlen : values.length = (pairs.map Prod.fst).length := by
    rw [← hpairs, List.length_map, List.length_map]
  -- Each cell owns something, whatever it stands for.
  have hown : (pairs.map (fun x => own x.1 x.2)).prod
      ≤ ((pairs.map Prod.fst).map (fun x => ⨆ v, own x v)).prod := by
    rw [List.map_map]
    exact List.prod_le_prod' fun x _ => le_iSup (fun v => own x.1 v) x.2
  have hloop : Triple (array kind p capacity (pairs.map Prod.fst) *
      ((pairs.map Prod.fst).map (fun x => ⨆ v, own x v)).prod)
      (forFrom f 0 (pairs.map Prod.fst).length) (fun _ => ⨆ l', array kind p capacity l') := by
    refine triple_forCells fun i l' x hx => ?_
    rw [Quantale.mul_iSup_distrib]
    exact Triple.at_iSup fun v => hf i l' x v hx
  rw [hlen]
  exact (hloop.bind fun _ => Triple.at_iSup fun l' => triple_freeArray).weaken
    (mul_le_mul_right hown _) fun _ => le_rfl

end Owned

end Heaps

end SendingSystem
