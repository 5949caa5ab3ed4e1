import Mathlib.Data.List.Basic
import Mathlib.Tactic.Basic

/-!
# Tables with ascending ids

A table of rows keyed by a 64-bit integer id that the store hands out itself and
never hands out twice. Besides the rows the table keeps `seq`, the largest id it
has ever held; a new row gets `seq + 1`, so an id stays used when its row is
deleted. The rows are kept in id order, which is the order a listing returns.

The invariant is part of the structure: ids ascend, start at 1 and do not exceed
`seq`. Each operation is described by which rows the result has
(`mem_insertNext`, `mem_insertAt`, `mem_update`, `mem_delete`) and by what
happens to `seq`; nothing else is ever needed about it.

## Main definitions

* `Table`: Rows in id order together with the largest id used.
* `Table.has`: An id is in use.
* `Table.get?`: The row with an id.
* `Table.insertNext`: Add a row under a fresh id, unless the ids have run out.
* `Table.insertAt`: Add a row under an id that is free.
* `Table.update`, `Table.delete`: Replace or remove the row with an id.

## Theorems

* `eq_of_mem`: An id has one row.
* `get?_eq_some`: Looking up finds exactly the row of an id.
* `insertNext_spec`: A new row is added under `seq + 1`.
* `mem_insertAt`, `mem_update`, `mem_update_of_ne`, `mem_update_self`, `mem_delete`:
  The rows after each operation.
-/

namespace SendingSystem

/-- The largest row id, `2^63 - 1`. -/
def maxRowid : Int := 9223372036854775807

/-- Rows in ascending id order, and the largest id ever used. -/
structure Table (α : Type) where
  rows : List (Int × α)
  seq : Int
  ascending : rows.Pairwise (fun r r' => r.1 < r'.1)
  one_le : ∀ r ∈ rows, 1 ≤ r.1
  le_seq : ∀ r ∈ rows, r.1 ≤ seq
  seq_nonneg : 0 ≤ seq

namespace Table

variable {α : Type}

@[ext]
theorem ext_rows {t t' : Table α} (hrows : t.rows = t'.rows) (hseq : t.seq = t'.seq) : t = t' := by
  cases t
  cases t'
  simp only at hrows hseq
  subst hrows
  subst hseq
  rfl

instance [DecidableEq α] : DecidableEq (Table α) := fun t t' =>
  decidable_of_iff (t.rows = t'.rows ∧ t.seq = t'.seq)
    ⟨fun h => ext_rows h.1 h.2, fun h => h ▸ ⟨rfl, rfl⟩⟩

/-- The table before its first row. -/
def empty : Table α where
  rows := []
  seq := 0
  ascending := List.Pairwise.nil
  one_le := by simp only [List.not_mem_nil, false_implies, implies_true]
  le_seq := by simp only [List.not_mem_nil, false_implies, implies_true]
  seq_nonneg := Int.le_refl 0

/-- The id has a row. -/
def has (t : Table α) (id : Int) : Bool := t.rows.any (fun r => r.1 = id)

/-- The row with the id. -/
def get? (t : Table α) (id : Int) : Option α :=
  (t.rows.find? (fun r => r.1 = id)).map (fun r => r.2)

theorem has_iff {t : Table α} {id : Int} : t.has id = true ↔ ∃ a, (id, a) ∈ t.rows := by
  rw [has, List.any_eq_true]
  constructor
  · rintro ⟨⟨i, a⟩, hmem, heq⟩
    rw [decide_eq_true_eq] at heq
    simp only at heq
    exact ⟨a, heq ▸ hmem⟩
  · rintro ⟨a, hmem⟩
    exact ⟨(id, a), hmem, by rw [decide_eq_true_eq]⟩

theorem has_eq_false_iff {t : Table α} {id : Int} :
    t.has id = false ↔ ∀ r ∈ t.rows, r.1 ≠ id := by
  rw [has, List.any_eq_false]
  simp only [decide_eq_true_eq, ne_eq]

/-- An id has one row. -/
theorem eq_of_mem {t : Table α} {r r' : Int × α} (hr : r ∈ t.rows) (hr' : r' ∈ t.rows)
    (hid : r.1 = r'.1) : r = r' := by
  refine List.Pairwise.forall_of_forall_of_flip (R := fun r r' => r.1 = r'.1 → r = r')
    (fun r _ _ => rfl) ?_ ?_ hr hr' hid
  · exact t.ascending.imp (fun hlt heq => absurd heq (by omega))
  · exact t.ascending.imp (fun hlt heq => absurd heq (by omega))

theorem get?_eq_some {t : Table α} {id : Int} {a : α} : t.get? id = some a ↔ (id, a) ∈ t.rows := by
  rw [get?, Option.map_eq_some_iff]
  constructor
  · rintro ⟨r, hfind, rfl⟩
    have hid := List.find?_some hfind
    rw [decide_eq_true_eq] at hid
    exact hid ▸ List.mem_of_find?_eq_some hfind
  · intro hmem
    rcases hfind : t.rows.find? (fun r => r.1 = id) with _ | r
    · rw [List.find?_eq_none] at hfind
      exact absurd (decide_eq_true rfl) (hfind (id, a) hmem)
    · have hid := List.find?_some hfind
      rw [decide_eq_true_eq] at hid
      -- The row found has the same id, so it is the same row.
      have hr := eq_of_mem (List.mem_of_find?_eq_some hfind) hmem hid
      exact ⟨r, hfind, by rw [hr]⟩

/-- Add a row under the next id. There is none when the ids have run out. -/
def insertNext (t : Table α) (a : α) : Option (Table α × Int) :=
  if t.seq < maxRowid then
    some ({
      rows := t.rows ++ [(t.seq + 1, a)]
      seq := t.seq + 1
      ascending := by
        rw [List.pairwise_append]
        refine ⟨t.ascending, List.pairwise_singleton _ _, ?_⟩
        intro r hr r' hr'
        have hle := t.le_seq r hr
        rw [List.mem_singleton.mp hr']
        simp only
        omega
      one_le := by
        intro r hr
        rcases List.mem_append.mp hr with hr | hr
        · exact t.one_le r hr
        -- A fresh id is above `seq`, and that is not negative.
        · have hseq := t.seq_nonneg
          rw [List.mem_singleton.mp hr]
          simp only
          omega
      le_seq := by
        intro r hr
        rcases List.mem_append.mp hr with hr | hr
        · have hle := t.le_seq r hr
          omega
        · exact Int.le_of_eq (congrArg Prod.fst (List.mem_singleton.mp hr))
      seq_nonneg := by
        have hseq := t.seq_nonneg
        omega }, t.seq + 1)
  else none

/-- A new row goes under an id above every id used so far. -/
theorem insertNext_spec {t t' : Table α} {a : α} {id : Int} (h : t.insertNext a = some (t', id)) :
    id = t.seq + 1 ∧ t'.seq = t.seq + 1 ∧ t'.rows = t.rows ++ [(id, a)] := by
  unfold insertNext at h
  split at h
  · rw [Option.some.injEq, Prod.mk.injEq] at h
    rcases h with ⟨rfl, rfl⟩
    exact ⟨rfl, rfl, rfl⟩
  · simp only [reduceCtorEq] at h

/-- A new row needs an id that is left. -/
theorem seq_lt_of_insertNext {t t' : Table α} {a : α} {id : Int}
    (h : t.insertNext a = some (t', id)) : t.seq < maxRowid := by
  unfold insertNext at h
  split at h
  · assumption
  · simp only [reduceCtorEq] at h

/-- Put a row in its place in id order. -/
def place (id : Int) (a : α) : List (Int × α) → List (Int × α)
  | [] => [(id, a)]
  | r :: l => if id < r.1 then (id, a) :: r :: l else r :: place id a l

theorem mem_place (id : Int) (a : α) (r : Int × α) (l : List (Int × α)) :
    r ∈ place id a l ↔ r = (id, a) ∨ r ∈ l := by
  induction l with
  | nil => rw [place, List.mem_singleton, or_iff_left List.not_mem_nil]
  | cons r' l ih =>
      rw [place]
      by_cases hlt : id < r'.1
      · rw [if_pos hlt, List.mem_cons]
      · rw [if_neg hlt, List.mem_cons, List.mem_cons, ih, or_left_comm]

theorem ascending_place (id : Int) (a : α) (l : List (Int × α))
    (hl : l.Pairwise (fun r r' => r.1 < r'.1)) (hfree : ∀ r ∈ l, r.1 ≠ id) :
    (place id a l).Pairwise (fun r r' => r.1 < r'.1) := by
  induction l with
  | nil => exact List.pairwise_singleton _ _
  | cons r l ih =>
      rw [List.pairwise_cons] at hl
      have hr : r.1 ≠ id := hfree r List.mem_cons_self
      have hrest := ih hl.2 (fun r' h => hfree r' (List.mem_cons_of_mem r h))
      rw [place]
      by_cases hlt : id < r.1
      -- In front of everything: all ids here are at least that of `r`.
      · rw [if_pos hlt, List.pairwise_cons, List.pairwise_cons]
        refine ⟨fun r' hr' => ?_, hl⟩
        rcases List.mem_cons.mp hr' with rfl | hr'
        · exact hlt
        · exact Int.lt_trans hlt (hl.1 r' hr')
      · rw [if_neg hlt, List.pairwise_cons]
        refine ⟨fun r' hr' => ?_, hrest⟩
        rcases (mem_place id a r' l).mp hr' with rfl | hr'
        · simp only
          omega
        · exact hl.1 r' hr'

/-- Add a row under the id, if that is a free positive one. -/
def insertAt (t : Table α) (id : Int) (a : α) : Option (Table α) :=
  if h : 1 ≤ id ∧ t.has id = false then
    some {
      rows := place id a t.rows
      seq := max t.seq id
      ascending := ascending_place id a t.rows t.ascending (has_eq_false_iff.mp h.2)
      one_le := by
        intro r hr
        rcases (mem_place id a r t.rows).mp hr with rfl | hr
        · exact h.1
        · exact t.one_le r hr
      le_seq := by
        intro r hr
        rcases (mem_place id a r t.rows).mp hr with rfl | hr
        · exact Int.le_max_right _ _
        · exact Int.le_trans (t.le_seq r hr) (Int.le_max_left _ _)
      seq_nonneg := Int.le_trans t.seq_nonneg (Int.le_max_left _ _) }
  else none

theorem mem_insertAt {t t' : Table α} {id : Int} {a : α} (h : t.insertAt id a = some t') :
    t'.seq = max t.seq id ∧ ∀ r, r ∈ t'.rows ↔ r = (id, a) ∨ r ∈ t.rows := by
  unfold insertAt at h
  split at h
  · rw [Option.some.injEq] at h
    subst h
    exact ⟨rfl, fun r => mem_place id a r t.rows⟩
  · simp only [reduceCtorEq] at h

/-- Rows rewritten without touching their ids keep their order and bounds. -/
def mapRows (t : Table α) (f : Int × α → α) : Table α where
  rows := t.rows.map (fun r => (r.1, f r))
  seq := t.seq
  ascending := by
    rw [List.pairwise_map]
    exact t.ascending
  one_le := by
    intro r hr
    rcases List.mem_map.mp hr with ⟨r', hr', rfl⟩
    exact t.one_le r' hr'
  le_seq := by
    intro r hr
    rcases List.mem_map.mp hr with ⟨r', hr', rfl⟩
    exact t.le_seq r' hr'
  seq_nonneg := t.seq_nonneg

/-- Replace the row with the id. -/
def update (t : Table α) (id : Int) (a : α) : Table α :=
  t.mapRows (fun r => if r.1 = id then a else r.2)

theorem mem_update {t : Table α} {id : Int} {a : α} {r : Int × α} (h : r ∈ (t.update id a).rows) :
    (r ∈ t.rows ∧ r.1 ≠ id) ∨ r = (id, a) := by
  rcases List.mem_map.mp h with ⟨r', hr', rfl⟩
  by_cases hid : r'.1 = id
  · right
    simp only [hid, if_true]
  · left
    simp only [if_neg hid]
    exact ⟨hr', hid⟩

theorem mem_update_of_ne {t : Table α} {id : Int} {a : α} {r : Int × α} (hr : r ∈ t.rows)
    (hne : r.1 ≠ id) : r ∈ (t.update id a).rows :=
  List.mem_map.mpr ⟨r, hr, by simp only [if_neg hne]⟩

theorem mem_update_self {t : Table α} {id : Int} {a : α} (h : t.has id = true) :
    (id, a) ∈ (t.update id a).rows := by
  rcases has_iff.mp h with ⟨b, hb⟩
  exact List.mem_map.mpr ⟨(id, b), hb, by simp only [if_true]⟩

/-- The ids in use are the same after a row was replaced. -/
theorem has_update (t : Table α) (id : Int) (a : α) (i : Int) :
    (t.update id a).has i = t.has i := by
  rw [has, has, update, mapRows]
  simp only [List.any_map, Function.comp_def]

/-- Remove the row with the id. -/
def delete (t : Table α) (id : Int) : Table α where
  rows := t.rows.filter (fun r => r.1 ≠ id)
  seq := t.seq
  ascending := t.ascending.filter _
  one_le := fun r hr => t.one_le r (List.mem_of_mem_filter hr)
  le_seq := fun r hr => t.le_seq r (List.mem_of_mem_filter hr)
  seq_nonneg := t.seq_nonneg

theorem seq_delete (t : Table α) (id : Int) : (t.delete id).seq = t.seq := rfl

theorem mem_delete {t : Table α} {id : Int} {r : Int × α} :
    r ∈ (t.delete id).rows ↔ r ∈ t.rows ∧ r.1 ≠ id := by
  rw [delete, List.mem_filter, decide_eq_true_eq]

end Table

end SendingSystem
