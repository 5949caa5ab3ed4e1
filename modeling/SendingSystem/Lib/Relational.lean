import Mathlib.Logic.Function.Basic
import SendingSystem.Lib.Table

/-!
# Relational stores

A store of several tables with foreign keys, not-null columns and at most one
unique index a table, over a schema given as data. The data statements behave
like those of an embedded SQL engine with foreign keys enforced: a statement
checks the row it writes, or the rows a deletion would orphan, and either takes
effect as a whole or fails, answering `none`, with nothing changed.

A store is `Sound` when every reference names a row, every row passes its
not-null columns and no two rows agree on an indexed key. Soundness is not part
of the statements' definitions: they look at one row only. That it is kept, and
that nothing ever used is taken back, is what `Evolves` says of a pair of
stores, and every statement evolves its store.

## Main definitions

* `Schema`: Tables, columns and indexes as data.
* `Db`: The tables and indexes that exist, with their rows.
* `Db.get?`: The row with an id.
* `Db.insert`, `Db.insertOrIgnore`, `Db.update`, `Db.delete`: Data statements.
* `Stmt`, `Stmt.exec`: The statements of a schema script.
* `execScript`: A script run statement by statement up to the first failure.
* `Sound`: References, not-null columns and unique keys hold.
* `Evolves`: Soundness is kept, ids stay used, tables and indexes stay.

## Theorems

* `insert_eq_some`, `update_eq_some`, `delete_eq_some`: What a data statement
  that succeeds did.
* `evolves_insert`, `evolves_insertOrIgnore`, `evolves_update`, `evolves_delete`:
  The data statements.
* `insertOrIgnore_eq_some`, `createTable_eq_some`, `createUniqueIndex_eq_some`,
  `createIndex_eq_some`: What a schema statement that succeeds did.
* `evolves_exec`, `evolves_execScript`: The schema statements.
* `rows_execScript`: A script leaves the tables it does not fill alone.
* `execScript_mem`: A script that succeeds executed each of its statements.
* `insert_fresh`: An inserted row has an id never used before.
* `rows_insert`, `tab_insert_of_ne`, `rows_insert_of_ne`, `present_insert`: The
  tables after an insertion.
* `rows_update_of_ne`, `rows_delete_of_ne`: The other tables after the other two.
* `get?_insert_of_ne`, `get?_update_of_ne`: A write leaves the other rows alone.
* `update_isSome_iff`, `mem_rows_update`: When an update replaces a row, and the
  rows after it.
* `insert_succeeds`, `insert_isSome_iff`, `clash_next_eq_false`: When an insertion
  succeeds.
-/

namespace SendingSystem

/-- A schema: the columns of each table as a row type, the rows a row refers to,
    its not-null condition, and the columns of the table's unique index, if it
    has one. -/
structure Schema where
  Tab : Type
  Index : Type
  Key : Type
  Row : Tab → Type
  tabs : List Tab
  mem_tabs : ∀ t, t ∈ tabs
  on : Index → Tab
  refs : (t : Tab) → Row t → List (Tab × Int)
  notNull : (t : Tab) → Row t → Bool
  key : (t : Tab) → Row t → Option Key
  [decTab : DecidableEq Tab]
  [decIndex : DecidableEq Index]
  [decKey : DecidableEq Key]

attribute [instance] Schema.decTab Schema.decIndex Schema.decKey

variable {S : Schema}

/-- What exists and what it holds. A table that was not created is `none`. -/
structure Db (S : Schema) where
  tab : (t : S.Tab) → Option (Table (S.Row t))
  unique : S.Tab → Bool
  index : S.Index → Bool

namespace Db

/-- The empty file. -/
def empty : Db S where
  tab := fun _ => none
  unique := fun _ => false
  index := fun _ => false

/-- The rows of a table, in id order. -/
def rows (db : Db S) (t : S.Tab) : List (Int × S.Row t) :=
  match db.tab t with
  | none => []
  | some T => T.rows

/-- The row with an id. -/
def get? (db : Db S) (t : S.Tab) (id : Int) : Option (S.Row t) :=
  match db.tab t with
  | none => none
  | some T => T.get? id

/-- The largest id a table has used. -/
def seq (db : Db S) (t : S.Tab) : Int :=
  match db.tab t with
  | none => 0
  | some T => T.seq

/-- The row named by a reference exists. -/
def present (db : Db S) (p : S.Tab × Int) : Bool :=
  match db.tab p.1 with
  | none => false
  | some T => T.has p.2

/-- Replace the content of a table. -/
def set (db : Db S) (t : S.Tab) (T : Table (S.Row t)) : Db S :=
  { db with tab := Function.update db.tab t (some T) }

/-- Another row of the list has the key of this one. -/
def sameKey {t : S.Tab} (rows : List (Int × S.Row t)) (id : Int) (row : S.Row t) : Bool :=
  rows.any (fun r => r.1 ≠ id && (S.key t r.2).isSome && S.key t r.2 = S.key t row)

/-- The unique index rejects the row. -/
def clash (db : Db S) (t : S.Tab) (id : Int) (row : S.Row t) : Bool :=
  db.unique t && sameKey (db.rows t) id row

/-- Every row that `row` refers to exists. -/
def refsHold (db : Db S) (t : S.Tab) (row : S.Row t) : Bool := (S.refs t row).all db.present

/-- Some row refers to the row with this id. -/
def referenced (db : Db S) (t : S.Tab) (id : Int) : Bool :=
  S.tabs.any (fun u => (db.rows u).any (fun r => (S.refs u r.2).contains (t, id)))

/-- `INSERT`: a row under the next id. -/
def insert (db : Db S) (t : S.Tab) (row : S.Row t) : Option (Db S × Int) := do
  let T ← db.tab t
  let (T', id) ← T.insertNext row
  let after := db.set t T'
  if S.notNull t row && !db.clash t id row && after.refsHold t row then some (after, id) else none

/-- `INSERT OR IGNORE` with the id given: a conflict skips the row, a dangling
    reference is still an error. -/
def insertOrIgnore (db : Db S) (t : S.Tab) (id : Int) (row : S.Row t) : Option (Db S) := do
  let T ← db.tab t
  if T.has id || !S.notNull t row || db.clash t id row then some db
  else
    let T' ← T.insertAt id row
    let after := db.set t T'
    if after.refsHold t row then some after else none

/-- `UPDATE … WHERE id = ?`, with the number of rows changed. -/
def update (db : Db S) (t : S.Tab) (id : Int) (row : S.Row t) : Option (Db S × Nat) := do
  let T ← db.tab t
  if T.has id then
    let after := db.set t (T.update id row)
    if S.notNull t row && !db.clash t id row && after.refsHold t row then some (after, 1) else none
  else some (db, 0)

/-- `DELETE … WHERE id = ?`, with the number of rows changed. -/
def delete (db : Db S) (t : S.Tab) (id : Int) : Option (Db S × Nat) := do
  let T ← db.tab t
  if T.has id then
    let after := db.set t (T.delete id)
    if after.referenced t id then none else some (after, 1)
  else some (db, 0)

end Db

/-- The statements of a schema script. -/
inductive Stmt (S : Schema) where
  | pragma
  | createTable (t : S.Tab)
  | createUniqueIndex (t : S.Tab)
  | createIndex (i : S.Index)
  | insertOrIgnore (t : S.Tab) (id : Int) (row : S.Row t)

/-- One statement, with `IF NOT EXISTS` on each creation. An index needs its
    table, and a unique index needs the rows already there to be distinct. -/
def Stmt.exec (db : Db S) : Stmt S → Option (Db S)
  | .pragma => some db
  | .createTable t => if (db.tab t).isSome then some db else some (db.set t Table.empty)
  | .createUniqueIndex t =>
    if db.unique t then some db
    else
      match db.tab t with
      | none => none
      | some T =>
        if T.rows.any (fun r => Db.sameKey T.rows r.1 r.2) then none
        else some { db with unique := Function.update db.unique t true }
  | .createIndex i =>
    if db.index i then some db
    else if (db.tab (S.on i)).isSome then
      some { db with index := Function.update db.index i true }
    else none
  | .insertOrIgnore t id row => db.insertOrIgnore t id row

/-- Run a script. The first failing statement ends it, with what came before
    kept; `fault` says which statement the system fails, if any. -/
def execScript : Option Nat → List (Stmt S) → Db S → Bool × Db S
  | _, [], db => (true, db)
  | some 0, _ :: _, db => (false, db)
  | fault, s :: l, db =>
    match s.exec db with
    | none => (false, db)
    | some db' => execScript (fault.map (· - 1)) l db'

/-- References, not-null columns and unique keys hold. -/
structure Sound (db : Db S) : Prop where
  refs : ∀ t, ∀ r ∈ db.rows t, ∀ p ∈ S.refs t r.2, db.present p = true
  notNull : ∀ t, ∀ r ∈ db.rows t, S.notNull t r.2 = true
  unique : ∀ t, db.unique t = true → ∀ r ∈ db.rows t, ∀ r' ∈ db.rows t, ∀ k,
    S.key t r.2 = some k → S.key t r'.2 = some k → r.1 = r'.1

/-- Soundness is kept, and what was used or created stays so. -/
structure Evolves (db db' : Db S) : Prop where
  sound : Sound db → Sound db'
  seq : ∀ t, db.seq t ≤ db'.seq t
  tab : ∀ t, (db.tab t).isSome → (db'.tab t).isSome
  unique : ∀ t, db.unique t = true → db'.unique t = true

theorem Evolves.refl (db : Db S) : Evolves db db :=
  ⟨id, fun _ => Int.le_refl _, fun _ => id, fun _ => id⟩

theorem Evolves.trans {a b c : Db S} (hab : Evolves a b) (hbc : Evolves b c) : Evolves a c where
  sound := fun h => hbc.sound (hab.sound h)
  seq := fun t => Int.le_trans (hab.seq t) (hbc.seq t)
  tab := fun t h => hbc.tab t (hab.tab t h)
  unique := fun t h => hbc.unique t (hab.unique t h)

namespace Db

section Set

variable {db : Db S} {t u : S.Tab} {T : Table (S.Row t)}

@[simp]
theorem tab_set_self : (db.set t T).tab t = some T := Function.update_self ..

theorem tab_set_of_ne (h : u ≠ t) : (db.set t T).tab u = db.tab u := Function.update_of_ne h ..

@[simp]
theorem rows_set_self : (db.set t T).rows t = T.rows := by
  rw [rows, tab_set_self]

theorem rows_set_of_ne (h : u ≠ t) : (db.set t T).rows u = db.rows u := by
  rw [rows, rows, tab_set_of_ne h]

@[simp]
theorem present_set_self (i : Int) : (db.set t T).present (t, i) = T.has i := by
  simp only [present, tab_set_self]

theorem present_set_of_ne (h : u ≠ t) (i : Int) :
    (db.set t T).present (u, i) = db.present (u, i) := by
  simp only [present, tab_set_of_ne h]

@[simp]
theorem seq_set_self : (db.set t T).seq t = T.seq := by
  rw [seq, tab_set_self]

theorem seq_set_of_ne (h : u ≠ t) : (db.set t T).seq u = db.seq u := by
  rw [seq, seq, tab_set_of_ne h]

@[simp]
theorem unique_set : (db.set t T).unique = db.unique := rfl

theorem rows_of_tab (h : db.tab t = some T) : db.rows t = T.rows := by
  rw [rows, h]

theorem present_of_tab (h : db.tab t = some T) (i : Int) : db.present (t, i) = T.has i := by
  simp only [present, h]

theorem seq_of_tab (h : db.tab t = some T) : db.seq t = T.seq := by
  rw [seq, h]

/-- Ids stay used when they do in the table replaced. -/
theorem seq_le_set (h : db.seq t ≤ T.seq) (u : S.Tab) : db.seq u ≤ (db.set t T).seq u := by
  by_cases hu : u = t
  · subst hu
    rw [seq_set_self]
    exact h
  · exact Int.le_of_eq (seq_set_of_ne hu).symm

/-- Tables that exist still do. -/
theorem isSome_tab_set (u : S.Tab) (h : (db.tab u).isSome) : ((db.set t T).tab u).isSome := by
  by_cases hu : u = t
  · subst hu
    rw [tab_set_self]
    rfl
  · rw [tab_set_of_ne hu]
    exact h

end Set

theorem present_iff {db : Db S} {t : S.Tab} {id : Int} :
    db.present (t, id) = true ↔ ∃ row, (id, row) ∈ db.rows t := by
  rcases h : db.tab t with _ | T
  · simp only [present, rows, h, Bool.false_eq_true, List.not_mem_nil, exists_false]
  · rw [present_of_tab h, rows_of_tab h, Table.has_iff]

theorem get?_eq_some {db : Db S} {t : S.Tab} {id : Int} {row : S.Row t} :
    db.get? t id = some row ↔ (id, row) ∈ db.rows t := by
  rcases h : db.tab t with _ | T
  · simp only [get?, rows, h, reduceCtorEq, List.not_mem_nil]
  · simp only [get?, rows, h]
    exact Table.get?_eq_some

/-- The rows of a table are in id order. -/
theorem rows_ascending (db : Db S) (t : S.Tab) :
    (db.rows t).Pairwise (fun r r' => r.1 < r'.1) := by
  rcases h : db.tab t with _ | T
  · simp only [rows, h, List.Pairwise.nil]
  · simp only [rows, h]
    exact T.ascending

/-- An id in use is at least 1 and at most the largest id used. -/
theorem id_bounds {db : Db S} {t : S.Tab} {r : Int × S.Row t} (hr : r ∈ db.rows t) :
    1 ≤ r.1 ∧ r.1 ≤ db.seq t := by
  rcases h : db.tab t with _ | T
  · simp only [rows, h, List.not_mem_nil] at hr
  · rw [rows_of_tab h] at hr
    rw [seq_of_tab h]
    exact ⟨T.one_le r hr, T.le_seq r hr⟩

theorem row_unique {db : Db S} {t : S.Tab} {r r' : Int × S.Row t} (hr : r ∈ db.rows t)
    (hr' : r' ∈ db.rows t) (hid : r.1 = r'.1) : r = r' := by
  rcases h : db.tab t with _ | T
  · simp only [rows, h, List.not_mem_nil] at hr
  · rw [rows_of_tab h] at hr hr'
    exact Table.eq_of_mem hr hr' hid

/-- Without another row of the same key, two rows that share one are the same. -/
theorem sameKey_eq_false {t : S.Tab} {rows : List (Int × S.Row t)} {id : Int} {row : S.Row t}
    (h : sameKey rows id row = false) {r : Int × S.Row t} (hr : r ∈ rows) {k : S.Key}
    (hk : S.key t r.2 = some k) (hrow : S.key t row = some k) : r.1 = id := by
  rw [sameKey, List.any_eq_false] at h
  have hno := h r hr
  by_contra hne
  apply hno
  simp only [hk, hrow, Option.isSome_some, decide_true, Bool.and_true, decide_eq_true_eq]
  exact hne

end Db

/-- Writing one row that was checked keeps the store sound: the other rows are
    old ones, and no id in use was given up. -/
theorem Sound.write {db : Db S} (h : Sound db) {t : S.Tab} {T : Table (S.Row t)} {id : Int}
    {row : S.Row t} (hrows : ∀ r ∈ T.rows, (r ∈ db.rows t ∧ r.1 ≠ id) ∨ r = (id, row))
    (hkeep : ∀ i, db.present (t, i) = true → T.has i = true) (hnull : S.notNull t row = true)
    (hclash : db.clash t id row = false) (hrefs : (db.set t T).refsHold t row = true) :
    Sound (db.set t T) := by
  -- No reference is left dangling, in this table or in the others.
  have hpresent : ∀ p, db.present p = true → (db.set t T).present p = true := by
    rintro ⟨u, i⟩ hp
    by_cases hu : u = t
    · subst hu
      rw [Db.present_set_self]
      exact hkeep i hp
    · rw [Db.present_set_of_ne hu]
      exact hp
  refine ⟨fun u r hr p hp => ?_, fun u r hr => ?_, fun u hu r hr r' hr' k hk hk' => ?_⟩
  · by_cases hut : u = t
    · subst hut
      rw [Db.rows_set_self] at hr
      rcases hrows r hr with ⟨hold, _⟩ | rfl
      · exact hpresent p (h.refs u r hold p hp)
      · exact List.all_eq_true.mp hrefs p hp
    · rw [Db.rows_set_of_ne hut] at hr
      exact hpresent p (h.refs u r hr p hp)
  · by_cases hut : u = t
    · subst hut
      rw [Db.rows_set_self] at hr
      rcases hrows r hr with ⟨hold, _⟩ | rfl
      · exact h.notNull u r hold
      · exact hnull
    · rw [Db.rows_set_of_ne hut] at hr
      exact h.notNull u r hr
  · rw [Db.unique_set] at hu
    by_cases hut : u = t
    · subst hut
      rw [Db.rows_set_self] at hr hr'
      -- Two old rows were distinct before; the new one was checked against the old.
      rw [Db.clash, hu, Bool.true_and] at hclash
      rcases hrows r hr with ⟨hold, hne⟩ | rfl
      · rcases hrows r' hr' with ⟨hold', _⟩ | rfl
        · exact h.unique u hu r hold r' hold' k hk hk'
        · exact Db.sameKey_eq_false hclash hold hk hk'
      · rcases hrows r' hr' with ⟨hold', _⟩ | rfl
        · exact (Db.sameKey_eq_false hclash hold' hk' hk).symm
        · rfl
    · rw [Db.rows_set_of_ne hut] at hr hr'
      exact h.unique u hu r hr r' hr' k hk hk'

/-- A checked write evolves the store. -/
theorem evolves_write {db : Db S} {t : S.Tab} {T₀ T : Table (S.Row t)} (htab : db.tab t = some T₀)
    {id : Int} {row : S.Row t} (hseq : T₀.seq ≤ T.seq)
    (hrows : ∀ r ∈ T.rows, (r ∈ T₀.rows ∧ r.1 ≠ id) ∨ r = (id, row))
    (hkeep : ∀ i, T₀.has i = true → T.has i = true) (hnull : S.notNull t row = true)
    (hclash : db.clash t id row = false) (hrefs : (db.set t T).refsHold t row = true) :
    Evolves db (db.set t T) := by
  have hle : db.seq t ≤ T.seq := by
    rw [Db.seq_of_tab htab]
    exact hseq
  refine ⟨fun h => h.write ?_ ?_ hnull hclash hrefs, Db.seq_le_set hle, Db.isSome_tab_set,
    fun u hu => hu⟩
  · rw [Db.rows_of_tab htab]
    exact hrows
  · intro i hi
    rw [Db.present_of_tab htab] at hi
    exact hkeep i hi

/-- What an insertion that succeeds did. -/
theorem insert_eq_some {db db' : Db S} {t : S.Tab} {row : S.Row t} {id : Int}
    (h : db.insert t row = some (db', id)) :
    ∃ T T', db.tab t = some T ∧ T.insertNext row = some (T', id) ∧ db' = db.set t T' ∧
      S.notNull t row = true ∧ db.clash t id row = false ∧ db'.refsHold t row = true := by
  rw [Db.insert] at h
  simp only [Option.bind_eq_bind, Option.bind_eq_some_iff, Prod.exists] at h
  rcases h with ⟨T, htab, T', id', hnext, hif⟩
  by_cases hcond : (S.notNull t row && !db.clash t id' row && (db.set t T').refsHold t row) = true
  · rw [if_pos hcond, Option.some.injEq, Prod.mk.injEq] at hif
    rcases hif with ⟨rfl, rfl⟩
    simp only [Bool.and_eq_true, Bool.not_eq_true'] at hcond
    exact ⟨T, T', htab, hnext, rfl, hcond.1.1, hcond.1.2, hcond.2⟩
  · rw [if_neg hcond] at hif
    simp only [reduceCtorEq] at hif

theorem evolves_insert {db db' : Db S} {t : S.Tab} {row : S.Row t} {id : Int}
    (h : db.insert t row = some (db', id)) : Evolves db db' := by
  rcases insert_eq_some h with ⟨T, T', htab, hnext, rfl, hnull, hclash, hrefs⟩
  rcases Table.insertNext_spec hnext with ⟨rfl, hseq, hrows⟩
  -- The rows are those from before, whose ids are below the new one, and the new row.
  refine evolves_write htab (by omega) (fun r hr => ?_) (fun i hi => ?_) hnull hclash hrefs
  · rw [hrows, List.mem_append, List.mem_singleton] at hr
    rcases hr with hr | hr
    · have hle := T.le_seq r hr
      exact Or.inl ⟨hr, by omega⟩
    · exact Or.inr hr
  · rw [Table.has_iff] at hi ⊢
    rcases hi with ⟨a, ha⟩
    exact ⟨a, by rw [hrows]; exact List.mem_append_left _ ha⟩

/-- The rows after an insertion. -/
theorem rows_insert {db db' : Db S} {t : S.Tab} {row : S.Row t} {id : Int}
    (h : db.insert t row = some (db', id)) : db'.rows t = db.rows t ++ [(id, row)] := by
  rcases insert_eq_some h with ⟨T, T', htab, hnext, rfl, _, _, _⟩
  rw [Db.rows_set_self, Db.rows_of_tab htab, (Table.insertNext_spec hnext).2.2]

/-- The other tables are left alone. -/
theorem tab_insert_of_ne {db db' : Db S} {t u : S.Tab} {row : S.Row t} {id : Int}
    (h : db.insert t row = some (db', id)) (hu : u ≠ t) : db'.tab u = db.tab u := by
  rcases insert_eq_some h with ⟨T, T', _, _, rfl, _, _, _⟩
  exact Db.tab_set_of_ne hu

theorem rows_insert_of_ne {db db' : Db S} {t u : S.Tab} {row : S.Row t} {id : Int}
    (h : db.insert t row = some (db', id)) (hu : u ≠ t) : db'.rows u = db.rows u := by
  rw [Db.rows, Db.rows, tab_insert_of_ne h hu]

/-- A row that exists still does after an insertion. -/
theorem present_insert {db db' : Db S} {t : S.Tab} {row : S.Row t} {id : Int}
    (h : db.insert t row = some (db', id)) {p : S.Tab × Int} (hp : db.present p = true) :
    db'.present p = true := by
  rcases p with ⟨u, i⟩
  rcases Db.present_iff.mp hp with ⟨a, ha⟩
  by_cases hu : u = t
  · subst hu
    refine Db.present_iff.mpr ⟨a, ?_⟩
    rw [rows_insert h]
    exact List.mem_append_left _ ha
  · refine Db.present_iff.mpr ⟨a, ?_⟩
    rw [rows_insert_of_ne h hu]
    exact ha

/-- An insertion succeeds when the table exists and has an id left, the row passes
    its not-null columns, none has its key, and the rows it refers to exist. -/
theorem insert_succeeds {db : Db S} {t : S.Tab} {row : S.Row t} (htab : (db.tab t).isSome)
    (hids : db.seq t < maxRowid) (hnull : S.notNull t row = true)
    (hclash : db.clash t (db.seq t + 1) row = false)
    (hrefs : ∀ p ∈ S.refs t row, db.present p = true) :
    ∃ db' id, db.insert t row = some (db', id) := by
  rcases Option.isSome_iff_exists.mp htab with ⟨T, hT⟩
  rw [Db.seq_of_tab hT] at hids hclash
  have hnext : ∃ T', T.insertNext row = some (T', T.seq + 1) := by
    unfold Table.insertNext
    rw [if_pos hids]
    exact ⟨_, rfl⟩
  rcases hnext with ⟨T', hnext⟩
  have hafter : (db.set t T').refsHold t row = true := by
    rw [Db.refsHold, List.all_eq_true]
    rintro ⟨u, i⟩ hp
    have hbefore := hrefs (u, i) hp
    by_cases hu : u = t
    -- A reference into the same table is to a row that was there before.
    · subst hu
      rw [Db.present_of_tab hT, Table.has_iff] at hbefore
      rcases hbefore with ⟨a, ha⟩
      rw [Db.present_set_self, Table.has_iff, (Table.insertNext_spec hnext).2.2]
      exact ⟨a, List.mem_append_left _ ha⟩
    · rw [Db.present_set_of_ne hu]
      exact hbefore
  refine ⟨db.set t T', T.seq + 1, ?_⟩
  rw [Db.insert, hT]
  simp only [Option.bind_eq_bind, Option.bind_some, hnext, hnull, hclash, hafter, Bool.not_false,
    Bool.and_self, if_true]

/-- When an insertion of a row that refers to other tables only succeeds. -/
theorem insert_isSome_iff {db : Db S} {t : S.Tab} {row : S.Row t}
    (hother : ∀ p ∈ S.refs t row, p.1 ≠ t) :
    (∃ db' id, db.insert t row = some (db', id)) ↔
      (db.tab t).isSome ∧ db.seq t < maxRowid ∧ S.notNull t row = true ∧
        db.clash t (db.seq t + 1) row = false ∧ ∀ p ∈ S.refs t row, db.present p = true := by
  constructor
  · rintro ⟨db', id, hins⟩
    rcases insert_eq_some hins with ⟨T, T', htab, hnext, rfl, hnull, hclash, hrefs⟩
    -- The id that was handed out is the next one, so the key was free under it.
    rw [(Table.insertNext_spec hnext).1, ← Db.seq_of_tab htab] at hclash
    refine ⟨by rw [htab]; rfl, ?_, hnull, hclash, ?_⟩
    · rw [Db.seq_of_tab htab]
      exact Table.seq_lt_of_insertNext hnext
    -- The tables the row refers to are as they were.
    · rintro ⟨u, i⟩ hp
      have hafter := List.all_eq_true.mp hrefs (u, i) hp
      rw [Db.present_set_of_ne (hother _ hp)] at hafter
      exact hafter
  · rintro ⟨htab, hids, hnull, hclash, hrefs⟩
    exact insert_succeeds htab hids hnull hclash hrefs

/-- A row without a key clashes with no other. -/
theorem clash_of_key_eq_none {db : Db S} {t : S.Tab} {row : S.Row t}
    (h : S.key t row = none) (id : Int) : db.clash t id row = false := by
  have hsame : ∀ r ∈ db.rows t,
      (decide (r.1 ≠ id) && (S.key t r.2).isSome && decide (S.key t r.2 = S.key t row))
        = false := by
    intro r _
    rw [h]
    -- A row without a key is equal to none, and one with a key is no other's.
    cases S.key t r.2 with
    | none => rw [Option.isSome_none, Bool.and_false, Bool.false_and]
    | some k => rw [decide_eq_false (Option.some_ne_none k), Bool.and_false]
  rw [Db.clash, Db.sameKey, List.any_eq_false.mpr (fun r hr => ?_), Bool.and_false]
  rw [hsame r hr]
  exact Bool.false_ne_true

/-- The index lets a row under the next id in when no row has its key. -/
theorem clash_next_eq_false {db : Db S} {t : S.Tab} (hunique : db.unique t = true)
    {row : S.Row t} {k : S.Key} (hk : S.key t row = some k) :
    db.clash t (db.seq t + 1) row = false ↔ ∀ r ∈ db.rows t, S.key t r.2 ≠ some k := by
  rw [Db.clash, hunique, Bool.true_and]
  constructor
  · intro hsame r hr hkey
    -- Only the row itself could have the key, and its id is in use already.
    have hid := Db.sameKey_eq_false hsame hr hkey hk
    have hle := (Db.id_bounds hr).2
    omega
  · intro hfree
    rw [Db.sameKey, List.any_eq_false]
    intro r hr
    simp only [hk, hfree r hr, decide_false, Bool.and_false, Bool.false_eq_true,
      not_false_eq_true]

/-- An inserted row has an id above every id used so far. -/
theorem insert_fresh {db db' : Db S} {t : S.Tab} {row : S.Row t} {id : Int}
    (h : db.insert t row = some (db', id)) :
    id = db.seq t + 1 ∧ 1 ≤ id ∧ (id, row) ∈ db'.rows t := by
  rcases insert_eq_some h with ⟨T, T', htab, hnext, rfl, _, _, _⟩
  rcases Table.insertNext_spec hnext with ⟨rfl, _, hrows⟩
  have hnonneg := T.seq_nonneg
  refine ⟨by rw [Db.seq_of_tab htab], by omega, ?_⟩
  rw [Db.rows_set_self, hrows]
  exact List.mem_append_right _ (List.mem_singleton.mpr rfl)

/-- The other rows are as they were. -/
theorem get?_insert_of_ne {db db' : Db S} {t u : S.Tab} {id i : Int} {row : S.Row t}
    (h : db.insert t row = some (db', id)) (hne : u ≠ t ∨ i ≠ id) :
    db'.get? u i = db.get? u i := by
  refine Option.ext fun a => ?_
  rw [Db.get?_eq_some, Db.get?_eq_some]
  by_cases hu : u = t
  · subst hu
    have hi : i ≠ id := hne.resolve_left (fun hu => hu rfl)
    rw [rows_insert h, List.mem_append, List.mem_singleton]
    refine ⟨fun hr => hr.resolve_right fun heq => hi (congrArg Prod.fst heq), Or.inl⟩
  · rw [rows_insert_of_ne h hu]

/-- An insertion uses up one id. -/
theorem seq_insert {db db' : Db S} {t : S.Tab} {row : S.Row t} {id : Int}
    (h : db.insert t row = some (db', id)) : db'.seq t = db.seq t + 1 := by
  rcases insert_eq_some h with ⟨T, T', htab, hnext, rfl, _, _, _⟩
  rw [Db.seq_set_self, Db.seq_of_tab htab, (Table.insertNext_spec hnext).2.1]

/-- An insertion leaves the ids of other tables alone. -/
theorem seq_insert_of_ne {db db' : Db S} {t u : S.Tab} {row : S.Row t} {id : Int}
    (h : db.insert t row = some (db', id)) (hne : u ≠ t) : db'.seq u = db.seq u := by
  rcases insert_eq_some h with ⟨T, T', _, _, rfl, _, _, _⟩
  exact Db.seq_set_of_ne hne

/-- What an insertion of a given id that succeeds did: it was ignored, or the row
    took its place. -/
theorem insertOrIgnore_eq_some {db db' : Db S} {t : S.Tab} {id : Int} {row : S.Row t}
    (h : db.insertOrIgnore t id row = some db') :
    db' = db ∨
    ∃ T T', db.tab t = some T ∧ T.has id = false ∧ T.insertAt id row = some T' ∧
      db' = db.set t T' ∧ S.notNull t row = true ∧ db.clash t id row = false ∧
      db'.refsHold t row = true := by
  rw [Db.insertOrIgnore] at h
  simp only [Option.bind_eq_bind, Option.bind_eq_some_iff] at h
  rcases h with ⟨T, htab, h⟩
  -- A row that clashes is left out without an error; a reference that fails is an error.
  by_cases hskip : (T.has id || !S.notNull t row || db.clash t id row) = true
  · rw [if_pos hskip, Option.some.injEq] at h
    exact Or.inl h.symm
  · rw [if_neg hskip] at h
    simp only [Option.bind_eq_some_iff] at h
    rcases h with ⟨T', hput, h⟩
    simp only [Bool.or_eq_true, not_or, Bool.not_eq_true, Bool.not_eq_false'] at hskip
    by_cases hrefs : (db.set t T').refsHold t row = true
    · rw [if_pos hrefs, Option.some.injEq] at h
      subst h
      exact Or.inr ⟨T, T', htab, hskip.1.1, hput, rfl, hskip.1.2, hskip.2, hrefs⟩
    · rw [if_neg hrefs] at h
      simp only [reduceCtorEq] at h

theorem evolves_insertOrIgnore {db db' : Db S} {t : S.Tab} {id : Int} {row : S.Row t}
    (h : db.insertOrIgnore t id row = some db') : Evolves db db' := by
  rcases insertOrIgnore_eq_some h with rfl | ⟨T, T', htab, hfree, hput, rfl, hnull, hclash, hrefs⟩
  · exact Evolves.refl _
  · rcases Table.mem_insertAt hput with ⟨hseq, hmem⟩
    refine evolves_write htab (by rw [hseq]; exact Int.le_max_left _ _) (fun r hr => ?_)
      (fun i hi => ?_) hnull hclash hrefs
    · rcases (hmem r).mp hr with hr | hr
      · exact Or.inr hr
      · exact Or.inl ⟨hr, Table.has_eq_false_iff.mp hfree r hr⟩
    · rw [Table.has_iff] at hi ⊢
      rcases hi with ⟨a, ha⟩
      exact ⟨a, (hmem _).mpr (Or.inr ha)⟩

/-- What an update that succeeds did: it found no row and changed nothing, or it
    replaced the row. -/
theorem update_eq_some {db db' : Db S} {t : S.Tab} {id : Int} {row : S.Row t} {n : Nat}
    (h : db.update t id row = some (db', n)) :
    (n = 0 ∧ db' = db ∧ db.present (t, id) = false) ∨
    ∃ T, n = 1 ∧ db.tab t = some T ∧ T.has id = true ∧ db' = db.set t (T.update id row) ∧
      S.notNull t row = true ∧ db.clash t id row = false ∧ db'.refsHold t row = true := by
  rw [Db.update] at h
  simp only [Option.bind_eq_bind, Option.bind_eq_some_iff] at h
  rcases h with ⟨T, htab, h⟩
  -- Without a row of that id nothing is written and nothing is checked.
  by_cases hhas : T.has id = true
  · rw [if_pos hhas] at h
    by_cases hcond : (S.notNull t row && !db.clash t id row &&
        (db.set t (T.update id row)).refsHold t row) = true
    · rw [if_pos hcond, Option.some.injEq, Prod.mk.injEq] at h
      rcases h with ⟨rfl, rfl⟩
      simp only [Bool.and_eq_true, Bool.not_eq_true'] at hcond
      exact Or.inr ⟨T, rfl, htab, hhas, rfl, hcond.1.1, hcond.1.2, hcond.2⟩
    · rw [if_neg hcond] at h
      simp only [reduceCtorEq] at h
  · rw [if_neg hhas, Option.some.injEq, Prod.mk.injEq] at h
    refine Or.inl ⟨h.2.symm, h.1.symm, ?_⟩
    rw [Db.present_of_tab htab]
    exact Bool.not_eq_true _ ▸ hhas

theorem rows_update_of_ne {db db' : Db S} {t u : S.Tab} {id : Int} {row : S.Row t} {n : Nat}
    (h : db.update t id row = some (db', n)) (hu : u ≠ t) : db'.rows u = db.rows u := by
  rcases update_eq_some h with ⟨_, rfl, _⟩ | ⟨T, _, _, _, rfl, _⟩
  · rfl
  · exact Db.rows_set_of_ne hu

/-- When an update of a row that refers to other tables only replaces it. -/
theorem update_isSome_iff {db : Db S} {t : S.Tab} {id : Int} {row : S.Row t}
    (hother : ∀ p ∈ S.refs t row, p.1 ≠ t) :
    (∃ db', db.update t id row = some (db', 1)) ↔
      db.present (t, id) = true ∧ S.notNull t row = true ∧ db.clash t id row = false ∧
        ∀ p ∈ S.refs t row, db.present p = true := by
  -- The tables the row refers to are the same before and after.
  have hrefs : ∀ T : Table (S.Row t), (db.set t T).refsHold t row = true ↔
      ∀ p ∈ S.refs t row, db.present p = true := by
    intro T
    rw [Db.refsHold, List.all_eq_true]
    refine forall₂_congr fun p hp => ?_
    rw [Db.present_set_of_ne (hother p hp)]
  constructor
  · rintro ⟨db', hupd⟩
    rcases update_eq_some hupd with ⟨hn, _⟩ | ⟨T, _, htab, hhas, rfl, hnull, hclash, hafter⟩
    · omega
    · exact ⟨by rw [Db.present_of_tab htab]; exact hhas, hnull, hclash, (hrefs _).mp hafter⟩
  · rintro ⟨hpresent, hnull, hclash, hafter⟩
    rcases htab : db.tab t with _ | T
    · simp only [Db.present, htab, Bool.false_eq_true] at hpresent
    · rw [Db.present_of_tab htab] at hpresent
      refine ⟨db.set t (T.update id row), ?_⟩
      rw [Db.update, htab]
      simp only [Option.bind_eq_bind, Option.bind_some, hpresent, hnull, hclash,
        (hrefs (T.update id row)).mpr hafter, Bool.not_false, Bool.and_self, if_true]

/-- The rows after one was replaced. -/
theorem mem_rows_update {db db' : Db S} {t : S.Tab} {id : Int} {row : S.Row t}
    (h : db.update t id row = some (db', 1)) (r : Int × S.Row t) :
    r ∈ db'.rows t ↔ (r ∈ db.rows t ∧ r.1 ≠ id) ∨ r = (id, row) := by
  rcases update_eq_some h with ⟨hn, _⟩ | ⟨T, _, htab, hhas, rfl, _⟩
  · omega
  · rw [Db.rows_set_self, Db.rows_of_tab htab]
    refine ⟨fun hr => Table.mem_update hr, ?_⟩
    rintro (⟨hr, hne⟩ | rfl)
    · exact Table.mem_update_of_ne hr hne
    · exact Table.mem_update_self hhas

/-- The other rows are as they were. -/
theorem get?_update_of_ne {db db' : Db S} {t u : S.Tab} {id i : Int} {row : S.Row t}
    (h : db.update t id row = some (db', 1)) (hne : u ≠ t ∨ i ≠ id) :
    db'.get? u i = db.get? u i := by
  refine Option.ext fun a => ?_
  rw [Db.get?_eq_some, Db.get?_eq_some]
  by_cases hu : u = t
  · subst hu
    have hi : i ≠ id := hne.resolve_left (fun hu => hu rfl)
    rw [mem_rows_update h]
    constructor
    · rintro (⟨hr, _⟩ | heq)
      · exact hr
      · exact absurd (congrArg Prod.fst heq) hi
    · intro hr
      exact Or.inl ⟨hr, hi⟩
  · rw [rows_update_of_ne h hu]

theorem length_rows_update {db db' : Db S} {t : S.Tab} {id : Int} {row : S.Row t}
    (h : db.update t id row = some (db', 1)) : (db'.rows t).length = (db.rows t).length := by
  rcases update_eq_some h with ⟨hn, _⟩ | ⟨T, _, htab, _, rfl, _⟩
  · omega
  · rw [Db.rows_set_self, Db.rows_of_tab htab]
    exact List.length_map _

theorem evolves_update {db db' : Db S} {t : S.Tab} {id : Int} {row : S.Row t} {n : Nat}
    (h : db.update t id row = some (db', n)) : Evolves db db' := by
  rcases update_eq_some h with ⟨_, rfl, _⟩ | ⟨T, _, htab, _, rfl, hnull, hclash, hrefs⟩
  · exact Evolves.refl _
  · refine evolves_write htab (Int.le_refl _) (fun r hr => Table.mem_update hr) (fun i hi => ?_)
      hnull hclash hrefs
    rw [Table.has_update]
    exact hi

/-- What a deletion that succeeds did: it found no row and changed nothing, or it
    removed a row no remaining row refers to. -/
theorem delete_eq_some {db db' : Db S} {t : S.Tab} {id : Int} {n : Nat}
    (h : db.delete t id = some (db', n)) :
    (n = 0 ∧ db' = db ∧ db.present (t, id) = false) ∨
    ∃ T, n = 1 ∧ db.tab t = some T ∧ T.has id = true ∧ db' = db.set t (T.delete id) ∧
      db'.referenced t id = false := by
  rw [Db.delete] at h
  simp only [Option.bind_eq_bind, Option.bind_eq_some_iff] at h
  rcases h with ⟨T, htab, h⟩
  by_cases hhas : T.has id = true
  · rw [if_pos hhas] at h
    -- What refers to the row is looked for when it is gone.
    by_cases href : (db.set t (T.delete id)).referenced t id = true
    · rw [if_pos href] at h
      simp only [reduceCtorEq] at h
    · rw [if_neg href, Option.some.injEq, Prod.mk.injEq] at h
      rcases h with ⟨rfl, rfl⟩
      exact Or.inr ⟨T, rfl, htab, hhas, rfl, Bool.not_eq_true _ ▸ href⟩
  · rw [if_neg hhas, Option.some.injEq, Prod.mk.injEq] at h
    refine Or.inl ⟨h.2.symm, h.1.symm, ?_⟩
    rw [Db.present_of_tab htab]
    exact Bool.not_eq_true _ ▸ hhas

theorem rows_delete_of_ne {db db' : Db S} {t u : S.Tab} {id : Int} {n : Nat}
    (h : db.delete t id = some (db', n)) (hu : u ≠ t) : db'.rows u = db.rows u := by
  rcases delete_eq_some h with ⟨_, rfl, _⟩ | ⟨T, _, _, _, rfl, _⟩
  · rfl
  · exact Db.rows_set_of_ne hu

theorem not_mem_refs_of_referenced {db : Db S} {t u : S.Tab} {id : Int}
    (h : db.referenced t id = false) {r : Int × S.Row u} (hr : r ∈ db.rows u) :
    (t, id) ∉ S.refs u r.2 := by
  rw [Db.referenced, List.any_eq_false] at h
  have hu := h u (S.mem_tabs u)
  rw [Bool.not_eq_true, List.any_eq_false] at hu
  have hno := hu r hr
  rw [List.contains_iff_mem] at hno
  exact hno

theorem evolves_delete {db db' : Db S} {t : S.Tab} {id : Int} {n : Nat}
    (h : db.delete t id = some (db', n)) : Evolves db db' := by
  rcases delete_eq_some h with ⟨_, rfl, _⟩ | ⟨T, _, htab, _, rfl, href⟩
  · exact Evolves.refl _
  -- The rows that remain were there before, and refer to other rows.
  · have hold : ∀ u, ∀ r ∈ (db.set t (T.delete id)).rows u, r ∈ db.rows u := by
      intro u r hr
      by_cases hu : u = t
      · subst hu
        rw [Db.rows_set_self] at hr
        rw [Db.rows_of_tab htab]
        exact (Table.mem_delete.mp hr).1
      · rw [Db.rows_set_of_ne hu] at hr
        exact hr
    have hseq : db.seq t ≤ (T.delete id).seq :=
      Int.le_of_eq ((Db.seq_of_tab htab).trans (Table.seq_delete T id).symm)
    refine ⟨fun hs => ⟨fun u r hr p hp => ?_, fun u r hr => hs.notNull u r (hold u r hr),
      fun u hu r hr r' hr' => hs.unique u hu r (hold u r hr) r' (hold u r' hr')⟩,
      Db.seq_le_set hseq, Db.isSome_tab_set, fun u hu => hu⟩
    rcases p with ⟨v, i⟩
    -- A reference that remains is to another row than the one removed.
    have hpres := hs.refs u r (hold u r hr) (v, i) hp
    by_cases hv : v = t
    · subst hv
      have hne : i ≠ id := by
        intro hid
        exact not_mem_refs_of_referenced href hr (hid ▸ hp)
      rw [Db.present_of_tab htab, Table.has_iff] at hpres
      rcases hpres with ⟨a, ha⟩
      rw [Db.present_set_self, Table.has_iff]
      exact ⟨a, Table.mem_delete.mpr ⟨ha, hne⟩⟩
    · rw [Db.present_set_of_ne hv]
      exact hpres

/-- Creating a table that did not exist changes no rows. -/
theorem rows_set_empty {db : Db S} {t : S.Tab} (h : db.tab t = none) (u : S.Tab) :
    (db.set t Table.empty).rows u = db.rows u := by
  by_cases hu : u = t
  · subst hu
    rw [Db.rows_set_self, Db.rows, h]
    rfl
  · exact Db.rows_set_of_ne hu

/-- A table that did not exist is created empty. -/
theorem evolves_createTable {db : Db S} {t : S.Tab} (h : db.tab t = none) :
    Evolves db (db.set t Table.empty) := by
  have hpresent : ∀ p, db.present p = true → (db.set t Table.empty).present p = true := by
    -- A table that did not exist had no rows, so no rows have changed.
    rintro ⟨u, i⟩ hp
    rw [Db.present_iff] at hp ⊢
    rw [rows_set_empty h]
    exact hp
  have hseq : db.seq t ≤ (Table.empty : Table (S.Row t)).seq :=
    Int.le_of_eq (by rw [Db.seq, h]; rfl)
  refine ⟨fun hs => ⟨fun u r hr p hp => ?_, fun u r hr => ?_, fun u hu r hr r' hr' => ?_⟩,
    Db.seq_le_set hseq, Db.isSome_tab_set, fun u hu => hu⟩
  · rw [rows_set_empty h] at hr
    exact hpresent p (hs.refs u r hr p hp)
  · rw [rows_set_empty h] at hr
    exact hs.notNull u r hr
  · rw [rows_set_empty h] at hr hr'
    exact hs.unique u hu r hr r' hr'

/-- An index on rows that are distinct keeps the store sound. -/
theorem evolves_createUniqueIndex {db : Db S} {t : S.Tab}
    (h : ∀ r ∈ db.rows t, Db.sameKey (db.rows t) r.1 r.2 = false) :
    Evolves db { db with unique := Function.update db.unique t true } := by
  refine ⟨fun hs => ⟨hs.refs, hs.notNull, fun u hu r hr r' hr' k hk hk' => ?_⟩,
    fun u => Int.le_refl _, fun u hu => hu, fun u hu => ?_⟩
  · by_cases hut : u = t
    -- The rows were found distinct before the index was made.
    · subst hut
      exact Db.sameKey_eq_false (h r' hr') hr hk hk'
    · simp only [Function.update_of_ne hut] at hu
      exact hs.unique u hu r hr r' hr' k hk hk'
  · by_cases hut : u = t
    · subst hut
      exact Function.update_self ..
    · simp only [Function.update_of_ne hut]
      exact hu

section Exec

variable {db db' : Db S}

/-- What creating a table that may exist does. -/
theorem createTable_eq_some {t : S.Tab} (h : (Stmt.createTable t).exec db = some db') :
    ((db.tab t).isSome ∧ db' = db) ∨ (db.tab t = none ∧ db' = db.set t Table.empty) := by
  simp only [Stmt.exec] at h
  split at h
  · next htab =>
      rw [Option.some.injEq] at h
      exact Or.inl ⟨htab, h.symm⟩
  · next htab =>
      rw [Option.some.injEq] at h
      exact Or.inr ⟨Option.not_isSome_iff_eq_none.mp htab, h.symm⟩

/-- What creating a unique index that may exist does. -/
theorem createUniqueIndex_eq_some {t : S.Tab}
    (h : (Stmt.createUniqueIndex t).exec db = some db') :
    (db.unique t = true ∧ db' = db) ∨
    ((∀ r ∈ db.rows t, Db.sameKey (db.rows t) r.1 r.2 = false) ∧
      db' = { db with unique := Function.update db.unique t true }) := by
  simp only [Stmt.exec] at h
  split at h
  · next hunique =>
      rw [Option.some.injEq] at h
      exact Or.inl ⟨hunique, h.symm⟩
  · split at h
    · simp only [reduceCtorEq] at h
    · next T htab =>
        split at h
        · simp only [reduceCtorEq] at h
        · next hdistinct =>
            rw [Option.some.injEq] at h
            rw [Bool.not_eq_true, List.any_eq_false] at hdistinct
            refine Or.inr ⟨fun r hr => ?_, h.symm⟩
            rw [Db.rows_of_tab htab] at hr ⊢
            exact Bool.not_eq_true _ ▸ hdistinct r hr

/-- What creating an index that may exist does. -/
theorem createIndex_eq_some {i : S.Index} (h : (Stmt.createIndex i).exec db = some db') :
    db' = db ∨ db' = { db with index := Function.update db.index i true } := by
  simp only [Stmt.exec] at h
  split at h
  · rw [Option.some.injEq] at h
    exact Or.inl h.symm
  · split at h
    · rw [Option.some.injEq] at h
      exact Or.inr h.symm
    · simp only [reduceCtorEq] at h

/-- Every statement of a script evolves the store. -/
theorem evolves_exec {s : Stmt S} (h : s.exec db = some db') : Evolves db db' := by
  -- Only the unique index adds a constraint, and it is checked before it is made.
  cases s with
  | pragma =>
      simp only [Stmt.exec, Option.some.injEq] at h
      exact h ▸ Evolves.refl db
  | createTable t =>
      rcases createTable_eq_some h with ⟨_, rfl⟩ | ⟨hnone, rfl⟩
      · exact Evolves.refl _
      · exact evolves_createTable hnone
  | createUniqueIndex t =>
      rcases createUniqueIndex_eq_some h with ⟨_, rfl⟩ | ⟨hdistinct, rfl⟩
      · exact Evolves.refl _
      · exact evolves_createUniqueIndex hdistinct
  | createIndex i =>
      rcases createIndex_eq_some h with rfl | rfl
      · exact Evolves.refl _
      -- An index that is not unique constrains nothing.
      · exact ⟨fun hs => ⟨hs.refs, hs.notNull, hs.unique⟩, fun u => Int.le_refl _,
          fun u hu => hu, fun u hu => hu⟩
  | insertOrIgnore t id row => exact evolves_insertOrIgnore h

end Exec

/-- One step of a script. -/
theorem execScript_cons (fault : Option Nat) (s : Stmt S) (l : List (Stmt S)) (db : Db S) :
    execScript fault (s :: l) db = (false, db) ∨
      ∃ db', s.exec db = some db' ∧
        execScript fault (s :: l) db = execScript (fault.map (· - 1)) l db' := by
  rcases hs : s.exec db with _ | db'
  · left
    rcases fault with _ | _ | k <;> simp only [execScript, hs]
  · rcases fault with _ | _ | k
    · exact Or.inr ⟨db', rfl, by simp only [execScript, hs]⟩
    · exact Or.inl (by simp only [execScript])
    · exact Or.inr ⟨db', rfl, by simp only [execScript, hs]⟩

/-- A script evolves the store, however far it gets. -/
theorem evolves_execScript : ∀ (l : List (Stmt S)) (fault : Option Nat) (db : Db S),
    Evolves db (execScript fault l db).2 := by
  intro l
  induction l with
  | nil =>
      intro fault db
      exact Evolves.refl db
  | cons s l ih =>
      intro fault db
      rcases execScript_cons fault s l db with hstop | ⟨db', hs, hgo⟩
      · rw [hstop]
        exact Evolves.refl db
      · rw [hgo]
        exact (evolves_exec hs).trans (ih _ db')

/-- A script that succeeds executed each of its statements, and what it ended
    with evolved from there. -/
theorem execScript_mem {s : Stmt S} : ∀ (l : List (Stmt S)) (fault : Option Nat) (db db' : Db S),
    execScript fault l db = (true, db') → s ∈ l →
    ∃ before after, s.exec before = some after ∧ Evolves after db' := by
  intro l
  induction l with
  | nil =>
      intro fault db db' _ hmem
      exact absurd hmem List.not_mem_nil
  | cons s' l ih =>
      intro fault db db' hrun hmem
      rcases execScript_cons fault s' l db with hstop | ⟨db₁, hs, hgo⟩
      · rw [hstop, Prod.mk.injEq] at hrun
        exact absurd hrun.1 Bool.false_ne_true
      · rw [hgo] at hrun
        rcases List.mem_cons.mp hmem with rfl | hmem
        -- The statement was carried out here; the rest of the script goes on from its
        -- result.
        · have hrest := evolves_execScript l (fault.map (· - 1)) db₁
          rw [hrun] at hrest
          exact ⟨db, db₁, hs, hrest⟩
        · exact ih _ db₁ db' hrun hmem

/-- The table a statement puts rows into. -/
def Stmt.fills : Stmt S → Option S.Tab
  | .insertOrIgnore t _ _ => some t
  | _ => none

/-- A statement leaves the rows of the other tables alone. -/
theorem rows_exec {db db' : Db S} {s : Stmt S} {t : S.Tab} (hfills : s.fills ≠ some t)
    (h : s.exec db = some db') : db'.rows t = db.rows t := by
  -- Only an insertion fills a table, and this one fills another.
  cases s with
  | pragma =>
      simp only [Stmt.exec, Option.some.injEq] at h
      rw [h]
  | createTable u =>
      rcases createTable_eq_some h with ⟨_, rfl⟩ | ⟨hnone, rfl⟩
      · rfl
      · exact rows_set_empty hnone t
  | createUniqueIndex u =>
      rcases createUniqueIndex_eq_some h with ⟨_, rfl⟩ | ⟨_, rfl⟩ <;> rfl
  | createIndex i =>
      rcases createIndex_eq_some h with rfl | rfl <;> rfl
  | insertOrIgnore u id row =>
      have hu : t ≠ u := by
        intro hu
        exact hfills (congrArg some hu.symm)
      rcases insertOrIgnore_eq_some h with rfl | ⟨T, T', _, _, _, rfl, _⟩
      · rfl
      · exact Db.rows_set_of_ne hu

theorem rows_execScript {t : S.Tab} : ∀ (l : List (Stmt S)) (fault : Option Nat) (db : Db S),
    (∀ s ∈ l, s.fills ≠ some t) → (execScript fault l db).2.rows t = db.rows t := by
  intro l
  induction l with
  | nil =>
      intro fault db _
      rfl
  | cons s l ih =>
      intro fault db hl
      rcases execScript_cons fault s l db with hstop | ⟨db', hs, hgo⟩
      · rw [hstop]
      · rw [hgo, ih _ db' (fun s' hs' => hl s' (List.mem_cons_of_mem s hs'))]
        exact rows_exec (hl s List.mem_cons_self) hs

/-- And their counters. -/
theorem seq_exec {db db' : Db S} {s : Stmt S} {t : S.Tab} (hfills : s.fills ≠ some t)
    (h : s.exec db = some db') : db'.seq t = db.seq t := by
  cases s with
  | pragma =>
      simp only [Stmt.exec, Option.some.injEq] at h
      rw [h]
  | createTable u =>
      rcases createTable_eq_some h with ⟨_, rfl⟩ | ⟨hnone, rfl⟩
      · rfl
      · by_cases htu : t = u
        · subst htu
          rw [Db.seq_set_self, Db.seq, hnone]
          rfl
        · exact Db.seq_set_of_ne htu
  | createUniqueIndex u =>
      rcases createUniqueIndex_eq_some h with ⟨_, rfl⟩ | ⟨_, rfl⟩ <;> rfl
  | createIndex i =>
      rcases createIndex_eq_some h with rfl | rfl <;> rfl
  | insertOrIgnore u id row =>
      have hu : t ≠ u := fun hu => hfills (congrArg some hu.symm)
      rcases insertOrIgnore_eq_some h with rfl | ⟨T, T', _, _, _, rfl, _⟩
      · rfl
      · exact Db.seq_set_of_ne hu

theorem seq_execScript {t : S.Tab} : ∀ (l : List (Stmt S)) (fault : Option Nat) (db : Db S),
    (∀ s ∈ l, s.fills ≠ some t) → (execScript fault l db).2.seq t = db.seq t := by
  intro l
  induction l with
  | nil =>
      intro fault db _
      rfl
  | cons s l ih =>
      intro fault db hl
      rcases execScript_cons fault s l db with hstop | ⟨db', hs, hgo⟩
      · rw [hstop]
      · rw [hgo, ih _ db' (fun s' hs' => hl s' (List.mem_cons_of_mem s hs'))]
        exact seq_exec (hl s List.mem_cons_self) hs

theorem exec_createTable {db db' : Db S} {t : S.Tab}
    (h : (Stmt.createTable t).exec db = some db') : (db'.tab t).isSome := by
  rcases createTable_eq_some h with ⟨htab, rfl⟩ | ⟨_, rfl⟩
  · exact htab
  · rw [Db.tab_set_self]
    rfl

theorem exec_createUniqueIndex {db db' : Db S} {t : S.Tab}
    (h : (Stmt.createUniqueIndex t).exec db = some db') : db'.unique t = true := by
  rcases createUniqueIndex_eq_some h with ⟨hunique, rfl⟩ | ⟨_, rfl⟩
  · exact hunique
  · exact Function.update_self ..

theorem exec_createIndex {db db' : Db S} {i : S.Index}
    (h : (Stmt.createIndex i).exec db = some db') : db'.index i = true := by
  simp only [Stmt.exec] at h
  split at h
  · next hindex =>
      rw [Option.some.injEq] at h
      exact h ▸ hindex
  · split at h
    · rw [Option.some.injEq] at h
      subst h
      exact Function.update_self ..
    · simp only [reduceCtorEq] at h

theorem sound_empty : Sound (Db.empty : Db S) where
  refs := by
    intro t r hr
    exact absurd hr List.not_mem_nil
  notNull := by
    intro t r hr
    exact absurd hr List.not_mem_nil
  unique := by
    intro t ht
    exact absurd ht Bool.false_ne_true

end SendingSystem
