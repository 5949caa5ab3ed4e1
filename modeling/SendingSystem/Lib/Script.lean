import SendingSystem.Lib.Relational

/-!
# Schema scripts that are run again

A schema script creates what is missing and ignores rows whose id is taken, so a
statement that was executed has nothing left to do, and that stays so while other
statements of scripts are executed: they only ever add. Such a statement is
`Settled`. From this alone, a script that was cut off anywhere and is then run as
a whole ends where one uninterrupted run ends, and running it twice is running it
once.

Whether a script succeeds at all is decided by its order, which can be checked on
its text (`wellOrdered`), and by the rows of the tables it makes a unique index on.

## Main definitions

* `Extends`: Rows, tables and indexes are only added.
* `Settled`: Executing the statement changes nothing.
* `wellOrdered`: Indexes and rows come after their tables.
* `Indexable`: A unique index exists or can be made.
* `seededIds`: The ids a script has rows for.

## Theorems

* `extends_exec`, `extends_execScript`: Statements only add.
* `settled_exec`, `Settled.mono`: A statement executed is settled and stays so.
* `settled_execScript`: After a script its statements are settled.
* `execScript_completed`: A script that got to its end.
* `execScript_resume`: A script cut off and run as a whole.
* `execScript_idempotent`: A script run twice.
* `execScript_succeeds`: When a script succeeds.
* `mem_execScript`: Where the rows come from.
* `present_of_settled`, `present_of_seeded`: Seeded ids are in use.
-/

namespace SendingSystem

variable {S : Schema}

/-- Rows, tables and indexes are only added. -/
structure Extends (db db' : Db S) : Prop where
  rows : ∀ t, ∀ r ∈ db.rows t, r ∈ db'.rows t
  tab : ∀ t, (db.tab t).isSome → (db'.tab t).isSome
  unique : ∀ t, db.unique t = true → db'.unique t = true
  index : ∀ i, db.index i = true → db'.index i = true

theorem Extends.refl (db : Db S) : Extends db db :=
  ⟨fun _ _ => id, fun _ => id, fun _ => id, fun _ => id⟩

theorem Extends.trans {a b c : Db S} (hab : Extends a b) (hbc : Extends b c) : Extends a c where
  rows := fun t r hr => hbc.rows t r (hab.rows t r hr)
  tab := fun t h => hbc.tab t (hab.tab t h)
  unique := fun t h => hbc.unique t (hab.unique t h)
  index := fun i h => hbc.index i (hab.index i h)

theorem Extends.present {db db' : Db S} (h : Extends db db') {p : S.Tab × Int}
    (hp : db.present p = true) : db'.present p = true := by
  rcases p with ⟨t, id⟩
  rw [Db.present_iff] at hp ⊢
  rcases hp with ⟨row, hrow⟩
  exact ⟨row, h.rows t _ hrow⟩

/-- A table replaced by one with more rows. -/
theorem extends_set {db : Db S} {t : S.Tab} {T : Table (S.Row t)}
    (h : ∀ r ∈ db.rows t, r ∈ T.rows) : Extends db (db.set t T) := by
  refine ⟨fun u r hr => ?_, Db.isSome_tab_set, fun _ => id, fun _ => id⟩
  by_cases hu : u = t
  · subst hu
    rw [Db.rows_set_self]
    exact h r hr
  · rw [Db.rows_set_of_ne hu]
    exact hr

/-- An insertion only adds. -/
theorem extends_insert {db db' : Db S} {t : S.Tab} {row : S.Row t} {id : Int}
    (h : db.insert t row = some (db', id)) : Extends db db' := by
  rcases insert_eq_some h with ⟨T, T', htab, hnext, rfl, _, _, _⟩
  refine extends_set fun r hr => ?_
  rw [(Table.insertNext_spec hnext).2.2]
  rw [Db.rows_of_tab htab] at hr
  exact List.mem_append_left _ hr

/-- Setting one flag sets no other one back. -/
theorem update_true {α : Type} [DecidableEq α] {f : α → Bool} {a b : α} (h : f b = true) :
    Function.update f a true b = true := by
  by_cases hb : b = a
  · subst hb
    exact Function.update_self ..
  · rw [Function.update_of_ne hb]
    exact h

/-- A statement of a script only adds. -/
theorem extends_exec {db db' : Db S} {s : Stmt S} (h : s.exec db = some db') : Extends db db' := by
  -- Each statement makes what is missing, and takes nothing away.
  cases s with
  | pragma =>
      simp only [Stmt.exec, Option.some.injEq] at h
      exact h ▸ Extends.refl db
  | createTable t =>
      rcases createTable_eq_some h with ⟨_, rfl⟩ | ⟨hnone, rfl⟩
      · exact Extends.refl _
      · refine extends_set fun r hr => ?_
        simp only [Db.rows, hnone, List.not_mem_nil] at hr
  | createUniqueIndex t =>
      rcases createUniqueIndex_eq_some h with ⟨_, rfl⟩ | ⟨_, rfl⟩
      · exact Extends.refl _
      · exact ⟨fun _ _ => id, fun _ => id, fun _ => update_true, fun _ => id⟩
  | createIndex i =>
      rcases createIndex_eq_some h with rfl | rfl
      · exact Extends.refl _
      · exact ⟨fun _ _ => id, fun _ => id, fun _ => id, fun _ => update_true⟩
  | insertOrIgnore t id row =>
      rcases insertOrIgnore_eq_some h with rfl | ⟨T, T', htab, _, hput, rfl, _⟩
      · exact Extends.refl _
      · refine extends_set fun r hr => ?_
        rw [Db.rows_of_tab htab] at hr
        exact ((Table.mem_insertAt hput).2 r).mpr (Or.inr hr)

/-- So does a script, however far it gets. -/
theorem extends_execScript : ∀ (l : List (Stmt S)) (fault : Option Nat) (db : Db S),
    Extends db (execScript fault l db).2 := by
  intro l
  induction l with
  | nil =>
      intro fault db
      exact Extends.refl db
  | cons s l ih =>
      intro fault db
      rcases execScript_cons fault s l db with hstop | ⟨db', hs, hgo⟩
      · rw [hstop]
        exact Extends.refl db
      · rw [hgo]
        exact (extends_exec hs).trans (ih _ db')

namespace Db

/-- `INSERT OR IGNORE` skips the row. -/
def ignores (db : Db S) (t : S.Tab) (id : Int) (row : S.Row t) : Prop :=
  (db.tab t).isSome ∧
    (db.present (t, id) = true ∨ S.notNull t row = false ∨ db.clash t id row = true)

theorem insertOrIgnore_of_ignores {db : Db S} {t : S.Tab} {id : Int} {row : S.Row t}
    (h : db.ignores t id row) : db.insertOrIgnore t id row = some db := by
  rcases h with ⟨htab, hskip⟩
  rcases Option.isSome_iff_exists.mp htab with ⟨T, hT⟩
  rw [present_of_tab hT] at hskip
  have hcond : (T.has id || !S.notNull t row || db.clash t id row) = true := by
    rcases hskip with h | h | h <;> simp only [h, Bool.true_or, Bool.not_false, Bool.or_true]
  simp only [insertOrIgnore, hT, Option.bind_eq_bind, Option.bind_some, hcond, if_true]

/-- Once executed, it would skip the row. -/
theorem ignores_of_insertOrIgnore {db db' : Db S} {t : S.Tab} {id : Int} {row : S.Row t}
    (h : db.insertOrIgnore t id row = some db') : db'.ignores t id row := by
  rw [insertOrIgnore] at h
  simp only [Option.bind_eq_bind, Option.bind_eq_some_iff] at h
  rcases h with ⟨T, htab, h⟩
  by_cases hskip : (T.has id || !S.notNull t row || db.clash t id row) = true
  · rw [if_pos hskip, Option.some.injEq] at h
    subst h
    -- What made the statement skip the row makes it skip it again.
    refine ⟨by rw [htab]; rfl, ?_⟩
    rw [present_of_tab htab]
    simp only [Bool.or_eq_true, Bool.not_eq_true'] at hskip
    exact or_assoc.mp hskip
  · rw [if_neg hskip] at h
    simp only [Option.bind_eq_some_iff] at h
    rcases h with ⟨T', hput, h⟩
    split at h
    -- The row has just taken its place.
    · rw [Option.some.injEq] at h
      subst h
      refine ⟨by rw [tab_set_self]; rfl, Or.inl ?_⟩
      rw [present_set_self, Table.has_iff]
      exact ⟨row, ((Table.mem_insertAt hput).2 _).mpr (Or.inl rfl)⟩
    · simp only [reduceCtorEq] at h

/-- A row that is skipped stays skipped while rows are added. -/
theorem ignores_mono {db db' : Db S} {t : S.Tab} {id : Int} {row : S.Row t} (hext : Extends db db')
    (h : db.ignores t id row) : db'.ignores t id row := by
  refine ⟨hext.tab t h.1, ?_⟩
  rcases h.2 with hp | hnull | hclash
  · exact Or.inl (hext.present hp)
  · exact Or.inr (Or.inl hnull)
  · refine Or.inr (Or.inr ?_)
    rw [clash, Bool.and_eq_true, sameKey, List.any_eq_true] at hclash ⊢
    rcases hclash with ⟨hunique, r, hr, hsame⟩
    exact ⟨hext.unique t hunique, r, hext.rows t r hr, hsame⟩

end Db

/-- Executing the statement changes nothing. -/
def Settled (s : Stmt S) (db : Db S) : Prop := s.exec db = some db

/-- What being settled means, statement by statement. -/
theorem settled_iff {s : Stmt S} {db : Db S} :
    Settled s db ↔ match s with
      | .pragma => True
      | .createTable t => (db.tab t).isSome
      | .createUniqueIndex t => db.unique t = true
      | .createIndex i => db.index i = true
      | .insertOrIgnore t id row => db.ignores t id row := by
  unfold Settled
  -- What a statement makes is what it finds the next time.
  cases s with
  | pragma => exact ⟨fun _ => trivial, fun _ => rfl⟩
  | createTable t =>
      constructor
      · intro h
        exact exec_createTable h
      · intro h
        simp only [Stmt.exec, h, if_true]
  | createUniqueIndex t =>
      constructor
      · intro h
        exact exec_createUniqueIndex h
      · intro h
        simp only [Stmt.exec, h, if_true]
  | createIndex i =>
      constructor
      · intro h
        exact exec_createIndex h
      · intro h
        simp only [Stmt.exec, h, if_true]
  | insertOrIgnore t id row =>
      exact ⟨Db.ignores_of_insertOrIgnore, Db.insertOrIgnore_of_ignores⟩

/-- A statement that was executed is settled. -/
theorem settled_exec {s : Stmt S} {db db' : Db S} (h : s.exec db = some db') : Settled s db' := by
  rw [settled_iff]
  cases s with
  | pragma => trivial
  | createTable t => exact exec_createTable h
  | createUniqueIndex t => exact exec_createUniqueIndex h
  | createIndex i => exact exec_createIndex h
  | insertOrIgnore t id row => exact Db.ignores_of_insertOrIgnore h

/-- A settled statement stays so while things are added. -/
theorem Settled.mono {s : Stmt S} {db db' : Db S} (h : Settled s db) (hext : Extends db db') :
    Settled s db' := by
  rw [settled_iff] at h ⊢
  cases s with
  | pragma => trivial
  | createTable t => exact hext.tab t h
  | createUniqueIndex t => exact hext.unique t h
  | createIndex i => exact hext.index i h
  | insertOrIgnore t id row => exact Db.ignores_mono hext h

/-- Without a failure of the system one step is its statement. -/
theorem execScript_none_cons (s : Stmt S) (l : List (Stmt S)) (db : Db S) :
    execScript none (s :: l) db = match s.exec db with
      | none => (false, db)
      | some db' => execScript none l db' := by
  cases hs : s.exec db with
  | none => simp only [execScript, hs]
  | some db' => simp only [execScript, hs, Option.map_none]

/-- After a script its statements are settled. -/
theorem settled_execScript : ∀ (l : List (Stmt S)) (db db' : Db S),
    execScript none l db = (true, db') → ∀ s ∈ l, Settled s db' := by
  intro l
  induction l with
  | nil =>
      intro db db' _ s hs
      exact absurd hs List.not_mem_nil
  | cons s l ih =>
      intro db db' h
      rw [execScript_none_cons] at h
      cases hs : s.exec db with
      | none => simp only [hs, Prod.mk.injEq, Bool.false_eq_true, false_and] at h
      | some db₁ =>
          simp only [hs] at h
          -- What comes after the statement leaves it settled.
          have hext := extends_execScript l none db₁
          rw [h] at hext
          rw [List.forall_mem_cons]
          exact ⟨(settled_exec hs).mono hext, ih db₁ db' h⟩

/-- A script that got to its end got there without a failure of the system. -/
theorem execScript_completed : ∀ (l : List (Stmt S)) (fault : Option Nat)
    (db db' : Db S), execScript fault l db = (true, db') → execScript none l db = (true, db') := by
  intro l
  induction l with
  | nil =>
      intro fault db db' h
      cases fault <;> exact h
  | cons s l ih =>
      intro fault db db' h
      rcases execScript_cons fault s l db with hstop | ⟨db₁, hs, hgo⟩
      · rw [hstop, Prod.mk.injEq] at h
        exact absurd h.1 Bool.false_ne_true
      · rw [hgo] at h
        rw [execScript_none_cons, hs]
        exact ih _ db₁ db' h

/-- Settled statements are passed over. -/
theorem execScript_settled (l l' : List (Stmt S)) {db : Db S} (h : ∀ s ∈ l, Settled s db) :
    execScript none (l ++ l') db = execScript none l' db := by
  induction l with
  | nil => rfl
  | cons s l ih =>
      rw [List.forall_mem_cons] at h
      have hs : s.exec db = some db := h.1
      rw [List.cons_append, execScript_none_cons, hs]
      exact ih h.2

/-- A settled script leaves the store as it is, wherever the system fails it. -/
theorem execScript_snd_of_settled : ∀ (l : List (Stmt S)) (fault : Option Nat) {db : Db S},
    (∀ s ∈ l, Settled s db) → (execScript fault l db).2 = db := by
  intro l
  induction l with
  | nil =>
      intro fault db _
      rfl
  | cons s l ih =>
      intro fault db h
      rw [List.forall_mem_cons] at h
      -- A statement that is settled leaves the database as it is, so the rest is settled
      -- too.
      rcases execScript_cons fault s l db with hstop | ⟨db', hs, hgo⟩
      · rw [hstop]
      · have hsame : some db' = some db := hs.symm.trans h.1
        rw [Option.some.injEq] at hsame
        subst hsame
        rw [hgo]
        exact ih _ h.2

/-- It succeeds unless the system fails one of its statements. -/
theorem execScript_fst_of_settled : ∀ (l : List (Stmt S)) (fault : Option Nat) {db : Db S},
    (∀ s ∈ l, Settled s db) →
    ((execScript fault l db).1 = true ↔ ∀ n, fault = some n → l.length ≤ n) := by
  intro l
  induction l with
  | nil =>
      intro fault db _
      simp only [execScript, List.length_nil, Nat.zero_le, implies_true]
  | cons s l ih =>
      intro fault db h
      rw [List.forall_mem_cons] at h
      have hs : s.exec db = some db := h.1
      cases fault with
      | none =>
          rw [execScript_none_cons, hs]
          simp only [ih none h.2, reduceCtorEq, false_implies, implies_true]
      | some n =>
          cases n with
          | zero =>
              simp only [execScript, Bool.false_eq_true, Option.some.injEq, forall_eq',
                List.length_cons, Nat.le_zero, Nat.add_eq_zero_iff, Nat.one_ne_zero, and_false]
          | succ n =>
              have hgo : execScript (some (n + 1)) (s :: l) db = execScript (some n) l db := by
                simp only [execScript, hs, Option.map_some, Nat.add_sub_cancel]
              rw [hgo, ih (some n) h.2]
              simp only [Option.some.injEq, forall_eq', List.length_cons, Nat.add_le_add_iff_right]

/-- A script that succeeds is its first part, then the rest. -/
theorem execScript_append : ∀ (l l' : List (Stmt S)) (db db' : Db S),
    execScript none (l ++ l') db = (true, db') →
    ∃ db₁, execScript none l db = (true, db₁) ∧ execScript none l' db₁ = (true, db') := by
  intro l
  induction l with
  | nil =>
      intro l' db db' h
      exact ⟨db, rfl, h⟩
  | cons s l ih =>
      intro l' db db' h
      rw [List.cons_append, execScript_none_cons] at h
      rw [execScript_none_cons]
      -- A script that fails in its first part does not get to the second.
      cases hs : s.exec db with
      | none => simp only [hs, Prod.mk.injEq, Bool.false_eq_true, false_and] at h
      | some db₁ =>
          simp only [hs] at h ⊢
          exact ih l' db₁ db' h

/-- A script cut off after any number of statements and then run as a whole ends
    where one uninterrupted run ends. -/
theorem execScript_resume {l : List (Stmt S)} {db db' : Db S}
    (h : execScript none l db = (true, db')) (k : Nat) :
    execScript none l (execScript none (l.take k) db).2 = (true, db') := by
  rw [← List.take_append_drop k l] at h
  rcases execScript_append _ _ _ _ h with ⟨db₁, hfirst, hrest⟩
  -- The part that was run is settled where it stopped, so only the rest is left.
  have hsettled := execScript_settled (l.take k) (l.drop k) (settled_execScript _ _ _ hfirst)
  rw [List.take_append_drop] at hsettled
  rw [hfirst, hsettled, hrest]

/-- A script run twice. -/
theorem execScript_idempotent {l : List (Stmt S)} {db db' : Db S}
    (h : execScript none l db = (true, db')) : execScript none l db' = (true, db') := by
  have hresume := execScript_resume h l.length
  rw [List.take_length, h] at hresume
  exact hresume

/-- Where the rows of a table come from: they were there, or their id was free and
    the script has the row. -/
theorem mem_execScript {t : S.Tab} {r : Int × S.Row t} : ∀ (l : List (Stmt S))
    (fault : Option Nat) (db : Db S), r ∈ (execScript fault l db).2.rows t →
    r ∈ db.rows t ∨ (db.present (t, r.1) = false ∧ Stmt.insertOrIgnore t r.1 r.2 ∈ l) := by
  intro l
  induction l with
  | nil =>
      intro fault db hr
      exact Or.inl hr
  | cons s l ih =>
      intro fault db hr
      rcases execScript_cons fault s l db with hstop | ⟨db₁, hs, hgo⟩
      · rw [hstop] at hr
        exact Or.inl hr
      · rw [hgo] at hr
        -- The row was there after the first statement, or a later one has put it in.
        rcases ih _ db₁ hr with hr | ⟨hfree, hmem⟩
        · by_cases hfills : s.fills = some t
          · cases s with
            | insertOrIgnore u id row =>
                rw [Stmt.fills, Option.some.injEq] at hfills
                subst hfills
                rcases insertOrIgnore_eq_some hs with rfl | ⟨T, T', htab, hfree, hput, rfl, _⟩
                · exact Or.inl hr
                · rw [Db.rows_set_self, (Table.mem_insertAt hput).2] at hr
                  rcases hr with rfl | hr
                  · rw [Db.present_of_tab htab]
                    exact Or.inr ⟨hfree, List.mem_cons_self⟩
                  · rw [Db.rows_of_tab htab]
                    exact Or.inl hr
            | _ => simp only [Stmt.fills, reduceCtorEq] at hfills
          · rw [rows_exec hfills hs] at hr
            exact Or.inl hr
        -- A free id was free before, since rows are only added.
        · refine Or.inr ⟨?_, List.mem_cons_of_mem s hmem⟩
          rw [← Bool.not_eq_true] at hfree ⊢
          exact fun hp => hfree ((extends_exec hs).present hp)

/-- Every index and every row comes after the table it is on, and a row refers to
    nothing and has a positive id. -/
def wellOrdered : List S.Tab → List (Stmt S) → Prop
  | _, [] => True
  | created, .pragma :: l => wellOrdered created l
  | created, .createTable t :: l => wellOrdered (t :: created) l
  | created, .createUniqueIndex t :: l => t ∈ created ∧ wellOrdered created l
  | created, .createIndex i :: l => S.on i ∈ created ∧ wellOrdered created l
  | created, .insertOrIgnore t id row :: l =>
    (t ∈ created ∧ 1 ≤ id ∧ S.refs t row = []) ∧ wellOrdered created l

/-- The unique index exists, or no two rows share a key. -/
def Indexable (db : Db S) (t : S.Tab) : Prop :=
  db.unique t = true ∨ ∀ r ∈ db.rows t, Db.sameKey (db.rows t) r.1 r.2 = false

/-- A row that refers to nothing can be put where its id is free. -/
theorem exec_insertOrIgnore {db : Db S} {t : S.Tab} {id : Int} {row : S.Row t}
    (htab : (db.tab t).isSome) (hid : 1 ≤ id) (hrefs : S.refs t row = []) :
    ∃ db', (Stmt.insertOrIgnore t id row).exec db = some db' := by
  rcases Option.isSome_iff_exists.mp htab with ⟨T, hT⟩
  simp only [Stmt.exec, Db.insertOrIgnore, hT, Option.bind_eq_bind, Option.bind_some]
  split
  · exact ⟨_, rfl⟩
  · next hskip =>
      simp only [Bool.or_eq_true, not_or, Bool.not_eq_true] at hskip
      -- A row that is not skipped has a free id, and there is nothing it refers to.
      have hput : 1 ≤ id ∧ T.has id = false := ⟨hid, hskip.1.1⟩
      simp only [Table.insertAt, dif_pos hput, Option.bind_some, Db.refsHold, hrefs, List.all_nil,
        if_true]
      exact ⟨_, rfl⟩

/-- A script succeeds when its statements are in order and the tables it makes a
    unique index on can have one and get no rows from it. -/
theorem execScript_succeeds : ∀ (l : List (Stmt S)) (created : List S.Tab) (db : Db S),
    wellOrdered created l → (∀ t ∈ created, (db.tab t).isSome) →
    (∀ t, Stmt.createUniqueIndex t ∈ l → Indexable db t ∧ ∀ s ∈ l, s.fills ≠ some t) →
    (execScript none l db).1 = true := by
  intro l
  induction l with
  | nil =>
      intro created db _ _ _
      rfl
  | cons s l ih =>
      intro created db hordered hcreated hindexable
      -- What is left of the hypotheses after the statement.
      have hlater : ∀ db₁, s.exec db = some db₁ → ∀ t, Stmt.createUniqueIndex t ∈ l →
          Indexable db₁ t ∧ ∀ s ∈ l, s.fills ≠ some t := by
        intro db₁ hs t ht
        rcases hindexable t (List.mem_cons_of_mem s ht) with ⟨hok, hfills⟩
        rw [List.forall_mem_cons] at hfills
        refine ⟨?_, hfills.2⟩
        rw [Indexable, rows_exec hfills.1 hs]
        exact hok.imp_left ((extends_exec hs).unique t)
      have hgo : ∀ db₁ created', s.exec db = some db₁ → wellOrdered created' l →
          (∀ t ∈ created', (db₁.tab t).isSome) → (execScript none (s :: l) db).1 = true := by
        intro db₁ created' hs hordered' hcreated'
        rw [execScript_none_cons, hs]
        exact ih created' db₁ hordered' hcreated' (hlater db₁ hs)
      cases s with
      | pragma => exact hgo db created rfl hordered hcreated
      | createTable t =>
          -- The table exists from here on.
          have hexec : ∃ db₁, (Stmt.createTable t).exec db = some db₁ := by
            simp only [Stmt.exec]
            split
            · exact ⟨_, rfl⟩
            · exact ⟨_, rfl⟩
          rcases hexec with ⟨db₁, hs⟩
          refine hgo db₁ (t :: created) hs hordered ?_
          rw [List.forall_mem_cons]
          exact ⟨exec_createTable hs, fun u hu => (extends_exec hs).tab u (hcreated u hu)⟩
      | createUniqueIndex t =>
          rcases hordered with ⟨ht, hordered⟩
          have hexec : ∃ db₁, (Stmt.createUniqueIndex t).exec db = some db₁ := by
            rcases Option.isSome_iff_exists.mp (hcreated t ht) with ⟨T, hT⟩
            simp only [Stmt.exec, hT]
            by_cases hunique : db.unique t = true
            · exact ⟨_, if_pos hunique⟩
            -- The rows were distinct before the script and are still the same.
            · have hdistinct := (hindexable t List.mem_cons_self).1.resolve_left hunique
              rw [Db.rows_of_tab hT] at hdistinct
              have hnone : ¬ T.rows.any (fun r => Db.sameKey T.rows r.1 r.2) = true := by
                rw [Bool.not_eq_true, List.any_eq_false]
                exact fun r hr => Bool.not_eq_true _ ▸ hdistinct r hr
              rw [if_neg hunique, if_neg hnone]
              exact ⟨_, rfl⟩
          rcases hexec with ⟨db₁, hs⟩
          exact hgo db₁ created hs hordered fun u hu => (extends_exec hs).tab u (hcreated u hu)
      | createIndex i =>
          rcases hordered with ⟨hi, hordered⟩
          have hexec : ∃ db₁, (Stmt.createIndex i).exec db = some db₁ := by
            simp only [Stmt.exec, hcreated _ hi, if_true]
            split
            · exact ⟨_, rfl⟩
            · exact ⟨_, rfl⟩
          rcases hexec with ⟨db₁, hs⟩
          exact hgo db₁ created hs hordered fun u hu => (extends_exec hs).tab u (hcreated u hu)
      | insertOrIgnore t id row =>
          rcases hordered with ⟨⟨ht, hid, hrefs⟩, hordered⟩
          rcases exec_insertOrIgnore (hcreated t ht) hid hrefs with ⟨db₁, hs⟩
          exact hgo db₁ created hs hordered fun u hu => (extends_exec hs).tab u (hcreated u hu)

/-- The ids a script has rows for. -/
def seededIds (l : List (Stmt S)) (t : S.Tab) : List Int :=
  l.filterMap fun
    | .insertOrIgnore u id _ => if u = t then some id else none
    | _ => none

theorem mem_seededIds {l : List (Stmt S)} {t : S.Tab} {id : Int} (h : id ∈ seededIds l t) :
    ∃ row, Stmt.insertOrIgnore t id row ∈ l := by
  rw [seededIds, List.mem_filterMap] at h
  rcases h with ⟨s, hs, hid⟩
  cases s with
  | insertOrIgnore u i row =>
      simp only [Option.ite_none_right_eq_some, Option.some.injEq] at hid
      rcases hid with ⟨rfl, rfl⟩
      exact ⟨row, hs⟩
  | _ => simp only [reduceCtorEq] at hid

/-- A row that would be inserted with its id is ignored because the id is taken, if it
    lacks nothing and has no key. -/
theorem present_of_settled {db : Db S} {t : S.Tab} {id : Int} {row : S.Row t}
    (h : Settled (.insertOrIgnore t id row) db) (hnull : S.notNull t row = true)
    (hkey : S.key t row = none) : db.present (t, id) = true := by
  rcases (settled_iff.mp h).2 with hp | hmissing | hclash
  · exact hp
  · rw [hnull] at hmissing
    exact absurd hmissing.symm Bool.false_ne_true
  · rw [clash_of_key_eq_none hkey id] at hclash
    exact absurd hclash Bool.false_ne_true

/-- Without a unique index in its way, an id the script has a row for is in use
    after it: by that row or by another. -/
theorem present_of_seeded {l : List (Stmt S)} {db db' : Db S}
    (h : execScript none l db = (true, db')) {t : S.Tab} {id : Int} (hid : id ∈ seededIds l t)
    (hnull : ∀ row, Stmt.insertOrIgnore t id row ∈ l → S.notNull t row = true)
    (hkey : ∀ row, S.key t row = none) : db'.present (t, id) = true := by
  rcases mem_seededIds hid with ⟨row, hmem⟩
  exact present_of_settled (settled_execScript l db db' h _ hmem) (hnull row hmem) (hkey row)

end SendingSystem
