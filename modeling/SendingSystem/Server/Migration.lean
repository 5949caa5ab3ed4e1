import SendingSystem.Lib.Script
import SendingSystem.Server.Store

/-!
# The schema script on every open

`database_open` runs the whole script each time, on a file in whatever state
earlier calls and crashes have left it. The statements are in an order that can
be executed, so the one that can fail is the unique index on peers, and it cannot:
with a handle out the index is there, and before the first handle there are no
connections. What else happened to the file, rows renamed or deleted and counters
advanced, decides only which seed rows are missing.

## Theorems

* `wellOrdered_createDatabase`: Every statement comes after its table.
* `createDatabase_succeeds`: The script succeeds in every state of a run.
* `createDatabase_seeds`: The seed rows pass the checks of their tables.
* `enum_ids_present`: After it every id of the enumerations is in use.
* `schema_idempotent_resumable`: What running it again does.
-/

namespace SendingSystem

namespace Server

open CString

/-- Every statement comes after the table it is about. -/
theorem wellOrdered_createDatabase : wellOrdered [] createDatabase := by
  simp only [createDatabase, wellOrdered, serverSchema, refs, Index.on, List.mem_cons, true_or,
    or_true, true_and, and_true]
  omega

/-- The script makes one unique index, on a table it has no rows for. -/
theorem createUniqueIndex_mem {t : Tab}
    (h : (Stmt.createUniqueIndex t : Stmt serverSchema) ∈ createDatabase) : t = .connection := by
  simp only [createDatabase, List.mem_cons, reduceCtorEq, Stmt.createUniqueIndex.injEq,
    List.not_mem_nil, or_false, false_or] at h
  exact h

/-- The script succeeds in every state of a run. -/
theorem createDatabase_succeeds {s : Store} (hinv : StoreInv s) :
    (execScript none createDatabase s.db).1 = true := by
  refine execScript_succeeds createDatabase [] s.db wellOrdered_createDatabase
    (fun t ht => absurd ht List.not_mem_nil) fun t ht => ?_
  rw [createUniqueIndex_mem ht]
  refine ⟨?_, fun st hst => (createDatabase_fills st hst).1⟩
  cases hhandle : s.handle with
  | true => exact Or.inl (hinv.ready hhandle).2
  | false =>
      -- Without a handle no connection was ever inserted.
      have hnone : Db.rows (S := serverSchema) s.db .connection = [] := hinv.untouched hhandle
      right
      rw [hnone]
      intro r hr
      exact absurd hr List.not_mem_nil

/-- Every seed row passes the checks of its table: its name is not null, and the
    table has no unique index. -/
theorem createDatabase_seeds {t : Tab} {id : Int} {row : Row t}
    (h : (Stmt.insertOrIgnore t id row : Stmt serverSchema) ∈ createDatabase) :
    notNull t row = true ∧ ∀ row', uniqueKey t row' = none := by
  simp only [createDatabase, List.mem_cons, reduceCtorEq, Stmt.insertOrIgnore.injEq,
    List.not_mem_nil, or_false, false_or] at h
  rcases h with ⟨rfl, _, hrow⟩ | ⟨rfl, _, hrow⟩ | ⟨rfl, _, hrow⟩ | ⟨rfl, _, hrow⟩ |
    ⟨rfl, _, hrow⟩ | ⟨rfl, _, hrow⟩ | ⟨rfl, _, hrow⟩ | ⟨rfl, _, hrow⟩ | ⟨rfl, _, hrow⟩ |
    ⟨rfl, _, hrow⟩ <;>
    exact ⟨by rw [eq_of_heq hrow]; rfl, fun _ => rfl⟩

theorem seed_present {db db' : Database} (h : execScript none createDatabase db = (true, db'))
    {t : Tab} {id : Int} (hid : id ∈ seededIds (S := serverSchema) createDatabase t) :
    Used db' t id := by
  rcases mem_seededIds hid with ⟨row, hmem⟩
  exact Db.present_iff.mp (present_of_seeded h hid (fun _ hrow => (createDatabase_seeds hrow).1)
    (createDatabase_seeds hmem).2)

/-- After the script every id of the enumerations is in use. -/
theorem enum_ids_present {db db' : Database} (h : execScript none createDatabase db = (true, db')) :
    (∀ e : MessageTypeId, Used db' .messageType e.id) ∧
    (∀ e : MessageStatusId, Used db' .messageStatus e.id) ∧
    (∀ e : MessageDirectionId, Used db' .messageDirection e.id) ∧
    (∀ e : ConnectionRoleId, Used db' .connectionRole e.id) :=
  ⟨fun e => seed_present h (by cases e <;> decide),
    fun e => seed_present h (by cases e <;> decide),
    fun e => seed_present h (by cases e <;> decide),
    fun e => seed_present h (by cases e <;> decide)⟩

/-- In every state that opens and repository calls can bring an empty file to, the
    script succeeds; every row of every table is still there, and a row that is new
    is a seed row whose id was not in use; every id of the enumerations is in use;
    a second run changes nothing; and a run that stopped after any number of
    statements is made good by one complete run. -/
theorem schema_idempotent_resumable (calls : List Call) (s : Store)
    (hrun : Store.initial.run calls = some s) :
    ∃ db', execScript none createDatabase s.db = (true, db') ∧
      (∀ t, ∀ r ∈ Db.rows (S := serverSchema) s.db t, r ∈ Db.rows (S := serverSchema) db' t) ∧
      (∀ t, ∀ r ∈ Db.rows (S := serverSchema) db' t, r ∈ Db.rows (S := serverSchema) s.db t ∨
        (¬ Used s.db t r.1 ∧ Stmt.insertOrIgnore t r.1 r.2 ∈ createDatabase)) ∧
      ((∀ e : MessageTypeId, Used db' .messageType e.id) ∧
        (∀ e : MessageStatusId, Used db' .messageStatus e.id) ∧
        (∀ e : MessageDirectionId, Used db' .messageDirection e.id) ∧
        (∀ e : ConnectionRoleId, Used db' .connectionRole e.id)) ∧
      execScript none createDatabase db' = (true, db') ∧
      ∀ k, execScript none createDatabase (execScript none (createDatabase.take k) s.db).2
        = (true, db') := by
  have hinv := (run_evolves calls _ _ hrun).2 storeInv_initial
  have h : execScript none createDatabase s.db
      = (true, (execScript none createDatabase s.db).2) :=
    Prod.ext (createDatabase_succeeds hinv) rfl
  refine ⟨_, h, (extends_execScript createDatabase none s.db).rows, fun t r hr => ?_,
    enum_ids_present h, execScript_idempotent h, execScript_resume h⟩
  -- A row that was not there before is one of the script, under an id that was free.
  rcases mem_execScript createDatabase none s.db hr with hold | ⟨hfree, hmem⟩
  · exact Or.inl hold
  · refine Or.inr ⟨fun hused => ?_, hmem⟩
    have hpresent : Db.present (S := serverSchema) s.db (t, r.1) = true := Db.present_iff.mpr hused
    rw [hfree] at hpresent
    exact Bool.false_ne_true hpresent

/-- A file whose role `SERVER` was deleted gets it back from the script, also when
    the script was first cut off after ten statements. -/
theorem schema_idempotent_resumable_deleted_role :
    ∃ s db', Store.initial.run [.databaseOpen .none, .connectionRoleDelete .none 1] = some s ∧
      ¬ Used s.db .connectionRole 1 ∧ Used db' .connectionRole 1 ∧
      execScript none createDatabase (execScript none (createDatabase.take 10) s.db).2
        = (true, db') := by
  have hrun : Store.initial.run [.databaseOpen .none, .connectionRoleDelete .none 1]
      = some ⟨(connectionRoleDelete .none createdDatabase 1).db, true⟩ := rfl
  rcases schema_idempotent_resumable _ _ hrun with ⟨db', _, _, _, ⟨_, _, _, hroles⟩, _, hresume⟩
  refine ⟨_, db', hrun, ?_, hroles .server, hresume 10⟩
  rw [Used, ← Db.present_iff]
  decide

end Server

end SendingSystem
