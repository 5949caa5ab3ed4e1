import SendingSystem.Server.GetAll

/-!
# Reading back what was written

The inserts and updates of the three data tables against the functions that read
the rows again. The arguments have the C types: `DB_ID` is a 64-bit `long`, a
port and a flag are `int`. Every column but one is bound and read with the width
of its argument. The role of a connection is a `DB_ID` that goes through
`sqlite3_bind_int` on its way in, so an id beyond 32 bits arrives as its low
half: the row reads back with another role, and a role that does not exist may
pass for one that does. A text that `sqlite3_bind_text` fails to copy arrives as
`NULL`, and the call returns `0` all the same.

A listing is an array that cannot hold more than `2^30` rows, so in a larger
table the row is there but not listed.

## Main definitions

* `Arguments`: The arguments of an insert or an update.
* `Arguments.given`, `Arguments.stored`: The row they stand for, and the row that
  is bound.
* `Arguments.FitsInt`, `Arguments.Bound`: No role id is narrowed, and every text is
  copied.
* `Write`: A call of the six functions.
* `RowWritten`: The row reads back, and nothing else has changed.
* `ReadsBack`: Success writes the arguments, and a dangling reference fails.
* `Accepted`: The statement succeeds on what is bound.

## Theorems

* `readRow_stored`: When what is bound reads back as given.
* `run_accepted`, `run_refused`: What a call does.
* `listed_iff`: When a row is listed.
* `readsBack_iff`: When a call reads back as written.
-/

namespace SendingSystem

namespace Server

open CString

/-- The arguments of an insert or an update of a data table. -/
inductive Arguments where
  | message (connectionId statusId typeId directionId : Int64)
      (response sendingTime request : Option CStr)
  | connection (ip : Option CStr) (port ssl : Int32) (roleId : Int64)
  | namedConnection (name : Option CStr) (connectionId : Int64)

namespace Arguments

/-- The table they are for. -/
def tab : Arguments → Tab
  | .message .. => .message
  | .connection .. => .connection
  | .namedConnection .. => .namedConnection

/-- The row they stand for. -/
def given : (a : Arguments) → Row a.tab
  | .message connectionId statusId typeId directionId response sendingTime request =>
    (⟨connectionId.toInt, statusId.toInt, typeId.toInt, directionId.toInt, response, sendingTime,
      request⟩ : MessageRow)
  | .connection ip port ssl roleId =>
    (⟨ip, port.toInt, ssl.toInt, roleId.toInt⟩ : ConnectionRow)
  | .namedConnection name connectionId => (⟨name, connectionId.toInt⟩ : NamedConnectionRow)

/-- The row that is bound. -/
def stored (fault : StmtFault) : (a : Arguments) → Row a.tab
  | .message connectionId statusId typeId directionId response sendingTime request =>
    (⟨connectionId.toInt, statusId.toInt, typeId.toInt, directionId.toInt,
      dbBindTextOrNull fault 5 response, dbBindTextOrNull fault 6 sendingTime,
      dbBindTextOrNull fault 7 request⟩ : MessageRow)
  | .connection ip port ssl roleId =>
    (⟨dbBindTextOrNull fault 1 ip, port.toInt, ssl.toInt, bindInt roleId.toInt⟩ : ConnectionRow)
  | .namedConnection name connectionId =>
    (⟨dbBindTextOrNull fault 1 name, connectionId.toInt⟩ : NamedConnectionRow)

/-- The struct that holds exactly the arguments. -/
def record (id : Int) : (a : Arguments) → Record a.tab
  | .message connectionId statusId typeId directionId response sendingTime request =>
    (⟨id, connectionId.toInt, statusId.toInt, typeId.toInt, directionId.toInt, response,
      sendingTime, request⟩ : Message)
  | .connection ip port ssl roleId =>
    (⟨id, ip, port.toInt, ssl.toInt, roleId.toInt⟩ : Connection)
  | .namedConnection name connectionId => (⟨id, name, connectionId.toInt⟩ : NamedConnection)

/-- A role id among them is left whole by `sqlite3_bind_int`. -/
def FitsInt : Arguments → Prop
  | .connection _ _ _ roleId => bindInt roleId.toInt = roleId.toInt
  | _ => True

/-- The texts among them, by the index of their parameter. -/
def texts : Arguments → List (Nat × Option CStr)
  | .message _ _ _ _ response sendingTime request =>
    [(5, response), (6, sendingTime), (7, request)]
  | .connection ip _ _ _ => [(1, ip)]
  | .namedConnection name _ => [(1, name)]

/-- `sqlite3_bind_text` copies every text that is given. -/
def Bound (fault : StmtFault) (a : Arguments) : Prop :=
  ∀ p ∈ a.texts, p.2.isSome → fault.bind p.1 = false

/-- The insert of their table. -/
def insert (fault : StmtFault) (db : Database) : Arguments → Ret
  | .message connectionId statusId typeId directionId response sendingTime request =>
    messageInsert fault db connectionId.toInt statusId.toInt typeId.toInt directionId.toInt
      response sendingTime request
  | .connection ip port ssl roleId =>
    connectionInsert fault db ip port.toInt ssl.toInt roleId.toInt
  | .namedConnection name connectionId => namedConnectionInsert fault db name connectionId.toInt

/-- The update of their table. -/
def update (fault : StmtFault) (db : Database) (id : Int) : Arguments → Ret
  | .message connectionId statusId typeId directionId response sendingTime request =>
    messageUpdate fault db id connectionId.toInt statusId.toInt typeId.toInt directionId.toInt
      response sendingTime request
  | .connection ip port ssl roleId =>
    connectionUpdate fault db id ip port.toInt ssl.toInt roleId.toInt
  | .namedConnection name connectionId => namedConnectionUpdate fault db id name connectionId.toInt

end Arguments

/-- The id of a struct. -/
def recordId : (t : Tab) → Record t → Int
  | .messageType, r => r.id
  | .messageStatus, r => r.id
  | .messageDirection, r => r.id
  | .connectionRole, r => r.id
  | .connection, r => r.id
  | .message, r => r.id
  | .namedConnection, r => r.id

/-- A call that writes one row. -/
inductive Write where
  | insert (a : Arguments)
  | update (id : Int64) (a : Arguments)

namespace Write

def args : Write → Arguments
  | .insert a => a
  | .update _ a => a

/-- The call. -/
def run (fault : StmtFault) (db : Database) : Write → Ret
  | .insert a => a.insert fault db
  | .update id a => a.update fault db id.toInt

/-- The id of the row written: the one handed out, or the one named. -/
def rowId (r : Ret) : Write → Option Int
  | .insert _ => r.outId
  | .update id _ => some id.toInt

/-- The id the row is written under, seen from the state before. -/
def site (db : Database) : Write → Int
  | .insert a => Db.seq (S := serverSchema) db a.tab + 1
  | .update id _ => id.toInt

/-- There is a place for the row: an id is left, or the row to replace exists. -/
def HasPlace (db : Database) : Write → Prop
  | .insert a => (db.tab a.tab).isSome ∧ Db.seq (S := serverSchema) db a.tab < maxRowid
  | .update id a => Used db a.tab id.toInt

/-- The number of rows its table has afterwards. -/
def rowsAfter (db : Database) : Write → Nat
  | .insert a => (Db.rows (S := serverSchema) db a.tab).length + 1
  | .update _ a => (Db.rows (S := serverSchema) db a.tab).length

end Write

/-- The row reads back as the arguments, the listing has it in id order, and every
    other row is as it was. -/
structure RowWritten (db db' : Database) (a : Arguments) (id : Int) : Prop where
  get : getRow .none db' a.tab id = some (a.record id)
  listed : ∃ l, (getAll .none db' a.tab).arr = some l ∧ a.record id ∈ l ∧
    l.Pairwise (fun r r' => recordId a.tab r < recordId a.tab r')
  others : ∀ t i, (t ≠ a.tab ∨ i ≠ id) →
    Db.get? (S := serverSchema) db' t i = Db.get? (S := serverSchema) db t i

/-- An argument that is a foreign key names no row. -/
def Dangling (db : Database) (a : Arguments) : Prop :=
  ∃ p ∈ refs a.tab a.given, ¬ Used db p.1 p.2

/-- A call that returns `0` has written its arguments, and one with a dangling
    reference returns `-1`. -/
structure ReadsBack (fault : StmtFault) (db : Database) (w : Write) : Prop where
  written : (w.run fault db).ret = 0 →
    ∃ id, w.rowId (w.run fault db) = some id ∧ RowWritten db (w.run fault db).db w.args id
  dangling : Dangling db w.args → (w.run fault db).ret = -1

/-- The statement succeeds: the system does not fail it, there is a place for the
    row, every reference bound names a row, and the index lets the row in. -/
structure Accepted (fault : StmtFault) (db : Database) (w : Write) : Prop where
  prepare : fault.prepare = false
  step : fault.step = false
  place : w.HasPlace db
  refs : ∀ p ∈ refs w.args.tab (w.args.stored fault), Used db p.1 p.2
  free : Db.clash (S := serverSchema) db w.args.tab (w.site db) (w.args.stored fault) = false

/-- An `int` survives the column and `sqlite3_column_int`. -/
theorem columnInt_toInt (x : Int32) : columnInt x.toInt = x.toInt := by
  have hlt := x.toInt_lt
  have hle := x.le_toInt
  rw [columnInt, Int.bmod_eq_of_le]
  · omega
  · omega

/-- What was narrowed once is not narrowed further. -/
theorem columnInt_bindInt (x : Int) : columnInt (bindInt x) = bindInt x := Int.bmod_bmod

/-- A text parameter holds its argument when there is none or it was copied. -/
theorem dbBindTextOrNull_eq_iff (fault : StmtFault) (idx : Nat) (v : Option CStr) :
    dbBindTextOrNull fault idx v = v ↔ (v.isSome → fault.bind idx = false) := by
  cases v with
  | none => exact iff_of_true rfl fun h => absurd h Bool.false_ne_true
  | some text =>
      cases hbind : fault.bind idx with
      | false => exact iff_of_true (dbBindTextOrNull_of_bound _ hbind) fun _ => rfl
      | true =>
          rw [dbBindTextOrNull_of_failed _ hbind]
          exact iff_of_false nofun fun h => Bool.noConfusion (h rfl)

/-- What is bound is what was given when no role id is narrowed and every text is
    copied. -/
theorem stored_eq_given {fault : StmtFault} {a : Arguments} (h : a.FitsInt)
    (hbound : a.Bound fault) : a.stored fault = a.given := by
  -- Each text parameter holds its argument.
  have htext : ∀ p ∈ a.texts, dbBindTextOrNull fault p.1 p.2 = p.2 := fun p hp =>
    (dbBindTextOrNull_eq_iff fault p.1 p.2).mpr (hbound p hp)
  cases a with
  | message =>
      simp only [Arguments.texts, List.forall_mem_cons] at htext
      simp only [Arguments.stored, htext]
      rfl
  | connection ip port ssl roleId =>
      simp only [Arguments.texts, List.forall_mem_cons] at htext
      simp only [Arguments.stored, htext, show bindInt roleId.toInt = roleId.toInt from h]
      rfl
  | namedConnection =>
      simp only [Arguments.texts, List.forall_mem_cons] at htext
      simp only [Arguments.stored, htext]
      rfl

/-- What is bound reads back as given when no role id was narrowed and every text
    was copied. -/
theorem readRow_stored (fault : StmtFault) (a : Arguments) (id : Int) :
    readRow a.tab (fun _ => false) (id, a.stored fault) = a.record id ↔
      a.FitsInt ∧ a.Bound fault := by
  -- Only the role is bound as an `int`; the other numbers keep their arguments.
  cases a with
  | message connectionId statusId typeId directionId response sendingTime request =>
      have hread : readRow Tab.message (fun _ => false) (id,
          (⟨connectionId.toInt, statusId.toInt, typeId.toInt, directionId.toInt,
            dbBindTextOrNull fault 5 response, dbBindTextOrNull fault 6 sendingTime,
            dbBindTextOrNull fault 7 request⟩ : MessageRow))
          = (⟨id, connectionId.toInt, statusId.toInt, typeId.toInt, directionId.toInt,
            dbBindTextOrNull fault 5 response, dbBindTextOrNull fault 6 sendingTime,
            dbBindTextOrNull fault 7 request⟩ : Message) := rfl
      simp only [Arguments.FitsInt, Arguments.Bound, Arguments.texts, List.forall_mem_cons,
        ← dbBindTextOrNull_eq_iff, true_and]
      refine (Eq.congr_left hread).trans ?_
      simp [Arguments.record]
  | connection ip port ssl roleId =>
      have hread : readRow Tab.connection (fun _ => false)
          (id, (⟨dbBindTextOrNull fault 1 ip, port.toInt, ssl.toInt, bindInt roleId.toInt⟩
            : ConnectionRow))
          = (⟨id, dbBindTextOrNull fault 1 ip, port.toInt, ssl.toInt, bindInt roleId.toInt⟩
            : Connection) := by
        simp only [readRow, columnInt_toInt, columnInt_bindInt]
        rfl
      simp only [Arguments.FitsInt, Arguments.Bound, Arguments.texts, List.forall_mem_cons,
        ← dbBindTextOrNull_eq_iff]
      refine (Eq.congr_left hread).trans ?_
      simp [Arguments.record, and_comm]
  | namedConnection name connectionId =>
      have hread : readRow Tab.namedConnection (fun _ => false)
          (id, (⟨dbBindTextOrNull fault 1 name, connectionId.toInt⟩ : NamedConnectionRow))
          = (⟨id, dbBindTextOrNull fault 1 name, connectionId.toInt⟩ : NamedConnection) := rfl
      simp only [Arguments.FitsInt, Arguments.Bound, Arguments.texts, List.forall_mem_cons,
        ← dbBindTextOrNull_eq_iff, true_and]
      refine (Eq.congr_left hread).trans ?_
      simp [Arguments.record]

theorem recordId_readRow (t : Tab) (copy : Nat → Bool) (r : Int × Row t) :
    recordId t (readRow t copy r) = r.1 := by
  cases t <;> rfl

/-- A row is listed, in id order, when the table is no larger than a listing. -/
theorem listed_iff {db : Database} {t : Tab} {id : Int} {row : Row t}
    (h : (id, row) ∈ Db.rows (S := serverSchema) db t) :
    (∃ l, (getAll .none db t).arr = some l ∧ readRow t (fun _ => false) (id, row) ∈ l ∧
      l.Pairwise (fun r r' => recordId t r < recordId t r')) ↔
    (Db.rows (S := serverSchema) db t).length ≤ 2 ^ 30 := by
  rcases getAll_none db t with ⟨hle, harr⟩ | ⟨hgt, hnone⟩
  · refine iff_of_true ?_ hle
    have hmem := List.mem_map_of_mem (f := readRow t (fun _ => false)) h
    rw [← harr] at hmem
    -- The array is not `NULL`, since the row is in it.
    rcases hnull : (getAll .none db t).arr with _ | l
    · rw [hnull] at hmem
      exact absurd hmem List.not_mem_nil
    · rw [hnull, Option.getD_some] at harr hmem
      refine ⟨l, rfl, hmem, ?_⟩
      rw [harr, List.pairwise_map]
      refine (Db.rows_ascending (S := serverSchema) db t).imp fun hlt => ?_
      rw [recordId_readRow, recordId_readRow]
      exact hlt
  · refine iff_of_false ?_ (by omega)
    rintro ⟨l, hl, _⟩
    rw [hnone] at hl
    simp only [reduceCtorEq] at hl

theorem notNull_stored (fault : StmtFault) (a : Arguments) :
    notNull a.tab (a.stored fault) = true := by
  cases a <;> rfl

theorem insert_eq (fault : StmtFault) (db : Database) (a : Arguments) :
    a.insert fault db = insertRow fault db a.tab (a.stored fault) := by
  cases a <;> rfl

theorem update_eq (fault : StmtFault) (db : Database) (id : Int) (a : Arguments) :
    a.update fault db id = updateRow fault db a.tab id (a.stored fault) := by
  cases a <;> rfl

/-- A call that is accepted returns `0` and leaves what was bound under its id,
    with every other row as it was. -/
theorem run_accepted {fault : StmtFault} {db : Database} {w : Write} (h : Accepted fault db w) :
    (w.run fault db).ret = 0 ∧ w.rowId (w.run fault db) = some (w.site db) ∧
      (w.site db, w.args.stored fault)
        ∈ Db.rows (S := serverSchema) (w.run fault db).db w.args.tab ∧
      (Db.rows (S := serverSchema) (w.run fault db).db w.args.tab).length = w.rowsAfter db ∧
      ∀ t i, (t ≠ w.args.tab ∨ i ≠ w.site db) →
        Db.get? (S := serverSchema) (w.run fault db).db t i
          = Db.get? (S := serverSchema) db t i := by
  rcases h with ⟨hprepare, hstep, hplace, hrefs, hfree⟩
  have hpresent : ∀ p ∈ refs w.args.tab (w.args.stored fault),
      Db.present (S := serverSchema) db p = true := fun p hp => Db.present_iff.mpr (hrefs p hp)
  cases w with
  | insert a =>
      -- What is accepted is what the statement needs to succeed.
      rcases (insert_isSome_iff (refs_ne a.tab (a.stored fault))).mpr
        ⟨hplace.1, hplace.2, notNull_stored fault a, hfree, hpresent⟩ with ⟨db', id, hins⟩
      have hrun : (Write.insert a).run fault db = ⟨0, some id, db'⟩ := by
        rw [Write.run, insert_eq, insertRow, hprepare, hstep, if_neg Bool.false_ne_true,
          if_neg Bool.false_ne_true, hins]
      rcases insert_fresh hins with ⟨hid, _, hmem⟩
      rw [hrun]
      refine ⟨rfl, congrArg some hid, ?_, ?_, fun t i hne => ?_⟩
      · rw [Write.site, ← hid]
        exact hmem
      · exact (congrArg List.length (rows_insert hins)).trans List.length_append
      · rw [Write.site, ← hid] at hne
        exact get?_insert_of_ne hins hne
  | update id a =>
      rcases (update_isSome_iff (refs_ne a.tab (a.stored fault))).mpr
        ⟨Db.present_iff.mpr hplace, notNull_stored fault a, hfree, hpresent⟩ with ⟨db', hupd⟩
      have hrun : (Write.update id a).run fault db = ⟨0, none, db'⟩ := by
        rw [Write.run, update_eq, updateRow, hprepare, hstep, if_neg Bool.false_ne_true,
          if_neg Bool.false_ne_true, hupd]
        rfl
      rw [hrun]
      refine ⟨rfl, rfl, (mem_rows_update hupd _).mpr (Or.inr rfl), length_rows_update hupd,
        fun t i hne => get?_update_of_ne hupd hne⟩

/-- A call that is not accepted returns `-1`. -/
theorem run_refused {fault : StmtFault} {db : Database} {w : Write}
    (h : ¬ Accepted fault db w) : (w.run fault db).ret = -1 := by
  by_contra hret
  apply h
  -- A statement that went through has met every condition of the schema.
  cases w with
  | insert a =>
      rw [Write.run, insert_eq] at hret
      rcases insertRow_cases fault db a.tab (a.stored fault) with hfail | ⟨db', id, hok, hins⟩
      · rw [hfail] at hret
        exact absurd rfl hret
      · rcases insertRow_faults hok with ⟨hprepare, hstep⟩
        rcases (insert_isSome_iff (refs_ne a.tab (a.stored fault))).mp ⟨db', id, hins⟩ with
          ⟨htab, hids, _, hfree, hrefs⟩
        exact ⟨hprepare, hstep, ⟨htab, hids⟩, fun p hp => Db.present_iff.mp (hrefs p hp), hfree⟩
  | update id a =>
      rw [Write.run, update_eq] at hret
      rcases updateRow_cases fault db a.tab id.toInt (a.stored fault) with hfail | ⟨db', hok, hupd⟩
      · rw [hfail] at hret
        exact absurd rfl hret
      · rcases updateRow_faults hok with ⟨hprepare, hstep⟩
        rcases (update_isSome_iff (refs_ne a.tab (a.stored fault))).mp ⟨db', hupd⟩ with
          ⟨hpresent, _, hfree, hrefs⟩
        exact ⟨hprepare, hstep, Db.present_iff.mp hpresent,
          fun p hp => Db.present_iff.mp (hrefs p hp), hfree⟩

/-- For every state of the file and all arguments of their C types: an insert or
    an update that returns `0` reads back as written, and one with a dangling
    reference returns `-1`, exactly when no role id among the arguments is
    narrowed, every text that is given is copied and the table stays within `2^30`
    rows, or the statement is refused as it is bound. -/
theorem readsBack_iff (fault : StmtFault) (db : Database) (w : Write) :
    ReadsBack fault db w ↔
      (w.args.FitsInt ∧ w.args.Bound fault ∧ w.rowsAfter db ≤ 2 ^ 30) ∨
        ¬ Accepted fault db w := by
  by_cases hacc : Accepted fault db w
  · rw [or_iff_left (not_not_intro hacc)]
    rcases run_accepted hacc with ⟨hret, hid, hmem, hlen, hothers⟩
    have hget := getRow_none_eq_some hmem
    constructor
    -- The listing holds the row only if it could be made at all.
    · rintro ⟨hwritten, _⟩
      rcases hwritten hret with ⟨id, hrow, hw⟩
      rw [hid, Option.some.injEq] at hrow
      subst hrow
      have hread := hget.symm.trans hw.get
      rw [Option.some.injEq] at hread
      rcases (readRow_stored fault w.args _).mp hread with ⟨hfits, hbound⟩
      refine ⟨hfits, hbound, ?_⟩
      rw [← hlen]
      refine (listed_iff hmem).mp ?_
      rw [hread]
      exact hw.listed
    · rintro ⟨hfits, hbound, hle⟩
      have hread := (readRow_stored fault w.args (w.site db)).mpr ⟨hfits, hbound⟩
      refine ⟨fun _ => ⟨w.site db, hid, ?_, ?_, hothers⟩, ?_⟩
      · rw [hget, hread]
      · rw [← hread]
        exact (listed_iff hmem).mpr (by rw [hlen]; exact hle)
      -- What is bound is what was given, and no reference of that dangles.
      · rintro ⟨p, hp, hno⟩
        rw [← stored_eq_given hfits hbound] at hp
        exact absurd (hacc.refs p hp) hno
  · have hret := run_refused hacc
    refine iff_of_true ⟨fun hzero => ?_, fun _ => hret⟩ (Or.inr hacc)
    rw [hret] at hzero
    omega

/-- A role id that is `CLIENT` in its low 32 bits and no role as a whole. -/
def wideRole : Write := .insert (.connection (some (.lit "10.0.0.7")) 5000 1 4294967298)

/-- On a new file the wide role is taken for `CLIENT`. -/
theorem readsBack_wideRole : ¬ ∀ (cs : List Call) (s : Store), Store.initial.run cs = some s →
    ∀ (fault : StmtFault) (w : Write), ReadsBack fault s.db w := by
  intro h
  have hback := h [.databaseOpen .none] ⟨createdDatabase, true⟩ rfl .none wideRole
  have hret : (wideRole.run .none createdDatabase).ret = 0 := by decide
  -- The ids of the roles end at 4.
  have hdangling : Dangling createdDatabase wideRole.args := by
    refine ⟨(.connectionRole, 4294967298), List.mem_singleton.mpr rfl, ?_⟩
    rintro ⟨row, hrow⟩
    have hbounds := Db.id_bounds hrow
    have hseq : Db.seq (S := serverSchema) createdDatabase .connectionRole = 4 := by decide
    rw [hseq] at hbounds
    simp only at hbounds
    omega
  have hrefused := hback.dangling hdangling
  rw [hret] at hrefused
  omega

end Server

end SendingSystem
