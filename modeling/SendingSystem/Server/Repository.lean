import SendingSystem.Server.Schema

/-!
# Repositories

The functions of the seven `*_repository.c` files that change a table, and
`connection_get_or_create`. They are written over three shapes, one for each
kind of statement, since the repositories differ only in the table and in the
columns they bind: prepare, bind, step, and turn the step's result into `0` or
`-1`. `connection_get_or_create` is two such statements, a `SELECT` and, when
that finds nothing, an `INSERT`; they are separate here too, because nothing
makes them one step.

`role_id` is bound with `sqlite3_bind_int`, so what reaches the column is its
low 32 bits. A text whose `sqlite3_bind_text` fails does not reach its column at
all: no caller looks at the result of a bind, so the parameter stays `NULL` and
the statement goes on.

## Main definitions

* `StmtFault`: What the system fails of a statement.
* `dbBindTextOrNull`: What a text parameter holds when the statement is stepped.
* `Ret`: What a repository function returns, and the database it leaves.
* `insertRow`, `updateRow`, `deleteRow`: The three shapes.
* `MessageRow.bound`: A message as it is bound.
* `connections`: The rows of `Connection`.
* `connectionFind`: The `SELECT` of `connection_get_or_create`.
* `connectionGetOrCreate`: Both statements in a row.

## Theorems

* `insertRow_cases`, `updateRow_cases`, `deleteRow_cases`: What a call can do.
* `dbBindTextOrNull_of_bound`, `dbBindTextOrNull_of_failed`: What a bind leaves.
* `insertRow_faults`, `updateRow_faults`: A call that returned `0` was prepared and
  stepped.
* `rows_insertRow_of_ne`, `rows_updateRow_of_ne`, `rows_deleteRow_of_ne`: A call on
  one table leaves the others alone.
* `mem_rows_insertRow`, `mem_rows_updateRow`, `mem_rows_deleteRow`: What is in a table
  after a call on it.
* `connectionGetOrCreate_cases`: It finds a row, creates one, or fails.
* `connectionFind_cases`: A row found is one of the peer.
-/

namespace SendingSystem

namespace Server

open CString

/-- What the system fails of a statement: `sqlite3_prepare_v2` or `sqlite3_step`
    reports an error that is none of the schema's, or `sqlite3_bind_text` cannot
    copy the text of the parameters in `bind` (`SQLITE_NOMEM`, `SQLITE_TOOBIG`). -/
structure StmtFault where
  prepare : Bool
  step : Bool
  bind : Nat → Bool

/-- Nothing fails. -/
def StmtFault.none : StmtFault := ⟨false, false, fun _ => false⟩

/-- The `int` a function returns, the id it stores through `out_id`, and the
    database afterwards. -/
structure Ret where
  ret : Int
  outId : Option Int
  db : Database

/-- `sqlite3_bind_text`: what the parameter holds afterwards. A bind that fails
    leaves it `NULL`. -/
def bindText (fault : StmtFault) (idx : Nat) (v : Option CStr) : Option CStr :=
  if fault.bind idx then none else v

/-- `db_bind_text_or_null`. What `sqlite3_bind_text` returns is dropped. -/
def dbBindTextOrNull (fault : StmtFault) (idx : Nat) : Option CStr → Option CStr
  | some v => bindText fault idx (some v)
  | none => none

/-- `sqlite3_bind_int` of a `DB_ID`: the low 32 bits, as a signed `int`. -/
def bindInt (x : Int) : Int := x.bmod (2 ^ 32)

/-- The shape of the `*_insert` functions; `row` is what is bound. -/
def insertRow (fault : StmtFault) (db : Database) (t : Tab) (row : Row t) : Ret :=
  if fault.prepare then ⟨-1, none, db⟩
  else
    match (if fault.step then none else Db.insert (S := serverSchema) db t row) with
    | none => ⟨-1, none, db⟩
    | some (db', id) => ⟨0, some id, db'⟩

/-- The shape of the `*_update` functions; `row` is what is bound. `0` when a row
    was changed. -/
def updateRow (fault : StmtFault) (db : Database) (t : Tab) (id : Int) (row : Row t) : Ret :=
  if fault.prepare then ⟨-1, none, db⟩
  else
    -- `sqlite3_changes` tells a row that was changed from no row at all.
    match (if fault.step then none else Db.update (S := serverSchema) db t id row) with
    | none => ⟨-1, none, db⟩
    | some (db', changes) => if 0 < changes then ⟨0, none, db'⟩ else ⟨-1, none, db'⟩

/-- The shape of the `*_delete` functions: `0` when a row was removed. -/
def deleteRow (fault : StmtFault) (db : Database) (t : Tab) (id : Int) : Ret :=
  if fault.prepare then ⟨-1, none, db⟩
  else
    match (if fault.step then none else Db.delete (S := serverSchema) db t id) with
    | none => ⟨-1, none, db⟩
    | some (db', changes) => if 0 < changes then ⟨0, none, db'⟩ else ⟨-1, none, db'⟩

/-- `message_type_insert`. -/
def messageTypeInsert (fault : StmtFault) (db : Database) (name : Option CStr) : Ret :=
  insertRow fault db .messageType (⟨bindText fault 1 name⟩ : ReferenceRow)

/-- `message_type_update`. -/
def messageTypeUpdate (fault : StmtFault) (db : Database) (id : Int) (name : Option CStr) : Ret :=
  updateRow fault db .messageType id (⟨bindText fault 1 name⟩ : ReferenceRow)

/-- `message_type_delete`. -/
def messageTypeDelete (fault : StmtFault) (db : Database) (id : Int) : Ret :=
  deleteRow fault db .messageType id

/-- `message_status_insert`. -/
def messageStatusInsert (fault : StmtFault) (db : Database) (name : Option CStr) : Ret :=
  insertRow fault db .messageStatus (⟨bindText fault 1 name⟩ : ReferenceRow)

/-- `message_status_update`. -/
def messageStatusUpdate (fault : StmtFault) (db : Database) (id : Int) (name : Option CStr) : Ret :=
  updateRow fault db .messageStatus id (⟨bindText fault 1 name⟩ : ReferenceRow)

/-- `message_status_delete`. -/
def messageStatusDelete (fault : StmtFault) (db : Database) (id : Int) : Ret :=
  deleteRow fault db .messageStatus id

/-- `message_direction_insert`. -/
def messageDirectionInsert (fault : StmtFault) (db : Database) (name : Option CStr) : Ret :=
  insertRow fault db .messageDirection (⟨bindText fault 1 name⟩ : ReferenceRow)

/-- `message_direction_update`. -/
def messageDirectionUpdate (fault : StmtFault) (db : Database) (id : Int) (name : Option CStr) :
    Ret :=
  updateRow fault db .messageDirection id (⟨bindText fault 1 name⟩ : ReferenceRow)

/-- `message_direction_delete`. -/
def messageDirectionDelete (fault : StmtFault) (db : Database) (id : Int) : Ret :=
  deleteRow fault db .messageDirection id

/-- `connection_role_insert`. -/
def connectionRoleInsert (fault : StmtFault) (db : Database) (name : Option CStr) : Ret :=
  insertRow fault db .connectionRole (⟨bindText fault 1 name⟩ : ReferenceRow)

/-- `connection_role_update`. -/
def connectionRoleUpdate (fault : StmtFault) (db : Database) (id : Int) (name : Option CStr) :
    Ret :=
  updateRow fault db .connectionRole id (⟨bindText fault 1 name⟩ : ReferenceRow)

/-- `connection_role_delete`. -/
def connectionRoleDelete (fault : StmtFault) (db : Database) (id : Int) : Ret :=
  deleteRow fault db .connectionRole id

/-- `connection_insert`. -/
def connectionInsert (fault : StmtFault) (db : Database) (ip : Option CStr)
    (port ssl roleId : Int) : Ret :=
  insertRow fault db .connection
    (⟨dbBindTextOrNull fault 1 ip, port, ssl, bindInt roleId⟩ : ConnectionRow)

/-- `connection_update`. -/
def connectionUpdate (fault : StmtFault) (db : Database) (id : Int) (ip : Option CStr)
    (port ssl roleId : Int) : Ret :=
  updateRow fault db .connection id
    (⟨dbBindTextOrNull fault 1 ip, port, ssl, bindInt roleId⟩ : ConnectionRow)

/-- `connection_delete`. -/
def connectionDelete (fault : StmtFault) (db : Database) (id : Int) : Ret :=
  deleteRow fault db .connection id

/-- A message as it is bound: its texts are the parameters 5 to 7. -/
def MessageRow.bound (fault : StmtFault) (row : MessageRow) : MessageRow :=
  { row with
    response := dbBindTextOrNull fault 5 row.response
    sendingTime := dbBindTextOrNull fault 6 row.sendingTime
    request := dbBindTextOrNull fault 7 row.request }

/-- `message_insert`. -/
def messageInsert (fault : StmtFault) (db : Database)
    (connectionId statusId typeId directionId : Int) (response sendingTime request : Option CStr) :
    Ret :=
  insertRow fault db .message
    (⟨connectionId, statusId, typeId, directionId, dbBindTextOrNull fault 5 response,
      dbBindTextOrNull fault 6 sendingTime, dbBindTextOrNull fault 7 request⟩ : MessageRow)

/-- `message_update`. -/
def messageUpdate (fault : StmtFault) (db : Database) (id : Int)
    (connectionId statusId typeId directionId : Int) (response sendingTime request : Option CStr) :
    Ret :=
  updateRow fault db .message id
    (⟨connectionId, statusId, typeId, directionId, dbBindTextOrNull fault 5 response,
      dbBindTextOrNull fault 6 sendingTime, dbBindTextOrNull fault 7 request⟩ : MessageRow)

/-- `message_delete`. -/
def messageDelete (fault : StmtFault) (db : Database) (id : Int) : Ret :=
  deleteRow fault db .message id

/-- `named_connection_insert`. -/
def namedConnectionInsert (fault : StmtFault) (db : Database) (name : Option CStr)
    (connectionId : Int) : Ret :=
  insertRow fault db .namedConnection
    (⟨dbBindTextOrNull fault 1 name, connectionId⟩ : NamedConnectionRow)

/-- `named_connection_update`. -/
def namedConnectionUpdate (fault : StmtFault) (db : Database) (id : Int) (name : Option CStr)
    (connectionId : Int) : Ret :=
  updateRow fault db .namedConnection id
    (⟨dbBindTextOrNull fault 1 name, connectionId⟩ : NamedConnectionRow)

/-- `named_connection_delete`. -/
def namedConnectionDelete (fault : StmtFault) (db : Database) (id : Int) : Ret :=
  deleteRow fault db .namedConnection id

/-- `WHERE ip=? AND port=? AND isSSLEncrypted=? AND roleId=?`. Comparing with a
    `NULL` address is never true. -/
def peerMatches (ip : Option CStr) (port ssl roleId : Int) (c : ConnectionRow) : Bool :=
  ip.isSome && c.ip = ip && c.port = port && c.isSslEncrypted = ssl && c.roleId = bindInt roleId

/-- The rows of `Connection`, in id order. -/
def connections (db : Database) : List (Int × ConnectionRow) :=
  Db.rows (S := serverSchema) db .connection

/-- The `SELECT` of `connection_get_or_create`: `id` after it, `-1` when the
    statement gives no row. -/
def connectionFind (fault : StmtFault) (db : Database) (ip : Option CStr)
    (port ssl roleId : Int) : Int :=
  if fault.step then -1
  else
    match (connections db).find?
        (fun r => peerMatches (dbBindTextOrNull fault 1 ip) port ssl roleId r.2) with
    | some r => r.1
    | none => -1

/-- `connection_get_or_create`: the id it returns and the database afterwards.
    The two faults are those of the `SELECT` and of the `INSERT`. -/
def connectionGetOrCreate (find insert : StmtFault) (db : Database) (ip : Option CStr)
    (port ssl roleId : Int) : Int × Database :=
  if find.prepare then (-1, db)
  else
    let id := connectionFind find db ip port ssl roleId
    if 0 ≤ id then (id, db)
    else
      let r := connectionInsert insert db ip port ssl roleId
      if r.ret ≠ 0 then (-1, r.db) else (r.outId.getD id, r.db)

section Binds

variable (fault : StmtFault) (idx : Nat) (v : Option CStr)

/-- Binding a text or `NULL` is binding what may be `NULL`. -/
theorem dbBindTextOrNull_eq : dbBindTextOrNull fault idx v = bindText fault idx v := by
  cases v with
  | some v => rfl
  | none => exact (ite_self none).symm

@[simp] theorem bindText_none : bindText .none idx v = v := rfl

@[simp] theorem dbBindTextOrNull_none : dbBindTextOrNull .none idx v = v := by
  rw [dbBindTextOrNull_eq, bindText_none]

variable {fault idx}

/-- A bind that works leaves the text. -/
theorem dbBindTextOrNull_of_bound (h : fault.bind idx = false) :
    dbBindTextOrNull fault idx v = v := by
  rw [dbBindTextOrNull_eq, bindText, h, if_neg Bool.false_ne_true]

/-- A bind that fails leaves `NULL`. -/
theorem dbBindTextOrNull_of_failed (h : fault.bind idx = true) :
    dbBindTextOrNull fault idx v = none := by
  rw [dbBindTextOrNull_eq, bindText, if_pos h]

end Binds

@[simp] theorem MessageRow.bound_none (row : MessageRow) : row.bound .none = row := by
  simp only [bound, dbBindTextOrNull_none]

/-- Inserting a message inserts it as it is bound. -/
theorem messageInsert_eq (fault : StmtFault) (db : Database) (row : MessageRow) :
    messageInsert fault db row.connectionId row.messageStatusId row.messageTypeId row.directionId
      row.response row.sendingTime row.request = insertRow fault db .message (row.bound fault) :=
  rfl

/-- What an insertion can do: nothing, or one row under a fresh id. -/
theorem insertRow_cases (fault : StmtFault) (db : Database) (t : Tab) (row : Row t) :
    insertRow fault db t row = ⟨-1, none, db⟩ ∨
      ∃ db' id, insertRow fault db t row = ⟨0, some id, db'⟩ ∧
        Db.insert (S := serverSchema) db t row = some (db', id) := by
  unfold insertRow
  -- The statement is prepared, then stepped, and what it does is the table's.
  by_cases hprepare : fault.prepare = true
  · exact Or.inl (if_pos hprepare)
  · rw [if_neg hprepare]
    by_cases hstep : fault.step = true
    · rw [if_pos hstep]
      exact Or.inl rfl
    · rw [if_neg hstep]
      rcases hins : Db.insert (S := serverSchema) db t row with _ | ⟨db', id⟩
      · exact Or.inl rfl
      · exact Or.inr ⟨db', id, rfl, rfl⟩

/-- A call that returned `0` was prepared and stepped. -/
theorem insertRow_faults {fault : StmtFault} {db db' : Database} {t : Tab} {row : Row t} {id : Int}
    (h : insertRow fault db t row = ⟨0, some id, db'⟩) :
    fault.prepare = false ∧ fault.step = false := by
  rcases fault with ⟨prepare, step, bind⟩
  cases prepare with
  | true => simp only [insertRow, if_true, Ret.mk.injEq, reduceCtorEq, false_and] at h
  | false =>
      cases step with
      | true => simp only [insertRow, Bool.false_eq_true, if_true, if_false, Ret.mk.injEq,
          reduceCtorEq, false_and] at h
      | false => exact ⟨rfl, rfl⟩

theorem updateRow_faults {fault : StmtFault} {db db' : Database} {t : Tab} {id : Int} {row : Row t}
    (h : updateRow fault db t id row = ⟨0, none, db'⟩) :
    fault.prepare = false ∧ fault.step = false := by
  rcases fault with ⟨prepare, step, bind⟩
  cases prepare with
  | true => simp only [updateRow, if_true, Ret.mk.injEq, reduceCtorEq, false_and] at h
  | false =>
      cases step with
      | true => simp only [updateRow, Bool.false_eq_true, if_true, if_false, Ret.mk.injEq,
          reduceCtorEq, false_and] at h
      | false => exact ⟨rfl, rfl⟩

/-- What an update can do: nothing, or one row replaced. -/
theorem updateRow_cases (fault : StmtFault) (db : Database) (t : Tab) (id : Int) (row : Row t) :
    updateRow fault db t id row = ⟨-1, none, db⟩ ∨
      ∃ db', updateRow fault db t id row = ⟨0, none, db'⟩ ∧
        Db.update (S := serverSchema) db t id row = some (db', 1) := by
  unfold updateRow
  by_cases hprepare : fault.prepare = true
  · exact Or.inl (if_pos hprepare)
  · rw [if_neg hprepare]
    by_cases hstep : fault.step = true
    · rw [if_pos hstep]
      exact Or.inl rfl
    · rw [if_neg hstep]
      rcases hupd : Db.update (S := serverSchema) db t id row with _ | ⟨db', n⟩
      · exact Or.inl rfl
      -- No row with the id is the other way to `-1`, and it changed nothing.
      · rcases update_eq_some hupd with ⟨rfl, rfl, _⟩ | ⟨_, rfl, _⟩
        · exact Or.inl rfl
        · exact Or.inr ⟨db', rfl, rfl⟩

/-- What a deletion can do: nothing, or one row removed. -/
theorem deleteRow_cases (fault : StmtFault) (db : Database) (t : Tab) (id : Int) :
    deleteRow fault db t id = ⟨-1, none, db⟩ ∨
      ∃ db', deleteRow fault db t id = ⟨0, none, db'⟩ ∧
        Db.delete (S := serverSchema) db t id = some (db', 1) := by
  unfold deleteRow
  by_cases hprepare : fault.prepare = true
  · exact Or.inl (if_pos hprepare)
  · rw [if_neg hprepare]
    by_cases hstep : fault.step = true
    · rw [if_pos hstep]
      exact Or.inl rfl
    · rw [if_neg hstep]
      rcases hdel : Db.delete (S := serverSchema) db t id with _ | ⟨db', n⟩
      · exact Or.inl rfl
      -- No row is an error to the caller, though the statement succeeds.
      · rcases delete_eq_some hdel with ⟨rfl, rfl, _⟩ | ⟨_, rfl, _⟩
        · exact Or.inl rfl
        · exact Or.inr ⟨db', rfl, rfl⟩

section OtherTables

variable (fault : StmtFault) (db : Database) {t u : Tab} (id : Int) (row : Row t)

/-- A call on one table leaves the rows of the others alone. -/
theorem rows_insertRow_of_ne (hu : u ≠ t) :
    Db.rows (S := serverSchema) (insertRow fault db t row).db u
      = Db.rows (S := serverSchema) db u := by
  rcases insertRow_cases fault db t row with hfail | ⟨db', id, hok, hins⟩
  · rw [hfail]
  · rw [hok]
    exact rows_insert_of_ne hins hu

theorem rows_updateRow_of_ne (hu : u ≠ t) :
    Db.rows (S := serverSchema) (updateRow fault db t id row).db u
      = Db.rows (S := serverSchema) db u := by
  rcases updateRow_cases fault db t id row with hfail | ⟨db', hok, hupd⟩
  · rw [hfail]
  · rw [hok]
    exact rows_update_of_ne hupd hu

theorem rows_deleteRow_of_ne (hu : u ≠ t) :
    Db.rows (S := serverSchema) (deleteRow fault db t id).db u
      = Db.rows (S := serverSchema) db u := by
  rcases deleteRow_cases fault db t id with hfail | ⟨db', hok, hdel⟩
  · rw [hfail]
  · rw [hok]
    exact rows_delete_of_ne hdel hu

end OtherTables

section SameTable

variable {fault : StmtFault} {db : Database} {t : Tab} {id : Int} {row : Row t} {r : Int × Row t}

/-- A row of the table after a call was there before, or is what the call writes. -/
theorem mem_rows_insertRow (hr : r ∈ Db.rows (S := serverSchema) (insertRow fault db t row).db t) :
    r ∈ Db.rows (S := serverSchema) db t ∨ r.2 = row := by
  rcases insertRow_cases fault db t row with hfail | ⟨db', id, hok, hins⟩
  · rw [hfail] at hr
    exact Or.inl hr
  · rw [hok, rows_insert hins] at hr
    rcases List.mem_append.mp hr with hr | hr
    · exact Or.inl hr
    · rw [List.mem_singleton.mp hr]
      exact Or.inr rfl

theorem mem_rows_updateRow
    (hr : r ∈ Db.rows (S := serverSchema) (updateRow fault db t id row).db t) :
    r ∈ Db.rows (S := serverSchema) db t ∨ r.2 = row := by
  rcases updateRow_cases fault db t id row with hfail | ⟨db', hok, hupd⟩
  · rw [hfail] at hr
    exact Or.inl hr
  · rw [hok] at hr
    rcases (mem_rows_update hupd r).mp hr with hold | hnew
    · exact Or.inl hold.1
    · rw [hnew]
      exact Or.inr rfl

theorem mem_rows_deleteRow (hr : r ∈ Db.rows (S := serverSchema) (deleteRow fault db t id).db t) :
    r ∈ Db.rows (S := serverSchema) db t := by
  rcases deleteRow_cases fault db t id with hfail | ⟨db', hok, hdel⟩
  · rw [hfail] at hr
    exact hr
  · rw [hok] at hr
    rcases delete_eq_some hdel with ⟨hn, _⟩ | ⟨T, _, htab, _, rfl, _⟩
    · omega
    · rw [Db.rows_set_self] at hr
      rw [Db.rows_of_tab htab]
      exact (Table.mem_delete.mp hr).1

end SameTable

/-- A row the `SELECT` gives is a row of the peer. -/
theorem connectionFind_cases (fault : StmtFault) (db : Database) (ip : Option CStr)
    (port ssl roleId : Int) :
    connectionFind fault db ip port ssl roleId = -1 ∨
      ∃ r ∈ connections db, connectionFind fault db ip port ssl roleId = r.1 ∧ 1 ≤ r.1 ∧
        r.2 = ⟨ip, port, ssl, bindInt roleId⟩ := by
  unfold connectionFind
  by_cases hstep : fault.step = true
  · exact Or.inl (if_pos hstep)
  · rw [if_neg hstep]
    cases hfind : (connections db).find?
        (fun r => peerMatches (dbBindTextOrNull fault 1 ip) port ssl roleId r.2) with
    | none => exact Or.inl rfl
    | some r =>
        -- A row that matches has the very columns that were asked for.
        have hmem := List.mem_of_find?_eq_some hfind
        have hmatch := List.find?_some hfind
        simp only [peerMatches, Bool.and_eq_true, decide_eq_true_eq] at hmatch
        rcases hmatch with ⟨⟨⟨⟨hsome, hip⟩, hport⟩, hssl⟩, hrole⟩
        -- Nothing matches an address that was not bound.
        have hbound : fault.bind 1 = false := by
          by_contra hfailed
          rw [dbBindTextOrNull_of_failed ip (eq_true_of_ne_false hfailed)] at hsome
          exact Bool.false_ne_true hsome
        rw [dbBindTextOrNull_of_bound ip hbound] at hip
        refine Or.inr ⟨r, hmem, rfl, (Db.id_bounds hmem).1, ?_⟩
        rw [← hip, ← hport, ← hssl, ← hrole]

/-- What `connection_get_or_create` can do: fail, find a row of the peer, or
    insert one, whose address is missing when it could not be bound. Only the last
    changes the database. -/
theorem connectionGetOrCreate_cases (find insert : StmtFault) (db : Database) (ip : Option CStr)
    (port ssl roleId : Int) :
    connectionGetOrCreate find insert db ip port ssl roleId = (-1, db) ∨
    (∃ r ∈ connections db,
      connectionGetOrCreate find insert db ip port ssl roleId = (r.1, db) ∧ 1 ≤ r.1 ∧
        r.2 = ⟨ip, port, ssl, bindInt roleId⟩) ∨
    (∃ db' id, connectionGetOrCreate find insert db ip port ssl roleId = (id, db') ∧
      Db.insert (S := serverSchema) db .connection
        (⟨dbBindTextOrNull insert 1 ip, port, ssl, bindInt roleId⟩ : ConnectionRow)
          = some (db', id)) := by
  unfold connectionGetOrCreate
  by_cases hprepare : find.prepare = true
  · exact Or.inl (if_pos hprepare)
  · rw [if_neg hprepare]
    -- The `INSERT` runs exactly when the `SELECT` left `-1`, since ids are positive.
    rcases connectionFind_cases find db ip port ssl roleId with
      hnone | ⟨r, hmem, hid, hpos, hrow⟩
    · simp only [hnone]
      rw [if_neg (by decide)]
      rcases insertRow_cases insert db .connection
        (⟨dbBindTextOrNull insert 1 ip, port, ssl, bindInt roleId⟩ : ConnectionRow) with
        hfail | ⟨db', id, hok, hins⟩
      · left
        rw [connectionInsert, hfail]
        rfl
      · right
        right
        refine ⟨db', id, ?_, hins⟩
        rw [connectionInsert, hok]
        rfl
    · simp only [hid]
      rw [if_pos (by omega)]
      exact Or.inr (Or.inl ⟨r, hmem, rfl, hpos, hrow⟩)

end Server

end SendingSystem
