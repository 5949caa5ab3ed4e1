import SendingSystem.Server.Store

/-!
# Reading rows

The functions of the `*_repository.c` files that read one row, over one shape:
prepare, bind the id, step, and copy the columns into a struct on the heap. What
a column reads back as depends on the call that reads it. Ids come through
`sqlite3_column_int64`, except that `connection_get` reads the role, like the
port and the flag, with `sqlite3_column_int`; texts are copied with `db_dup_col`,
which gives `NULL` for a `NULL` column and for a copy that could not be
allocated.

`message_get_last_successful` differs from the others in the condition it
selects by, the status written as the literal `2`.

## Main definitions

* `Reference`, `Connection`, `Message`, `NamedConnection`: The C structs.
* `Record`: The struct of each table.
* `readRow`: The columns of a row copied into its struct.
* `ReadFault`: What the system can fail while a row is read.
* `getRow`: The shape of the `*_get` functions.
* `lastokRow`, `messageGetLastSuccessful`: The last message of status `2`.

## Theorems

* `getRow_none_eq_some`: What is read when nothing fails.
* `lastokRow_eq_some`, `lastokRow_eq_none`: Which message that is.
-/

namespace SendingSystem

namespace Server

open CString

/-- `MessageType`, `MessageStatus`, `MessageDirection` and `ConnectionRole`. -/
structure Reference where
  id : Int
  name : Option CStr
  deriving DecidableEq

/-- `Connection`. -/
structure Connection where
  id : Int
  ip : Option CStr
  port : Int
  isSslEncrypted : Int
  roleId : Int
  deriving DecidableEq

/-- `Message`. -/
structure Message where
  id : Int
  connectionId : Int
  messageStatusId : Int
  messageTypeId : Int
  directionId : Int
  response : Option CStr
  sendingTime : Option CStr
  request : Option CStr
  deriving DecidableEq

/-- `NamedConnection`. -/
structure NamedConnection where
  id : Int
  name : Option CStr
  connectionId : Int
  deriving DecidableEq

/-- The struct a row of the table is read into. -/
abbrev Record : Tab → Type
  | .messageType => Reference
  | .messageStatus => Reference
  | .messageDirection => Reference
  | .connectionRole => Reference
  | .connection => Connection
  | .message => Message
  | .namedConnection => NamedConnection

/-- `sqlite3_column_int`: the low 32 bits of the column, as a signed `int`. -/
def columnInt (x : Int) : Int := x.bmod (2 ^ 32)

/-- `db_dup_col`: the text, unless it is `NULL` or cannot be copied. -/
def dbDupCol (fails : Bool) (text : Option CStr) : Option CStr := if fails then none else text

/-- The columns of a row as its struct holds them; `copy` tells for each column
    whether `db_dup_col` fails to allocate. -/
def readRow : (t : Tab) → (copy : Nat → Bool) → Int × Row t → Record t
  | .messageType, copy, (id, row) => ⟨id, dbDupCol (copy 1) row.name⟩
  | .messageStatus, copy, (id, row) => ⟨id, dbDupCol (copy 1) row.name⟩
  | .messageDirection, copy, (id, row) => ⟨id, dbDupCol (copy 1) row.name⟩
  | .connectionRole, copy, (id, row) => ⟨id, dbDupCol (copy 1) row.name⟩
  | .connection, copy, (id, row) =>
    ⟨id, dbDupCol (copy 1) row.ip, columnInt row.port, columnInt row.isSslEncrypted,
      columnInt row.roleId⟩
  | .message, copy, (id, row) =>
    ⟨id, row.connectionId, row.messageStatusId, row.messageTypeId, row.directionId,
      dbDupCol (copy 5) row.response, dbDupCol (copy 6) row.sendingTime,
      dbDupCol (copy 7) row.request⟩
  | .namedConnection, copy, (id, row) => ⟨id, dbDupCol (copy 1) row.name, row.connectionId⟩

/-- What the system can fail: `sqlite3_prepare_v2`, `sqlite3_step`, the `malloc`
    of the struct, and the copy of each text column. -/
structure ReadFault where
  prepare : Bool
  step : Bool
  malloc : Bool
  copy : Nat → Bool

/-- Nothing fails. -/
def ReadFault.none : ReadFault := ⟨false, false, false, fun _ => false⟩

/-- A `SELECT` of at most one row, and the struct made of it. -/
def readOne (fault : ReadFault) (t : Tab) (row : Option (Int × Row t)) : Option (Record t) :=
  if fault.prepare then none
  else if fault.step then none
  else
    match row with
    | none => none
    | some r => if fault.malloc then none else some (readRow t fault.copy r)

/-- The shape of the `*_get` functions. -/
def getRow (fault : ReadFault) (db : Database) (t : Tab) (id : Int) : Option (Record t) :=
  readOne fault t ((Db.get? (S := serverSchema) db t id).map (fun row => (id, row)))

/-- `message_type_get`. -/
def messageTypeGet (fault : ReadFault) (db : Database) (id : Int) : Option Reference :=
  getRow fault db .messageType id

/-- `message_status_get`. -/
def messageStatusGet (fault : ReadFault) (db : Database) (id : Int) : Option Reference :=
  getRow fault db .messageStatus id

/-- `message_direction_get`. -/
def messageDirectionGet (fault : ReadFault) (db : Database) (id : Int) : Option Reference :=
  getRow fault db .messageDirection id

/-- `connection_role_get`. -/
def connectionRoleGet (fault : ReadFault) (db : Database) (id : Int) : Option Reference :=
  getRow fault db .connectionRole id

/-- `connection_get`. -/
def connectionGet (fault : ReadFault) (db : Database) (id : Int) : Option Connection :=
  getRow fault db .connection id

/-- `message_get`. -/
def messageGet (fault : ReadFault) (db : Database) (id : Int) : Option Message :=
  getRow fault db .message id

/-- `named_connection_get`. -/
def namedConnectionGet (fault : ReadFault) (db : Database) (id : Int) : Option NamedConnection :=
  getRow fault db .namedConnection id

/-- `WHERE messageStatusId=2 ORDER BY id DESC LIMIT 1`. -/
def lastokRow (db : Database) : Option (Int × MessageRow) :=
  (messages db).reverse.find? (fun r => r.2.messageStatusId = 2)

/-- `message_get_last_successful`. -/
def messageGetLastSuccessful (fault : ReadFault) (db : Database) : Option Message :=
  readOne fault .message (lastokRow db)

/-- What is read when nothing fails. -/
theorem getRow_none_eq_some {db : Database} {t : Tab} {id : Int} {row : Row t}
    (h : (id, row) ∈ Db.rows (S := serverSchema) db t) :
    getRow .none db t id = some (readRow t (fun _ => false) (id, row)) := by
  rw [getRow, Db.get?_eq_some.mpr h]
  rfl

/-- The row selected has the status `2`, and the greatest id of those. -/
theorem lastokRow_eq_some {db : Database} {r : Int × MessageRow} (h : lastokRow db = some r) :
    r ∈ messages db ∧ r.2.messageStatusId = 2 ∧
      ∀ r' ∈ messages db, r'.2.messageStatusId = 2 → r'.1 ≤ r.1 := by
  rw [lastokRow, List.find?_eq_some_iff_append] at h
  rcases h with ⟨hstatus, newer, older, hsplit, hnewer⟩
  rw [decide_eq_true_eq] at hstatus
  -- The rows before the hit come after it in id order, and have another status.
  have hrows : messages db = older.reverse ++ r :: newer.reverse := by
    rw [← List.reverse_reverse (messages db), hsplit]
    simp only [List.reverse_append, List.reverse_cons, List.append_assoc, List.singleton_append]
  refine ⟨?_, hstatus, fun r' hr' hstatus' => ?_⟩
  · rw [hrows]
    exact List.mem_append_right _ List.mem_cons_self
  · have hasc := Db.rows_ascending (S := serverSchema) db .message
    rw [messages] at hrows hr'
    rw [hrows] at hasc hr'
    rw [List.pairwise_append] at hasc
    rcases List.mem_append.mp hr' with hold | hnew
    · exact Int.le_of_lt (hasc.2.2 r' hold r List.mem_cons_self)
    · rcases List.mem_cons.mp hnew with rfl | hnew
      · exact Int.le_refl _
      · have hother := hnewer r' (List.mem_reverse.mp hnew)
        simp only [hstatus', decide_true, Bool.not_true, Bool.false_eq_true] at hother

/-- No row is selected when no message has the status `2`. -/
theorem lastokRow_eq_none {db : Database} :
    lastokRow db = none ↔ ∀ r ∈ messages db, r.2.messageStatusId ≠ 2 := by
  rw [lastokRow, List.find?_eq_none]
  simp only [List.mem_reverse, decide_eq_true_eq, ne_eq]

end Server

end SendingSystem
