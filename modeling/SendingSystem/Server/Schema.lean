import SendingSystem.Lib.Relational
import SendingSystem.Server.Config

/-!
# The server's schema

The tables of `CreateDatabase.sql` with their columns, references, not-null
columns and indexes, as data for the relational library, and the script itself
as the list of its statements. The script runs one statement at a time, in no
transaction, so a failure leaves what came before it in place.

`INSERT`, `UPDATE` and `DELETE` only ever see a table through its row type, so
the columns a repository binds are the fields of a record here. Integer columns
hold unbounded integers: what narrows a value is the function that binds it.

## Main definitions

* `ReferenceRow`, `ConnectionRow`, `MessageRow`, `NamedConnectionRow`: The columns.
* `PeerKey`: The columns of `ux_Connection_peer`.
* `serverSchema`: The schema.
* `createDatabase`: The statements of the script, in order.
* `databaseOpen`: Open the file and apply the script.
* `Ready`: What holds of a file that was opened.

## Theorems

* `refs_ne`: No table refers to itself.
* `evolves_databaseOpen`: Opening evolves the store, also when it fails.
* `rows_databaseOpen`, `createDatabase_fills`: Opening keeps the data tables.
* `databaseOpen_ready`: After a successful open every table and the peer index exist.
-/

namespace SendingSystem

namespace Server

open CString

/-- The tables. -/
inductive Tab where
  | messageType
  | messageStatus
  | messageDirection
  | connectionRole
  | connection
  | message
  | namedConnection
  deriving DecidableEq

/-- The indexes besides `ux_Connection_peer`. -/
inductive Index where
  | messageConnectionId
  | messageMessageStatusId
  | messageMessageTypeId
  | messageDirectionId
  | messageSendingTime
  | namedConnectionConnectionId
  deriving DecidableEq

/-- The columns of the four reference tables. -/
structure ReferenceRow where
  name : Option CStr
  deriving DecidableEq

/-- The columns of `Connection`. -/
structure ConnectionRow where
  ip : Option CStr
  port : Int
  isSslEncrypted : Int
  roleId : Int
  deriving DecidableEq

/-- The columns of `Message`. -/
structure MessageRow where
  connectionId : Int
  messageStatusId : Int
  messageTypeId : Int
  directionId : Int
  response : Option CStr
  sendingTime : Option CStr
  request : Option CStr
  deriving DecidableEq

/-- The columns of `NamedConnection`. -/
structure NamedConnectionRow where
  name : Option CStr
  connectionId : Int
  deriving DecidableEq

/-- The columns of each table, the id left out. -/
abbrev Row : Tab → Type
  | .messageType => ReferenceRow
  | .messageStatus => ReferenceRow
  | .messageDirection => ReferenceRow
  | .connectionRole => ReferenceRow
  | .connection => ConnectionRow
  | .message => MessageRow
  | .namedConnection => NamedConnectionRow

/-- The columns of the unique index on peers, with `NULL` read as the empty text. -/
structure PeerKey where
  roleId : Int
  ip : CStr
  port : Int
  isSslEncrypted : Int
  deriving DecidableEq

/-- `(roleId, IFNULL(ip, ''), port, isSSLEncrypted)`. -/
def ConnectionRow.peerKey (c : ConnectionRow) : PeerKey :=
  ⟨c.roleId, c.ip.getD (.lit ""), c.port, c.isSslEncrypted⟩

/-- The table an index is on. -/
def Index.on : Index → Tab
  | .messageConnectionId => .message
  | .messageMessageStatusId => .message
  | .messageMessageTypeId => .message
  | .messageDirectionId => .message
  | .messageSendingTime => .message
  | .namedConnectionConnectionId => .namedConnection

/-- The foreign keys. -/
def refs : (t : Tab) → Row t → List (Tab × Int)
  | .messageType, _ => []
  | .messageStatus, _ => []
  | .messageDirection, _ => []
  | .connectionRole, _ => []
  | .connection, c => [(.connectionRole, c.roleId)]
  | .message, m => [(.connection, m.connectionId), (.messageStatus, m.messageStatusId),
      (.messageType, m.messageTypeId), (.messageDirection, m.directionId)]
  | .namedConnection, n => [(.connection, n.connectionId)]

/-- No table refers to itself. -/
theorem refs_ne (t : Tab) (row : Row t) : ∀ p ∈ refs t row, p.1 ≠ t := by
  intro p hp hself
  subst hself
  rcases p with ⟨u, i⟩
  cases u <;>
    simp only [refs, List.mem_cons, List.not_mem_nil, Prod.mk.injEq, reduceCtorEq, false_and,
      or_self] at hp

/-- The `NOT NULL` columns that can be bound to `NULL`. -/
def notNull : (t : Tab) → Row t → Bool
  | .messageType, r => r.name.isSome
  | .messageStatus, r => r.name.isSome
  | .messageDirection, r => r.name.isSome
  | .connectionRole, r => r.name.isSome
  | .connection, _ => true
  | .message, _ => true
  | .namedConnection, _ => true

/-- The unique indexes. -/
def uniqueKey : (t : Tab) → Row t → Option PeerKey
  | .messageType, _ => none
  | .messageStatus, _ => none
  | .messageDirection, _ => none
  | .connectionRole, _ => none
  | .connection, c => some c.peerKey
  | .message, _ => none
  | .namedConnection, _ => none

/-- The schema. -/
abbrev serverSchema : Schema where
  Tab := Tab
  Index := Index
  Key := PeerKey
  Row := Row
  tabs := [.messageType, .messageStatus, .messageDirection, .connectionRole, .connection, .message,
    .namedConnection]
  mem_tabs := by
    intro t
    cases t <;> decide
  on := Index.on
  refs := refs
  notNull := notNull
  key := uniqueKey

/-- The server's database. -/
abbrev Database : Type := Db serverSchema

/-- A seed row. -/
def seed (name : String) : ReferenceRow := ⟨some (.lit name)⟩

/-- `CreateDatabase.sql`, statement by statement. -/
def createDatabase : List (Stmt serverSchema) := [
  .pragma,
  .createTable .messageType,
  .createTable .messageStatus,
  .createTable .messageDirection,
  .createTable .connectionRole,
  .createTable .connection,
  .createUniqueIndex .connection,
  .createTable .message,
  .createIndex .messageConnectionId,
  .createIndex .messageMessageStatusId,
  .createIndex .messageMessageTypeId,
  .createIndex .messageDirectionId,
  .createIndex .messageSendingTime,
  .createTable .namedConnection,
  .createIndex .namedConnectionConnectionId,
  .insertOrIgnore .messageType 1 (seed "RAW_DATA"),
  .insertOrIgnore .messageType 2 (seed "FILE"),
  .insertOrIgnore .messageStatus 1 (seed "SUCCESS"),
  .insertOrIgnore .messageStatus 2 (seed "FAILED"),
  .insertOrIgnore .messageDirection 1 (seed "OUTBOUND"),
  .insertOrIgnore .messageDirection 2 (seed "INBOUND"),
  .insertOrIgnore .connectionRole 1 (seed "SERVER"),
  .insertOrIgnore .connectionRole 2 (seed "CLIENT"),
  .insertOrIgnore .connectionRole 3 (seed "MASTER"),
  .insertOrIgnore .connectionRole 4 (seed "SLAVE")]

/-- What the system can fail while the file is opened: `sqlite3_open`, reading
    the script, or one of its statements. -/
structure OpenFault where
  sqlite3Open : Bool
  readFile : Bool
  exec : Option Nat

/-- Nothing fails. -/
def OpenFault.none : OpenFault := ⟨false, false, .none⟩

/-- `database_open`: the result code and the file afterwards. -/
def databaseOpen (fault : OpenFault) (db : Database) : Int × Database :=
  if fault.sqlite3Open then (-1, db)
  else if fault.readFile then (-1, db)
  else
    match execScript fault.exec createDatabase db with
    | (true, db') => (0, db')
    | (false, db') => (-1, db')

/-- Opening stops before the script or runs it, as far as it goes. -/
theorem databaseOpen_cases (fault : OpenFault) (db : Database) :
    databaseOpen fault db = (-1, db) ∨
      databaseOpen fault db = (if (execScript fault.exec createDatabase db).1 then 0 else -1,
        (execScript fault.exec createDatabase db).2) := by
  unfold databaseOpen
  -- The three points of failure, in the order the function meets them.
  by_cases hopen : fault.sqlite3Open = true
  · exact Or.inl (if_pos hopen)
  · rw [if_neg hopen]
    by_cases hread : fault.readFile = true
    · exact Or.inl (if_pos hread)
    · rw [if_neg hread]
      right
      rcases execScript fault.exec createDatabase db with ⟨ok, db'⟩
      cases ok with
      | true => rfl
      | false => rfl

/-- Opening evolves the store, however far it gets. -/
theorem evolves_databaseOpen (fault : OpenFault) (db : Database) :
    Evolves db (databaseOpen fault db).2 := by
  rcases databaseOpen_cases fault db with h | h
  · rw [h]
    exact Evolves.refl db
  · rw [h]
    exact evolves_execScript createDatabase fault.exec db

/-- Opening never touches the rows of a table without seed values. -/
theorem rows_databaseOpen (fault : OpenFault) (db : Database) {t : Tab}
    (ht : ∀ s ∈ createDatabase, s.fills ≠ some t) :
    Db.rows (S := serverSchema) (databaseOpen fault db).2 t
      = Db.rows (S := serverSchema) db t := by
  rcases databaseOpen_cases fault db with h | h
  · rw [h]
  · rw [h]
    exact rows_execScript createDatabase fault.exec db ht

/-- Nor their counters. -/
theorem seq_databaseOpen (fault : OpenFault) (db : Database) {t : Tab}
    (ht : ∀ s ∈ createDatabase, s.fills ≠ some t) :
    Db.seq (S := serverSchema) (databaseOpen fault db).2 t = Db.seq (S := serverSchema) db t := by
  rcases databaseOpen_cases fault db with h | h
  · rw [h]
  · rw [h]
    exact seq_execScript createDatabase fault.exec db ht

/-- The script has no seed values for the data tables. -/
theorem createDatabase_fills : ∀ s ∈ createDatabase,
    s.fills ≠ some .connection ∧ s.fills ≠ some .message ∧ s.fills ≠ some .namedConnection := by
  intro s hs
  simp only [createDatabase, List.mem_cons, List.not_mem_nil, or_false] at hs
  rcases hs with rfl | rfl | rfl | rfl | rfl | rfl | rfl | rfl | rfl | rfl | rfl | rfl | rfl |
    rfl | rfl | rfl | rfl | rfl | rfl | rfl | rfl | rfl | rfl | rfl | rfl <;>
    exact ⟨by decide, by decide, by decide⟩

/-- After a successful open every table and the peer index exist. -/
theorem databaseOpen_ready {fault : OpenFault} {db db' : Database}
    (h : databaseOpen fault db = (0, db')) :
    (∀ t, (db'.tab t).isSome) ∧ db'.unique .connection = true := by
  have hrun : execScript fault.exec createDatabase db = (true, db') := by
    rcases databaseOpen_cases fault db with hcase | hcase
    · rw [hcase, Prod.mk.injEq] at h
      omega
    · rw [hcase] at h
      generalize execScript fault.exec createDatabase db = result at h ⊢
      rcases result with ⟨ok, db₁⟩
      cases ok with
      | true =>
          rw [Prod.mk.injEq] at h ⊢
          exact ⟨rfl, h.2⟩
      | false => simp only [Bool.false_eq_true, if_false, Prod.mk.injEq, reduceCtorEq,
          false_and] at h
  constructor
  · intro t
    -- Every statement ran, that of the table too, and nothing later drops a table.
    have hmem : Stmt.createTable t ∈ createDatabase := by
      cases t <;> simp only [createDatabase, List.mem_cons, true_or, or_true]
    rcases execScript_mem createDatabase _ db db' hrun hmem with ⟨_, after, hexec, hev⟩
    exact hev.tab t (exec_createTable hexec)
  · have hmem : (Stmt.createUniqueIndex Tab.connection : Stmt serverSchema) ∈ createDatabase := by
      simp only [createDatabase, List.mem_cons, true_or, or_true]
    rcases execScript_mem createDatabase _ db db' hrun hmem with ⟨_, after, hexec, hev⟩
    exact hev.unique .connection (exec_createUniqueIndex hexec)

/-- A database as `database_open` leaves it. -/
structure Ready (db : Database) : Prop where
  sound : Sound db
  tab : ∀ t, (db.tab t).isSome
  unique : db.unique .connection = true

/-- Operations keep a database ready. -/
theorem Ready.evolves {db db' : Database} (h : Ready db) (hev : Evolves db db') : Ready db' :=
  ⟨hev.sound h.sound, fun t => hev.tab t (h.tab t), hev.unique _ h.unique⟩

theorem ready_databaseOpen {fault : OpenFault} {db db' : Database} (hsound : Sound db)
    (h : databaseOpen fault db = (0, db')) : Ready db' := by
  have hev := evolves_databaseOpen fault db
  rw [h] at hev
  exact ⟨hev.sound hsound, (databaseOpen_ready h).1, (databaseOpen_ready h).2⟩

/-- The database that opening an empty file creates. -/
def createdDatabase : Database := (databaseOpen .none Db.empty).2

theorem ready_created : Ready createdDatabase := by
  have hopen : databaseOpen .none Db.empty = (0, createdDatabase) := Prod.ext (by decide) rfl
  exact ready_databaseOpen sound_empty hopen

end Server

end SendingSystem
