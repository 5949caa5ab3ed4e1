import SendingSystem.Client.Connector
import SendingSystem.Lib.Relational

/-!
# The client's database

The entities of the Room database as a schema for the relational library, the
rows `AppDatabase` seeds it with, and the DAO methods a send operation uses. Room
creates every table before the first statement. The entities ask for no unique
index, so nothing in the schema keeps two connections apart.

An id of 0 in an entity stands for one not given yet, and the table then hands
out the next. `INSERT` throws where a foreign key or a not-null column is
violated.

## Main definitions

* `Connection`, `Message`: The columns.
* `clientSchema`, `Database`: The schema, and what is stored.
* `roomCreate`, `seed`: The database before and after seeding.
* `findConnection`, `insertConnection`, `insertMessage`: The DAO methods.
* `connections`, `messages`: The rows.

## Theorems

* `findConnection_mem`: A row that is found has the asked-for columns.
* `findConnection_isSome`: Such a row is not missed.
* `messages_insertMessage`, `connections_insertConnection`: A row inserted is the
  last one.
* `connections_insertMessage`, `messages_insertConnection`: The other table is
  left alone.
-/

namespace SendingSystem

namespace Client

open Utf16

/-- The tables. -/
inductive Tab where
  | messageType
  | messageStatus
  | message
  | messageDirection
  | connection
  | connectionRole
  | namedConnection
  deriving DecidableEq

/-- The indexes. -/
inductive Index where
  | namedConnectionConnectionId
  deriving DecidableEq

/-- The columns of the four reference tables. -/
structure Reference where
  name : Option JString
  deriving DecidableEq

/-- The columns of `Connection`. -/
structure Connection where
  ip : Option JString
  port : Int
  isSSLEncrypted : Bool
  roleId : Int
  deriving DecidableEq

/-- The columns of `Message`. -/
structure Message where
  connectionId : Int
  messageStatusId : Int
  messageTypeId : Int
  directionId : Int
  response : Option JString
  sendingTime : Option JString
  request : Option JString
  deriving DecidableEq

/-- The columns of `NamedConnection`. -/
structure NamedConnection where
  name : Option JString
  connectionId : Int
  deriving DecidableEq

/-- The columns of each table, the id left out. -/
abbrev Row : Tab → Type
  | .messageType => Reference
  | .messageStatus => Reference
  | .message => Message
  | .messageDirection => Reference
  | .connection => Connection
  | .connectionRole => Reference
  | .namedConnection => NamedConnection

/-- The foreign keys. -/
def refs : (t : Tab) → Row t → List (Tab × Int)
  | .messageType, _ => []
  | .messageStatus, _ => []
  | .message, m => [(.connection, m.connectionId), (.messageStatus, m.messageStatusId),
      (.messageType, m.messageTypeId), (.messageDirection, m.directionId)]
  | .messageDirection, _ => []
  | .connection, c => [(.connectionRole, c.roleId)]
  | .connectionRole, _ => []
  | .namedConnection, n => [(.connection, n.connectionId)]

/-- The schema. Columns of a primitive type are not null by their type. -/
abbrev clientSchema : Schema where
  Tab := Tab
  Index := Index
  Key := Empty
  Row := Row
  tabs := [.messageType, .messageStatus, .message, .messageDirection, .connection, .connectionRole,
    .namedConnection]
  mem_tabs := by
    intro t
    cases t <;> decide
  on := fun _ => .namedConnection
  refs := refs
  notNull := fun _ _ => true
  key := fun _ _ => none

/-- The client's database. -/
abbrev Database : Type := Db clientSchema

/-- The database Room creates. -/
def roomCreate : Database where
  tab := fun _ => some Table.empty
  unique := fun _ => false
  index := fun _ => true

/-- `insertAll` of a reference DAO: the rows of one table. -/
def insertAll (db : Database) (t : Tab) (rows : List (Row t)) : Option Database :=
  rows.foldlM (fun db row => (Db.insert (S := clientSchema) db t row).map (fun r => r.1)) db

/-- An entity of a reference table. -/
def reference (name : String) : Reference := ⟨some (lit name)⟩

/-- What the `onCreate` callback inserts. -/
def seed (db : Database) : Option Database := do
  let db ← insertAll db .messageStatus [reference "SUCCESS", reference "FAILED"]
  let db ← insertAll db .messageType [reference "RAW_DATA", reference "FILE"]
  let db ← insertAll db .messageDirection [reference "OUTBOUND", reference "INBOUND"]
  insertAll db .connectionRole
    [reference "SERVER", reference "CLIENT", reference "MASTER", reference "SLAVE"]

/-- The seeded database. -/
def createdDatabase : Database := (seed roomCreate).getD roomCreate

/-- Values of `MessageStatus.index()`. -/
inductive MessageStatus where
  | success
  | failed
  deriving DecidableEq

def MessageStatus.index : MessageStatus → Int
  | .success => 1
  | .failed => 2

/-- Values of `MessageDirection.index()`. -/
inductive MessageDirection where
  | outbound
  | inbound
  deriving DecidableEq

def MessageDirection.index : MessageDirection → Int
  | .outbound => 1
  | .inbound => 2

/-- Values of `ConnectionRole.index()`. -/
inductive ConnectionRole where
  | server
  | client
  | master
  | slave
  deriving DecidableEq

def ConnectionRole.index : ConnectionRole → Int
  | .server => 1
  | .client => 2
  | .master => 3
  | .slave => 4

/-- The rows of `Connection`, in id order. -/
def connections (db : Database) : List (Int × Connection) :=
  Db.rows (S := clientSchema) db .connection

/-- The rows of `Message`, in id order. -/
def messages (db : Database) : List (Int × Message) := Db.rows (S := clientSchema) db .message

/-- `getByIpAndPortAndIsSSLEncryptedAndConnectionRoleId`. Comparing with a null
    address is never true. -/
def findConnection (db : Database) (ip : Option JString) (port : Int) (isSSLEncrypted : Bool)
    (roleId : Int) : Option (Int × Connection) :=
  (connections db).find? (fun r => ip.isSome && r.2.ip = ip && r.2.port = port &&
    r.2.isSSLEncrypted = isSSLEncrypted && r.2.roleId = roleId)

/-- `ConnectionDao.insert`, nothing when it throws. -/
def insertConnection (db : Database) (connection : Connection) : Option Database :=
  (Db.insert (S := clientSchema) db .connection connection).map (fun r => r.1)

/-- `MessageDao.insert`, nothing when it throws. -/
def insertMessage (db : Database) (message : Message) : Option Database :=
  (Db.insert (S := clientSchema) db .message message).map (fun r => r.1)

/-- A row that is found has the columns asked for. -/
theorem findConnection_mem {db : Database} {ip : Option JString} {port : Int}
    {isSSLEncrypted : Bool} {roleId : Int} {r : Int × Connection}
    (h : findConnection db ip port isSSLEncrypted roleId = some r) :
    r ∈ connections db ∧ r.2 = ⟨ip, port, isSSLEncrypted, roleId⟩ := by
  refine ⟨List.mem_of_find?_eq_some h, ?_⟩
  have hmatch := List.find?_some h
  simp only [Bool.and_eq_true, decide_eq_true_eq] at hmatch
  -- The four comparisons of the query fix the whole row.
  rcases hmatch with ⟨⟨⟨⟨_, hip⟩, hport⟩, hssl⟩, hrole⟩
  rw [← hip, ← hport, ← hssl, ← hrole]

/-- A row with the columns asked for is not missed, unless the address is null. -/
theorem findConnection_isSome {db : Database} {ip : Option JString} {port : Int}
    {isSSLEncrypted : Bool} {roleId : Int} {r : Int × Connection} (hip : ip.isSome)
    (hr : r ∈ connections db) (hrow : r.2 = ⟨ip, port, isSSLEncrypted, roleId⟩) :
    (findConnection db ip port isSSLEncrypted roleId).isSome := by
  rw [findConnection, List.find?_isSome]
  refine ⟨r, hr, ?_⟩
  simp only [hrow, hip, decide_true, Bool.and_self]

theorem insertMessage_eq_some {db db' : Database} {message : Message}
    (h : insertMessage db message = some db') :
    ∃ id, Db.insert (S := clientSchema) db .message message = some (db', id) := by
  rw [insertMessage, Option.map_eq_some_iff] at h
  rcases h with ⟨⟨after, id⟩, hins, rfl⟩
  exact ⟨id, hins⟩

theorem insertConnection_eq_some {db db' : Database} {connection : Connection}
    (h : insertConnection db connection = some db') :
    ∃ id, Db.insert (S := clientSchema) db .connection connection = some (db', id) := by
  rw [insertConnection, Option.map_eq_some_iff] at h
  rcases h with ⟨⟨after, id⟩, hins, rfl⟩
  exact ⟨id, hins⟩

/-- A message inserted is the last one. -/
theorem messages_insertMessage {db db' : Database} {message : Message}
    (h : insertMessage db message = some db') :
    ∃ id, messages db' = messages db ++ [(id, message)] := by
  rcases insertMessage_eq_some h with ⟨id, hins⟩
  exact ⟨id, rows_insert hins⟩

/-- A message inserted leaves the connections alone. -/
theorem connections_insertMessage {db db' : Database} {message : Message}
    (h : insertMessage db message = some db') : connections db' = connections db := by
  rcases insertMessage_eq_some h with ⟨id, hins⟩
  exact rows_insert_of_ne hins (by decide)

/-- A connection inserted is the last one. -/
theorem connections_insertConnection {db db' : Database} {connection : Connection}
    (h : insertConnection db connection = some db') :
    ∃ id, connections db' = connections db ++ [(id, connection)] := by
  rcases insertConnection_eq_some h with ⟨id, hins⟩
  exact ⟨id, rows_insert hins⟩

/-- A connection inserted leaves the messages alone. -/
theorem messages_insertConnection {db db' : Database} {connection : Connection}
    (h : insertConnection db connection = some db') : messages db' = messages db := by
  rcases insertConnection_eq_some h with ⟨id, hins⟩
  exact rows_insert_of_ne hins (by decide)

end Client

end SendingSystem
