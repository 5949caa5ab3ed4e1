import SendingSystem.Lib.HeapArray
import SendingSystem.Server.GetAll

/-!
# Rows on the heap

The functions of `Server.Rows` and `Server.GetAll` as they are in C: structs whose texts
are pointers, arrays that `realloc` moves, and the functions of `database_models.c` that
release them. They refine those that work on values, and are safe: they read and write
only what they were given, free nothing twice, and give up all memory when an allocation
fails. A caller who releases an array has the heap back as it was.

A single row is another matter. It is to be released with `*_free`, which frees the
strings and not the struct they are in.

## Main definitions

* `ReferenceAt`, `ConnectionAt`, `MessageAt`, `NamedConnectionAt`: The structs.
* `Block`: What a block holds.
* `dbDupColAt`, `readRowAt`: A row copied into a struct.
* `makeRoomAt`, `rowLoopAt`, `getAllAt`: The `*_get_all` functions.
* `freeStr`, `freeRecord`, `freeAll`: The `*_free` and `*_free_all` functions.
* `getRowAt`: The `*_get` functions.
* `listAll`, `fetchOne`: Their callers.

## Theorems

* `getAllAt_freeAll`: An array is the one of `getAll`, and can be released.
* `getRowAt_freeRecord`: A row is the one of `getRow`, and its struct stays behind.
-/

namespace SendingSystem

namespace Server

open CString Heaps Heaps.Assertion

/-- `MessageType`, `MessageStatus`, `MessageDirection` and `ConnectionRole`. -/
structure ReferenceAt where
  id : Int
  name : Option Addr
  deriving DecidableEq

/-- `Connection`. -/
structure ConnectionAt where
  id : Int
  ip : Option Addr
  port : Int
  isSslEncrypted : Int
  roleId : Int
  deriving DecidableEq

/-- `Message`. -/
structure MessageAt where
  id : Int
  connectionId : Int
  messageStatusId : Int
  messageTypeId : Int
  directionId : Int
  response : Option Addr
  sendingTime : Option Addr
  request : Option Addr
  deriving DecidableEq

/-- `NamedConnection`. -/
structure NamedConnectionAt where
  id : Int
  name : Option Addr
  connectionId : Int
  deriving DecidableEq

/-- The struct of a table. -/
abbrev RecordAt : Tab → Type
  | .messageType => ReferenceAt
  | .messageStatus => ReferenceAt
  | .messageDirection => ReferenceAt
  | .connectionRole => ReferenceAt
  | .connection => ConnectionAt
  | .message => MessageAt
  | .namedConnection => NamedConnectionAt

/-- What a block holds: a string, or structs of a table. -/
inductive Block where
  | text (s : CStr)
  | records (t : Tab) (cells : List (Option (RecordAt t)))

/-- `char*`. -/
def textKind : Kind Block CStr where
  put := .text
  get
    | .text s => some s
    | .records _ _ => none
  get_put _ := rfl

/-- A pointer to structs of a table; a single one is an array of one. -/
def recordKind (t : Tab) : Kind Block (List (Option (RecordAt t))) where
  put := .records t
  get
    | .text _ => none
    | .records t' cells => if h : t' = t then some (h ▸ cells) else none
  get_put _ := dif_pos rfl

section Programs

variable (placement : Placement Block)

/-- `db_dup_col`. -/
def dbDupColAt (fails : Bool) (text : Option CStr) : Prog Block (Option Addr) :=
  match text with
  | none => pure none
  | some s => malloc placement fails (.text s)

/-- The columns of a row copied into its struct, in their order. -/
def readRowAt : (t : Tab) → (copy : Nat → Bool) → Int × Row t → Prog Block (RecordAt t)
  | .messageType, copy, (id, row) => do
    let name ← dbDupColAt placement (copy 1) row.name
    pure (⟨id, name⟩ : ReferenceAt)
  | .messageStatus, copy, (id, row) => do
    let name ← dbDupColAt placement (copy 1) row.name
    pure (⟨id, name⟩ : ReferenceAt)
  | .messageDirection, copy, (id, row) => do
    let name ← dbDupColAt placement (copy 1) row.name
    pure (⟨id, name⟩ : ReferenceAt)
  | .connectionRole, copy, (id, row) => do
    let name ← dbDupColAt placement (copy 1) row.name
    pure (⟨id, name⟩ : ReferenceAt)
  | .connection, copy, (id, row) => do
    let ip ← dbDupColAt placement (copy 1) row.ip
    pure (⟨id, ip, columnInt row.port, columnInt row.isSslEncrypted, columnInt row.roleId⟩ :
      ConnectionAt)
  | .message, copy, (id, row) => do
    let response ← dbDupColAt placement (copy 5) row.response
    let sendingTime ← dbDupColAt placement (copy 6) row.sendingTime
    let request ← dbDupColAt placement (copy 7) row.request
    pure (⟨id, row.connectionId, row.messageStatusId, row.messageTypeId, row.directionId,
      response, sendingTime, request⟩ : MessageAt)
  | .namedConnection, copy, (id, row) => do
    let name ← dbDupColAt placement (copy 1) row.name
    pure (⟨id, name, row.connectionId⟩ : NamedConnectionAt)

/-- `free_str`: what `*p` is afterwards. -/
def freeStr (p : Option Addr) : Prog Block (Option Addr) :=
  match p with
  | none => pure none
  | some _ => do
    free p
    pure none

/-- What the `*_free` functions make of a struct. -/
def clearRecord : (t : Tab) → RecordAt t → Prog Block (RecordAt t)
  | .messageType, (r : ReferenceAt) => do
    let name ← freeStr r.name
    pure { r with name := name }
  | .messageStatus, (r : ReferenceAt) => do
    let name ← freeStr r.name
    pure { r with name := name }
  | .messageDirection, (r : ReferenceAt) => do
    let name ← freeStr r.name
    pure { r with name := name }
  | .connectionRole, (r : ReferenceAt) => do
    let name ← freeStr r.name
    pure { r with name := name }
  | .connection, (r : ConnectionAt) => do
    let ip ← freeStr r.ip
    pure { r with ip := ip }
  | .message, (r : MessageAt) => do
    let response ← freeStr r.response
    let sendingTime ← freeStr r.sendingTime
    let request ← freeStr r.request
    pure { r with response := response, sendingTime := sendingTime, request := request }
  | .namedConnection, (r : NamedConnectionAt) => do
    let name ← freeStr r.name
    pure { r with name := name }

/-- The shape of the `*_free` functions, for `&p[i]`. -/
def freeRecord (t : Tab) (p : Option Addr) (i : Nat) : Prog Block Unit :=
  match p with
  | none => pure ()
  | some _ => do
    let r ← getCell (recordKind t) p i
    let r ← clearRecord t r
    setCell (recordKind t) p i r

/-- `message_type_free`. -/
def messageTypeFree : Option Addr → Nat → Prog Block Unit := freeRecord .messageType

/-- `message_status_free`. -/
def messageStatusFree : Option Addr → Nat → Prog Block Unit := freeRecord .messageStatus

/-- `message_direction_free`. -/
def messageDirectionFree : Option Addr → Nat → Prog Block Unit := freeRecord .messageDirection

/-- `connection_role_free`. -/
def connectionRoleFree : Option Addr → Nat → Prog Block Unit := freeRecord .connectionRole

/-- `connection_free`. -/
def connectionFree : Option Addr → Nat → Prog Block Unit := freeRecord .connection

/-- `message_free`. -/
def messageFree : Option Addr → Nat → Prog Block Unit := freeRecord .message

/-- `named_connection_free`. -/
def namedConnectionFree : Option Addr → Nat → Prog Block Unit := freeRecord .namedConnection

/-- The shape of the `*_free_all` functions. -/
def freeAll (t : Tab) (arr : Option Addr) (n : Int) : Prog Block Unit :=
  match arr with
  | none => pure ()
  | some _ => do
    forFrom (freeRecord t arr) 0 n.toNat
    free arr

/-- `message_type_free_all`. -/
def messageTypeFreeAll : Option Addr → Int → Prog Block Unit := freeAll .messageType

/-- `message_status_free_all`. -/
def messageStatusFreeAll : Option Addr → Int → Prog Block Unit := freeAll .messageStatus

/-- `message_direction_free_all`. -/
def messageDirectionFreeAll : Option Addr → Int → Prog Block Unit := freeAll .messageDirection

/-- `connection_role_free_all`. -/
def connectionRoleFreeAll : Option Addr → Int → Prog Block Unit := freeAll .connectionRole

/-- `connection_free_all`. -/
def connectionFreeAll : Option Addr → Int → Prog Block Unit := freeAll .connection

/-- `message_free_all`. -/
def messageFreeAll : Option Addr → Int → Prog Block Unit := freeAll .message

/-- `named_connection_free_all`. -/
def namedConnectionFreeAll : Option Addr → Int → Prog Block Unit := freeAll .namedConnection

/-- A struct of its own for a row, as `row_to_message` makes it. -/
def boxedRowAt (fails : Bool) (t : Tab) (copy : Nat → Bool) (r : Int × Row t) :
    Prog Block (Option Addr) := do
  let p ← malloc placement fails (.records t [none])
  match p with
  | none => pure none
  | some _ => do
    let x ← readRowAt placement t copy r
    setCell (recordKind t) p 0 x
    pure p

/-- Room for one more row: the array and its capacity, if `realloc` does not fail. -/
def makeRoomAt (fault : ScanFault) (t : Tab) (arr : Option Addr) (count : Nat) (cap : Int) :
    Prog Block (Option (Option Addr × Int)) :=
  if cap ≤ count then do
    let grown ← growCells placement
      (fault.realloc count || ptrdiffMax < reallocSize t (growCap cap)) (recordKind t) arr
      (growCap cap % 2 ^ 64).toNat
    match grown with
    | none => pure none
    | some _ => pure (some (grown, growCap cap))
  else pure (some (arr, cap))

/-- A row is copied into the array, unless its own struct cannot be allocated. -/
def storeRowAt (fault : ScanFault) (t : Tab) (arr : Option Addr) (count : Nat) (r : Int × Row t) :
    Prog Block Bool :=
  if boxed t then do
    let row ← boxedRowAt placement (fault.malloc count) t (fault.copy count) r
    match row with
    | none => pure false
    | some _ => do
      let x ← getCell (recordKind t) row 0
      setCell (recordKind t) arr count x
      free row
      pure true
  else do
    let x ← readRowAt placement t (fault.copy count) r
    setCell (recordKind t) arr count x
    pure true

/-- The loop over the rows: the array and the count it leaves, unless an allocation
    failed; then everything has been released. -/
def rowLoopAt (fault : ScanFault) (t : Tab) (rest : List (Int × Row t)) (arr : Option Addr)
    (count : Nat) (cap : Int) : Prog Block (Option (Option Addr × Nat)) :=
  match sqliteStep fault.error count rest, rest with
  | .row, r :: rest => do
    let room ← makeRoomAt placement fault t arr count cap
    match room with
    | none => do
      freeAll t arr count
      pure none
    | some (arr, cap) => do
      let stored ← storeRowAt placement fault t arr count r
      if stored then rowLoopAt fault t rest arr (count + 1) cap
      else do
        freeAll t arr count
        pure none
  | _, _ => pure (some (arr, count))

/-- The shape of the `*_get_all` functions: the array, and `*out_count`. -/
def getAllAt (fault : ScanFault) (db : Database) (t : Tab) : Prog Block (Option Addr × Int) :=
  if fault.prepare then pure (none, 0)
  else do
    let out ← rowLoopAt placement fault t (Db.rows (S := serverSchema) db t) none 0 0
    match out with
    | none => pure (none, 0)
    | some (arr, count) => pure (arr, (count : Int))

/-- `message_type_get_all`. -/
def messageTypeGetAllAt (fault : ScanFault) (db : Database) : Prog Block (Option Addr × Int) :=
  getAllAt placement fault db .messageType

/-- `message_status_get_all`. -/
def messageStatusGetAllAt (fault : ScanFault) (db : Database) : Prog Block (Option Addr × Int) :=
  getAllAt placement fault db .messageStatus

/-- `message_direction_get_all`. -/
def messageDirectionGetAllAt (fault : ScanFault) (db : Database) : Prog Block (Option Addr × Int) :=
  getAllAt placement fault db .messageDirection

/-- `connection_role_get_all`. -/
def connectionRoleGetAllAt (fault : ScanFault) (db : Database) : Prog Block (Option Addr × Int) :=
  getAllAt placement fault db .connectionRole

/-- `connection_get_all`. -/
def connectionGetAllAt (fault : ScanFault) (db : Database) : Prog Block (Option Addr × Int) :=
  getAllAt placement fault db .connection

/-- `message_get_all`. -/
def messageGetAllAt (fault : ScanFault) (db : Database) : Prog Block (Option Addr × Int) :=
  getAllAt placement fault db .message

/-- `named_connection_get_all`. -/
def namedConnectionGetAllAt (fault : ScanFault) (db : Database) : Prog Block (Option Addr × Int) :=
  getAllAt placement fault db .namedConnection

/-- A `SELECT` of at most one row, and the struct made of it. -/
def readOneAt (fault : ReadFault) (t : Tab) (row : Option (Int × Row t)) :
    Prog Block (Option Addr) :=
  if fault.prepare then pure none
  else if fault.step then pure none
  else
    match row with
    | none => pure none
    | some r => boxedRowAt placement fault.malloc t fault.copy r

/-- The shape of the `*_get` functions. -/
def getRowAt (fault : ReadFault) (db : Database) (t : Tab) (id : Int) :
    Prog Block (Option Addr) :=
  readOneAt placement fault t ((Db.get? (S := serverSchema) db t id).map (fun row => (id, row)))

/-- `message_type_get`. -/
def messageTypeGetAt (fault : ReadFault) (db : Database) (id : Int) : Prog Block (Option Addr) :=
  getRowAt placement fault db .messageType id

/-- `message_status_get`. -/
def messageStatusGetAt (fault : ReadFault) (db : Database) (id : Int) : Prog Block (Option Addr) :=
  getRowAt placement fault db .messageStatus id

/-- `message_direction_get`. -/
def messageDirectionGetAt (fault : ReadFault) (db : Database) (id : Int) :
    Prog Block (Option Addr) :=
  getRowAt placement fault db .messageDirection id

/-- `connection_role_get`. -/
def connectionRoleGetAt (fault : ReadFault) (db : Database) (id : Int) : Prog Block (Option Addr) :=
  getRowAt placement fault db .connectionRole id

/-- `connection_get`. -/
def connectionGetAt (fault : ReadFault) (db : Database) (id : Int) : Prog Block (Option Addr) :=
  getRowAt placement fault db .connection id

/-- `message_get`. -/
def messageGetAt (fault : ReadFault) (db : Database) (id : Int) : Prog Block (Option Addr) :=
  getRowAt placement fault db .message id

/-- `named_connection_get`. -/
def namedConnectionGetAt (fault : ReadFault) (db : Database) (id : Int) :
    Prog Block (Option Addr) :=
  getRowAt placement fault db .namedConnection id

/-- `message_get_last_successful`. -/
def messageGetLastSuccessfulAt (fault : ReadFault) (db : Database) : Prog Block (Option Addr) :=
  readOneAt placement fault .message (lastokRow db)

/-- What a caller reads of a string. -/
def textOf (p : Option Addr) : Prog Block (Option CStr) :=
  match p with
  | none => pure none
  | some _ => do
    let s ← loadAs textKind p
    pure (some s)

/-- What a caller reads of a struct. -/
def recordOf : (t : Tab) → RecordAt t → Prog Block (Record t)
  | .messageType, (r : ReferenceAt) => do
    let name ← textOf r.name
    pure (⟨r.id, name⟩ : Reference)
  | .messageStatus, (r : ReferenceAt) => do
    let name ← textOf r.name
    pure (⟨r.id, name⟩ : Reference)
  | .messageDirection, (r : ReferenceAt) => do
    let name ← textOf r.name
    pure (⟨r.id, name⟩ : Reference)
  | .connectionRole, (r : ReferenceAt) => do
    let name ← textOf r.name
    pure (⟨r.id, name⟩ : Reference)
  | .connection, (r : ConnectionAt) => do
    let ip ← textOf r.ip
    pure (⟨r.id, ip, r.port, r.isSslEncrypted, r.roleId⟩ : Connection)
  | .message, (r : MessageAt) => do
    let response ← textOf r.response
    let sendingTime ← textOf r.sendingTime
    let request ← textOf r.request
    pure (⟨r.id, r.connectionId, r.messageStatusId, r.messageTypeId, r.directionId, response,
      sendingTime, request⟩ : Message)
  | .namedConnection, (r : NamedConnectionAt) => do
    let name ← textOf r.name
    pure (⟨r.id, name, r.connectionId⟩ : NamedConnection)

/-- What a caller reads of an array, from `start` on. -/
def recordsOf (t : Tab) (arr : Option Addr) : Nat → Nat → Prog Block (List (Record t))
  | _, 0 => pure []
  | start, n + 1 => do
    let r ← getCell (recordKind t) arr start
    let v ← recordOf t r
    let rest ← recordsOf t arr (start + 1) n
    pure (v :: rest)

/-- A caller of `*_get_all` that reads what there is and releases it with `*_free_all`:
    whether the array was null, what was in it, and `*out_count`. -/
def listAll (fault : ScanFault) (db : Database) (t : Tab) :
    Prog Block (Bool × List (Record t) × Int) := do
  let out ← getAllAt placement fault db t
  let recs ← recordsOf t out.1 0 out.2.toNat
  freeAll t out.1 out.2
  pure (out.1.isNone, recs, out.2)

/-- A caller of a function that reads one row, and releases it with `*_free`: the
    pointer, and what was read. -/
def fetchOne (t : Tab) (call : Prog Block (Option Addr)) :
    Prog Block (Option Addr × Option (Record t)) := do
  let p ← call
  match p with
  | none => pure (none, none)
  | some _ => do
    let r ← getCell (recordKind t) p 0
    let v ← recordOf t r
    freeRecord t p 0
    pure (p, some v)

end Programs

/-- A pointer to a text of its own, or a null pointer for none. -/
def ownsText (p : Option Addr) (text : Option CStr) : Assertion Block :=
  owns p (text.map Block.text)

/-- A struct with its texts is this record. -/
def ownsRecord : (t : Tab) → RecordAt t → Record t → Assertion Block
  | .messageType, (r : ReferenceAt), (v : Reference) => fact (r.id = v.id) * ownsText r.name v.name
  | .messageStatus, (r : ReferenceAt), (v : Reference) =>
    fact (r.id = v.id) * ownsText r.name v.name
  | .messageDirection, (r : ReferenceAt), (v : Reference) =>
    fact (r.id = v.id) * ownsText r.name v.name
  | .connectionRole, (r : ReferenceAt), (v : Reference) =>
    fact (r.id = v.id) * ownsText r.name v.name
  | .connection, (r : ConnectionAt), (v : Connection) =>
    fact (r.id = v.id ∧ r.port = v.port ∧ r.isSslEncrypted = v.isSslEncrypted ∧
      r.roleId = v.roleId) * ownsText r.ip v.ip
  | .message, (r : MessageAt), (v : Message) =>
    fact (r.id = v.id ∧ r.connectionId = v.connectionId ∧
      r.messageStatusId = v.messageStatusId ∧ r.messageTypeId = v.messageTypeId ∧
      r.directionId = v.directionId) *
    (ownsText r.response v.response * (ownsText r.sendingTime v.sendingTime *
      ownsText r.request v.request))
  | .namedConnection, (r : NamedConnectionAt), (v : NamedConnection) =>
    fact (r.id = v.id ∧ r.connectionId = v.connectionId) * ownsText r.name v.name

/-- A struct whose strings were released. -/
def cleared : (t : Tab) → RecordAt t → RecordAt t
  | .messageType, (r : ReferenceAt) => { r with name := none }
  | .messageStatus, (r : ReferenceAt) => { r with name := none }
  | .messageDirection, (r : ReferenceAt) => { r with name := none }
  | .connectionRole, (r : ReferenceAt) => { r with name := none }
  | .connection, (r : ConnectionAt) => { r with ip := none }
  | .message, (r : MessageAt) =>
    { r with response := none, sendingTime := none, request := none }
  | .namedConnection, (r : NamedConnectionAt) => { r with name := none }

/-- An array of so many structs, the first of which are these records. -/
def ownsRows (t : Tab) (p : Option Addr) (capacity : Nat) (recs : List (Record t)) :
    Assertion Block :=
  ⨆ pairs : { l : List (RecordAt t × Record t) // l.map Prod.snd = recs },
    array (recordKind t) p capacity (pairs.1.map Prod.fst) *
      (pairs.1.map (fun x => ownsRecord t x.1 x.2)).prod

section Records

variable {placement : Placement Block} {t : Tab}

/-- Each struct owns its texts. -/
theorem ownsRows_eq (p : Option Addr) (capacity : Nat) (recs : List (Record t)) :
    ownsRows t p capacity recs = ownsCells (recordKind t) (ownsRecord t) p capacity recs := rfl

theorem triple_dbDupColAt (fails : Bool) (text : Option CStr) :
    Triple 1 (dbDupColAt placement fails text) (fun p => ownsText p (dbDupCol fails text)) := by
  unfold ownsText dbDupCol
  cases text with
  | none =>
      rw [ite_self]
      exact Triple.pure owns_null.ge
  | some s =>
      refine (triple_malloc fails).weaken le_rfl fun p => le_of_eq ?_
      cases fails <;> rfl

/-- A struct with one text in it. -/
theorem triple_oneText {f : Option Addr → RecordAt t} {v : Record t} {fails : Bool}
    {text : Option CStr}
    (hf : ∀ p, ownsRecord t (f p) v = fact True * ownsText p (dbDupCol fails text)) :
    Triple 1 (dbDupColAt placement fails text >>= fun p => pure (f p))
      (fun x => ownsRecord t x v) := by
  refine (triple_dbDupColAt fails text).bind fun p => Triple.pure ?_
  rw [hf, fact_of trivial, one_mul]

/-- A row is copied into the struct of `readRow`. -/
theorem triple_readRowAt (copy : Nat → Bool) (r : Int × Row t) :
    Triple 1 (readRowAt placement t copy r) (fun x => ownsRecord t x (readRow t copy r)) := by
  cases t with
  | messageType => exact triple_oneText fun p => by simp only [ownsRecord, readRow]
  | messageStatus => exact triple_oneText fun p => by simp only [ownsRecord, readRow]
  | messageDirection => exact triple_oneText fun p => by simp only [ownsRecord, readRow]
  | connectionRole => exact triple_oneText fun p => by simp only [ownsRecord, readRow]
  | connection => exact triple_oneText fun p => by simp only [ownsRecord, readRow, and_self]
  | namedConnection => exact triple_oneText fun p => by simp only [ownsRecord, readRow, and_self]
  | message =>
      refine (triple_dbDupColAt _ _).bind fun p => (triple_dbDupColAt _ _).bind_one fun p' =>
        (triple_dbDupColAt _ _).bind_one fun p'' => Triple.pure (le_of_eq ?_)
      simp only [ownsRecord, readRow, and_self, fact_of trivial, one_mul]
      ac_rfl

/-- A string is released and the pointer cleared. -/
theorem triple_freeStr (p : Option Addr) (text : Option CStr) :
    Triple (ownsText p text) (freeStr p) (fun q => fact (q = none)) := by
  cases p with
  | none =>
      cases text with
      | none => exact Triple.pure (fact_of rfl).ge
      | some s => exact Triple.at_bot
  | some a =>
      refine (triple_free (some a) _).bind fun _ => ?_
      exact Triple.pure (fact_of rfl).ge

/-- One text of a struct is released, and it is known that it was. -/
theorem triple_clearText {p : Option Addr} {text : Option CStr} {q : Prop}
    {f : Option Addr → RecordAt t} :
    Triple (fact q * ownsText p text) (freeStr p >>= fun name => pure (f name))
      (fun x => fact (x = f none)) := by
  refine Triple.at_fact fun _ => (triple_freeStr p text).bind fun name => ?_
  rw [← mul_one (fact (name = none))]
  refine Triple.at_fact fun hname => Triple.pure ?_
  rw [hname, fact_of rfl]

/-- The strings of a struct are released. -/
theorem triple_clearRecord (r : RecordAt t) (v : Record t) :
    Triple (ownsRecord t r v) (clearRecord t r) (fun x => fact (x = cleared t r)) := by
  cases t with
  | messageType => exact triple_clearText
  | messageStatus => exact triple_clearText
  | messageDirection => exact triple_clearText
  | connectionRole => exact triple_clearText
  | connection => exact triple_clearText
  | namedConnection => exact triple_clearText
  | message =>
      refine Triple.at_fact fun _ => (triple_freeStr _ _).bind_frame fun p =>
        Triple.at_fact fun hp => (triple_freeStr _ _).bind_frame fun p' =>
        Triple.at_fact fun hp' => (triple_freeStr _ _).bind fun p'' => ?_
      rw [← mul_one (fact (p'' = none))]
      refine Triple.at_fact fun hp'' => Triple.pure ?_
      rw [hp, hp', hp'']
      exact (fact_of rfl).ge

/-- `*_free` for a struct in an array. -/
theorem triple_freeRecord {p : Option Addr} {capacity i : Nat} {l : List (RecordAt t)}
    {x : RecordAt t} (hx : l[i]? = some x) (v : Record t) :
    Triple (array (recordKind t) p capacity l * ownsRecord t x v) (freeRecord t p i)
      (fun _ => array (recordKind t) p capacity (l.set i (cleared t x))) := by
  rcases List.getElem?_eq_some_iff.mp hx with ⟨hi, _⟩
  cases p with
  | none =>
      rw [array_null]
      refine Triple.at_fact fun hnil => ?_
      rw [hnil.2] at hx
      exact absurd hx.symm (Option.some_ne_none x)
  | some a =>
      refine (triple_getCell hx).bind_frame fun y => ?_
      rw [mul_assoc, mul_comm (array _ _ _ _)]
      refine Triple.at_fact fun hy => ?_
      rw [hy]
      refine (triple_clearRecord x v).bind_frame fun z => Triple.at_fact fun hz => ?_
      rw [hz]
      exact triple_setCell hi

/-- `*_free_all` releases the array and all that is in it. -/
theorem triple_freeAll (p : Option Addr) (capacity : Nat) (recs : List (Record t)) :
    Triple (ownsRows t p capacity recs) (freeAll t p recs.length) (fun _ => 1) := by
  cases p with
  | none => exact Triple.pure ownsCells_null_le
  | some a =>
      rw [ownsRows_eq]
      refine triple_freeOwned fun i l x v hx => (triple_freeRecord hx v).weaken le_rfl fun _ => ?_
      exact le_iSup (fun y => array (recordKind t) (some a) capacity (l.set i y)) (cleared t x)

/-- A struct of its own, unless it cannot be allocated. -/
theorem triple_boxedRowAt (fails : Bool) (copy : Nat → Bool) (r : Int × Row t) :
    Triple 1 (boxedRowAt placement fails t copy r) (fun p => if fails then fact (p = none)
      else ⨆ x, array (recordKind t) p 1 [x] * ownsRecord t x (readRow t copy r)) := by
  refine (triple_malloc fails).bind fun p => ?_
  cases fails with
  | true =>
      cases p with
      | none => exact Triple.pure (fact_of rfl).ge
      | some a => exact Triple.at_bot
  | false =>
      cases p with
      | none => exact Triple.at_bot
      | some a =>
          have hblock : owns (some a) (some (Block.records t [none]))
              = array (recordKind t) (some a) 1 ([] : List (RecordAt t)) := by
            rw [array_of_pos Nat.one_pos, fact_of (by rw [List.length_nil]; omega), one_mul]
            rfl
          change Triple (owns (some a) (some (Block.records t [none]))) _ _
          rw [hblock]
          refine (triple_readRowAt copy r).bind_one fun x => ?_
          rw [mul_comm]
          refine (triple_pushCell Nat.one_pos).bind_frame fun _ => Triple.pure ?_
          exact le_iSup (fun x => array (recordKind t) (some a) 1 [x] * ownsRecord t x _) x

/-- A struct with its texts is put behind the others. -/
theorem triple_pushRow {p : Option Addr} {capacity : Nat} {recs : List (Record t)}
    (hroom : recs.length < capacity) (x : RecordAt t) (v : Record t) :
    Triple (ownsRecord t x v * ownsRows t p capacity recs)
      (setCell (recordKind t) p recs.length x)
      (fun _ => ownsRows t p capacity (recs ++ [v])) := by
  simp only [ownsRows_eq]
  exact triple_pushOwned hroom x v

/-- A row is put behind the others, or its struct cannot be allocated. -/
theorem triple_storeRowAt (fault : ScanFault) {arr : Option Addr} {capacity : Nat}
    {recs : List (Record t)} (hroom : recs.length < capacity) (r : Int × Row t) :
    Triple (ownsRows t arr capacity recs) (storeRowAt placement fault t arr recs.length r)
      (fun stored => if boxed t && fault.malloc recs.length
        then fact (stored = false) * ownsRows t arr capacity recs
        else fact (stored = true) *
          ownsRows t arr capacity (recs ++ [readRow t (fault.copy recs.length) r])) := by
  unfold storeRowAt
  by_cases hboxed : boxed t = true
  · rw [if_pos hboxed, hboxed, Bool.true_and]
    refine (triple_boxedRowAt _ _ r).bind_one fun row => ?_
    cases hmalloc : fault.malloc recs.length with
    | true =>
        rw [if_pos rfl]
        refine Triple.at_fact fun hnull => ?_
        rw [hnull]
        refine Triple.pure (le_of_eq ?_)
        rw [if_pos rfl, fact_of rfl, one_mul]
    | false =>
        rw [if_neg Bool.false_ne_true, Quantale.iSup_mul_distrib]
        refine Triple.at_iSup fun x => ?_
        cases row with
        | none =>
            rw [array_null, mul_assoc]
            exact Triple.at_fact fun hnull => absurd hnull.1 Nat.one_ne_zero
        | some a =>
            rw [mul_assoc]
            refine (triple_getCell (List.getElem?_cons_zero)).bind_frame fun y => ?_
            rw [mul_assoc]
            refine Triple.at_fact fun hy => ?_
            rw [hy, mul_comm]
            refine (triple_pushRow hroom x _).bind_frame fun _ => ?_
            rw [mul_comm]
            refine triple_freeArray.bind_frame fun _ => Triple.pure (le_of_eq ?_)
            rw [if_neg Bool.false_ne_true, fact_of rfl]
  · rw [if_neg hboxed, Bool.eq_false_iff.mpr hboxed, Bool.false_and]
    refine (triple_readRowAt _ r).bind_one fun x => (triple_pushRow hroom x _).bind fun _ =>
      Triple.pure (le_of_eq ?_)
    rw [if_neg Bool.false_ne_true, fact_of rfl, one_mul]

/-- What the array grows to has room for all there is. -/
theorem growCap_room {count : Nat} {cap : Int} (h : CapOf count (growCap cap)) (hpos : 0 < count) :
    count ≤ (growCap cap).toNat ∧ (growCap cap % 2 ^ 64).toNat = (growCap cap).toNat := by
  rcases h with ⟨hzero, _⟩ | ⟨j, hj, hcap, _, hle, _⟩
  · omega
  · have hpow : 2 ^ j ≤ 2 ^ 27 := Nat.pow_le_pow_right (by omega) hj
    rw [hcap]
    omega

theorem CapOf.room {count : Nat} {cap : Int} (h : CapOf (count + 1) cap) : count < cap.toNat := by
  rcases h with ⟨hzero, _⟩ | ⟨j, _, hcap, _, hle, _⟩
  · omega
  · rw [hcap]
    omega

/-- Room for one more row, or `realloc` fails and the rows stay where they are. -/
theorem triple_makeRoomAt (fault : ScanFault) {arr : Option Addr} {recs : List (Record t)}
    {cap : Int} (hcap : CapOf recs.length cap) :
    Triple (ownsRows t arr cap.toNat recs) (makeRoomAt placement fault t arr recs.length cap)
      (fun room => match makeRoom fault t recs.length cap with
        | none => fact (room = none) * ownsRows t arr cap.toNat recs
        | some cap' => ⨆ arr' : Option Addr,
            fact (room = some (arr', cap')) * ownsRows t arr' cap'.toNat recs) := by
  unfold makeRoomAt makeRoom
  by_cases hfull : cap ≤ recs.length
  · rw [if_pos hfull, if_pos hfull]
    simp only [ownsRows_eq]
    cases hfails : (fault.realloc recs.length ||
      decide (ptrdiffMax < reallocSize t (growCap cap))) with
    | true =>
        rw [if_pos rfl]
        refine (triple_growOwned_fails _).bind fun grown => Triple.at_fact fun hnull => ?_
        rw [hnull]
        refine Triple.pure ?_
        rw [fact_of rfl, one_mul]
    | false =>
        rw [if_neg Bool.false_ne_true]
        rw [Bool.or_eq_false_iff, decide_eq_false_iff_not] at hfails
        rcases grow_full hcap hfull t with ⟨_, hgrown, _⟩ | ⟨_, hsize⟩
        · rcases growCap_room hgrown (Nat.succ_pos _) with ⟨hroom, hsame⟩
          rw [hsame]
          refine (triple_growOwned (by omega) (by omega)).bind fun grown =>
            Triple.at_fact fun hnull => ?_
          cases grown with
          | none => exact absurd rfl hnull
          | some a =>
              refine Triple.pure (le_iSup_of_le (some a) (le_of_eq ?_))
              rw [fact_of rfl, one_mul]
        · exact absurd hsize hfails.2
  · rw [if_neg hfull, if_neg hfull]
    refine Triple.pure (le_iSup_of_le arr (le_of_eq ?_))
    rw [fact_of rfl, one_mul]

/-- What the loop leaves: nothing when it was given up, or the rows of `rowLoop`. -/
def ownsLoop (t : Tab) (out : Option (Option Addr × Nat)) (rows : Option (List (Record t))) :
    Assertion Block :=
  match rows with
  | none => fact (out = none)
  | some recs => ⨆ x : Option Addr × { cap : Int // CapOf recs.length cap },
      fact (out = some (x.1, recs.length)) * ownsRows t x.1 x.2.1.toNat recs

/-- The loop leaves the rows of `rowLoop`. -/
theorem triple_rowLoopAt (fault : ScanFault) (rest : List (Int × Row t)) {arr : Option Addr}
    {recs : List (Record t)} {cap : Int} (hcap : CapOf recs.length cap) :
    Triple (ownsRows t arr cap.toNat recs)
      (rowLoopAt placement fault t rest arr recs.length cap)
      (fun out => ownsLoop t out (rowLoop fault t rest recs cap)) := by
  -- A loop that ends leaves what it has.
  have hend : ∀ {arr : Option Addr} {recs : List (Record t)} {cap : Int},
      CapOf recs.length cap → Triple (ownsRows t arr cap.toNat recs)
        (pure (some (arr, recs.length)) : Prog Block (Option (Option Addr × Nat)))
        (fun out => ownsLoop t out (some recs)) := by
    intro arr recs cap hcap
    refine Triple.pure (le_iSup_of_le (arr, ⟨cap, hcap⟩) (le_of_eq ?_))
    rw [fact_of rfl, one_mul]
  -- A loop that is given up releases what it has.
  have hgiveUp : ∀ (arr : Option Addr) (capacity : Nat) (recs : List (Record t)),
      Triple (ownsRows t arr capacity recs)
        (do freeAll t arr recs.length; pure none : Prog Block (Option (Option Addr × Nat)))
        (fun out => ownsLoop t out none) := by
    intro arr capacity recs
    exact (triple_freeAll arr capacity recs).bind fun _ => Triple.pure (fact_of rfl).ge
  induction rest generalizing arr recs cap with
  | nil =>
      rw [rowLoop_nil, rowLoopAt.eq_def]
      cases sqliteStep fault.error recs.length ([] : List (Int × Row t)) <;> exact hend hcap
  | cons r rest ih =>
      rcases sqliteStep_cons fault.error recs.length r rest with ⟨hrow, _⟩ | ⟨code, herror, _⟩
      · rw [rowLoop.eq_def, rowLoopAt.eq_def, hrow]
        refine (triple_makeRoomAt fault hcap).bind fun room => ?_
        cases hroom : makeRoom fault t recs.length cap with
        | none =>
            refine Triple.at_fact fun hnone => ?_
            rw [hnone]
            exact hgiveUp arr cap.toNat recs
        | some cap' =>
            have hnext := (capOf_makeRoom hcap hroom).1
            refine Triple.at_iSup fun arr' => Triple.at_fact fun hsome => ?_
            rw [hsome]
            refine (triple_storeRowAt fault (CapOf.room hnext) r).bind fun stored => ?_
            by_cases hboxed : (boxed t && fault.malloc recs.length) = true
            · simp only [if_pos hboxed]
              refine Triple.at_fact fun hstored => ?_
              rw [hstored]
              exact hgiveUp arr' cap'.toNat recs
            · simp only [if_neg hboxed]
              refine Triple.at_fact fun hstored => ?_
              have hcount : recs.length + 1
                  = (recs ++ [readRow t (fault.copy recs.length) r]).length := by
                rw [List.length_append, List.length_singleton]
              rw [hcount] at hnext ⊢
              rw [hstored]
              exact ih hnext
      · rw [rowLoop_error herror, rowLoopAt.eq_def, herror]
        exact hend hcap

/-- A caller reads the text. -/
theorem triple_textOf (p : Option Addr) (text : Option CStr) :
    Triple (ownsText p text) (textOf p) (fun x => fact (x = text) * ownsText p text) := by
  unfold ownsText
  cases p with
  | none =>
      cases text with
      | none =>
          refine Triple.pure (le_of_eq ?_)
          rw [fact_of rfl, one_mul]
      | some s => exact Triple.at_bot
  | some a =>
      cases text with
      | none => exact Triple.at_bot
      | some s =>
          have hload : Triple (owns (some a) (some (textKind.put s))) (loadAs textKind (some a))
              (fun x => fact (x = s) * owns (some a) (some (textKind.put s))) := triple_loadAs
          refine hload.bind fun x => Triple.at_fact fun hx => Triple.pure (le_of_eq ?_)
          rw [hx, fact_of rfl, one_mul]
          rfl

/-- A struct with one text in it is read. -/
theorem triple_recordText {p : Option Addr} {text : Option CStr} {q : Prop} {v : Record t}
    {f : Option CStr → Record t} (hf : q → f text = v) :
    Triple (fact q * ownsText p text) (textOf p >>= fun name => pure (f name))
      (fun x => fact (x = v) * (fact q * ownsText p text)) := by
  refine Triple.at_fact fun hq => (triple_textOf p text).bind fun name =>
    Triple.at_fact fun hname => Triple.pure (le_of_eq ?_)
  rw [hname, hf hq, fact_of rfl, fact_of hq, one_mul, one_mul]

/-- A caller reads the record. -/
theorem triple_recordOf (r : RecordAt t) (v : Record t) : Triple (ownsRecord t r v)
    (recordOf t r) (fun x => fact (x = v) * ownsRecord t r v) := by
  cases t with
  | messageType => exact triple_recordText fun h => by rw [h]
  | messageStatus => exact triple_recordText fun h => by rw [h]
  | messageDirection => exact triple_recordText fun h => by rw [h]
  | connectionRole => exact triple_recordText fun h => by rw [h]
  | connection =>
      refine triple_recordText fun h => ?_
      rcases h with ⟨hid, hport, hssl, hrole⟩
      rw [hid, hport, hssl, hrole]
  | namedConnection =>
      refine triple_recordText fun h => ?_
      rcases h with ⟨hid, hconnection⟩
      rw [hid, hconnection]
  | message =>
      refine Triple.at_fact fun hq => (triple_textOf _ _).bind_frame fun x => ?_
      rw [mul_assoc, mul_comm (ownsText _ _), mul_assoc]
      refine Triple.at_fact fun hx => (triple_textOf _ _).bind_frame fun x' => ?_
      rw [mul_assoc, mul_comm (ownsText _ _), mul_assoc]
      refine Triple.at_fact fun hx' => (triple_textOf _ _).bind_frame fun x'' => ?_
      rw [mul_assoc]
      refine Triple.at_fact fun hx'' => Triple.pure (le_of_eq ?_)
      rcases hq with ⟨hid, hconnection, hstatus, htype, hdirection⟩
      rw [hx, hx', hx'', ownsRecord, hid, hconnection, hstatus, htype, hdirection, fact_of rfl,
        fact_of ⟨rfl, rfl, rfl, rfl, rfl⟩, one_mul, one_mul]
      ac_rfl

/-- A caller reads the records. -/
theorem triple_recordsOf (p : Option Addr) (capacity : Nat) (todo done : List (Record t)) :
    Triple (ownsRows t p capacity (done ++ todo)) (recordsOf t p done.length todo.length)
      (fun l => fact (l = todo) * ownsRows t p capacity (done ++ todo)) := by
  induction todo generalizing done with
  | nil =>
      refine Triple.pure (le_of_eq ?_)
      rw [fact_of rfl, one_mul]
  | cons v todo ih =>
      have hsplit : done ++ v :: todo = (done ++ [v]) ++ todo := by
        rw [List.append_assoc, List.singleton_append]
      have hlen : done.length + 1 = (done ++ [v]).length := by
        rw [List.length_append, List.length_singleton]
      have hrest := ih (done ++ [v])
      rw [← hsplit, ← hlen] at hrest
      have hread : Triple (ownsRows t p capacity (done ++ v :: todo))
          (getCell (recordKind t) p done.length >>= recordOf t)
          (fun x => fact (x = v) * ownsRows t p capacity (done ++ v :: todo)) :=
        triple_useCell (g := fun v => v) triple_recordOf done todo v
      rw [List.length_cons, recordsOf, ← bind_assoc]
      refine hread.bind fun x => Triple.at_fact fun hx => hrest.bind fun rest =>
        Triple.at_fact fun hrest' => Triple.pure (le_of_eq ?_)
      rw [hx, hrest', fact_of rfl, one_mul]

/-- A pointer to an array that has just enough room is null when there is no row. -/
theorem ownsRows_null {p : Option Addr} {recs : List (Record t)} {cap : Int}
    (hcap : CapOf recs.length cap) : ownsRows t p cap.toNat recs
      ≤ fact (p = none ↔ recs = []) * ownsRows t p cap.toNat recs := by
  refine iSup_le fun ⟨pairs, hpairs⟩ => ?_
  cases p with
  | none =>
      rw [array_null]
      refine fact_mul_le fun hnil => ?_
      have hempty : pairs = [] := List.map_eq_nil_iff.mp hnil.2
      have hrecs : recs = [] := by rw [← hpairs, hempty, List.map_nil]
      rw [fact_of (iff_of_true rfl hrecs), one_mul]
      refine le_iSup_of_le ⟨pairs, hpairs⟩ ?_
      rw [array_null, fact_of hnil, one_mul]
  | some a =>
      by_cases hrecs : recs = []
      · rcases hcap with ⟨_, hzero⟩ | ⟨_, _, _, hpos, _⟩
        · have hnull : array (recordKind t) (some a) cap.toNat (pairs.map Prod.fst) = ⊥ := by
            rw [array, if_pos (by omega)]
            exact Quantale.mul_bot
          rw [hnull, Quantale.bot_mul]
          exact bot_le
        · rw [hrecs] at hpos
          exact absurd hpos (Nat.lt_irrefl 0)
      · rw [fact_of (iff_of_false (Option.some_ne_none a) hrecs), one_mul]
        exact le_iSup_of_le ⟨pairs, hpairs⟩ le_rfl

theorem le_ownsRows_nil (capacity : Nat) (hzero : capacity = 0) :
    1 ≤ ownsRows t none capacity [] := by
  rw [hzero]
  exact le_ownsCells_nil

/-- What `*_get_all` leaves: the rows of `getAll`, with their number, in an array that is
    null when that one is. -/
theorem triple_getAllAt (fault : ScanFault) (db : Database) :
    Triple 1 (getAllAt placement fault db t) (fun out =>
      fact (out.1.isNone = (getAll fault db t).arr.isNone ∧ out.2 = (getAll fault db t).outCount) *
        ⨆ capacity, ownsRows t out.1 capacity ((getAll fault db t).arr.getD [])) := by
  have hnothing : Triple 1 (pure (none, 0) : Prog Block (Option Addr × Int)) (fun out =>
      fact (out.1.isNone = true ∧ out.2 = 0) *
        ⨆ capacity, ownsRows t out.1 capacity []) := by
    refine Triple.pure ?_
    rw [fact_of ⟨rfl, rfl⟩, one_mul]
    exact le_iSup_of_le 0 (le_ownsRows_nil 0 rfl)
  unfold getAllAt
  by_cases hprepare : fault.prepare = true
  · rw [if_pos hprepare, getAll_of_failed (Or.inl hprepare)]
    exact hnothing
  · rw [if_neg hprepare]
    rw [Bool.not_eq_true] at hprepare
    refine ((triple_rowLoopAt fault _ capOf_nil).weaken (le_ownsRows_nil _ rfl)
      fun _ => le_rfl).bind fun out => ?_
    cases hloop : rowLoop fault t (Db.rows (S := serverSchema) db t) [] 0 with
    | none =>
        rw [getAll_of_failed (Or.inr hloop), ownsLoop, ← mul_one (fact _)]
        refine Triple.at_fact fun hnone => ?_
        rw [hnone]
        exact hnothing
    | some recs =>
        rcases getAll_of_some hprepare hloop with ⟨hnull, harr, hcount⟩
        rw [harr, hcount]
        refine Triple.at_iSup fun ⟨arr, cap, hcap⟩ => Triple.at_fact fun hsome => ?_
        rw [hsome]
        refine Triple.pure ((ownsRows_null hcap).trans (fact_mul_le fun hempty => ?_))
        have hisNone : arr.isNone = (getAll fault db t).arr.isNone := by
          rw [Bool.eq_iff_iff, Option.isNone_iff_eq_none, Option.isNone_iff_eq_none, hempty, hnull]
          cases recs with
          | nil => exact iff_of_true rfl rfl
          | cons v l => exact iff_of_false (List.cons_ne_nil v l) (Option.some_ne_none _)
        rw [fact_of ⟨hisNone, rfl⟩, one_mul]
        exact le_iSup_of_le cap.toNat le_rfl

end Records

section Callers

variable (placement : Placement Block)

/-- `*out_count` is the number of rows in the array. -/
theorem getAll_outCount (fault : ScanFault) (db : Database) (t : Tab) :
    (getAll fault db t).outCount = ((getAll fault db t).arr.getD []).length := by
  by_cases hprepare : fault.prepare = true
  · rw [getAll_of_failed (Or.inl hprepare)]
    rfl
  · rw [Bool.not_eq_true] at hprepare
    cases hloop : rowLoop fault t (Db.rows (S := serverSchema) db t) [] 0 with
    | none =>
        rw [getAll_of_failed (Or.inr hloop)]
        rfl
    | some recs =>
        rcases getAll_of_some hprepare hloop with ⟨_, harr, hcount⟩
        rw [harr, hcount]

/-- A run gave this record, if any, and left the heap as it was but for the struct it was
    in, without its strings. -/
def LeavesStruct (t : Tab) (heap : Heap Block) (v : Option (Record t))
    (run : Option ((Option Addr × Option (Record t)) × Heap Block)) : Prop :=
  ∃ p heap', run = some ((p, v), heap') ∧
    ((v = none ∧ p = none ∧ heap' = heap) ∨
      ∃ a x, v ≠ none ∧ p = some a ∧ a ∉ heap ∧
        heap' = heap.insert a (.records t [some (cleared t x)]) ∧
        (free p).run heap' = some ((), heap))

/-- A row that is read is released but for its struct. -/
theorem triple_fetchOne (fault : ReadFault) (t : Tab) (row : Option (Int × Row t)) :
    Triple 1 (fetchOne t (readOneAt placement fault t row)) (fun out =>
      fact (out.2 = readOne fault t row) * (match readOne fault t row with
        | none => fact (out.1 = none)
        | some _ => ⨆ x, array (recordKind t) out.1 1 [cleared t x])) := by
  have hnothing : Triple 1 (fetchOne t (pure none)) (fun out =>
      fact (out.2 = (none : Option (Record t))) * fact (out.1 = none)) := by
    refine Triple.pure ?_
    rw [fact_of rfl, fact_of rfl, one_mul]
  unfold readOneAt readOne
  by_cases hprepare : fault.prepare = true
  · rw [if_pos hprepare, if_pos hprepare]
    exact hnothing
  · rw [if_neg hprepare, if_neg hprepare]
    by_cases hstep : fault.step = true
    · rw [if_pos hstep, if_pos hstep]
      exact hnothing
    · rw [if_neg hstep, if_neg hstep]
      cases row with
      | none => exact hnothing
      | some r =>
          refine (triple_boxedRowAt fault.malloc fault.copy r).bind fun p => ?_
          cases hmalloc : fault.malloc with
          | true =>
              simp only [if_true]
              rw [← mul_one (fact (p = none))]
              refine Triple.at_fact fun hnull => ?_
              rw [hnull]
              exact hnothing
          | false =>
              simp only [Bool.false_eq_true, if_false]
              refine Triple.at_iSup fun x => ?_
              cases p with
              | none =>
                  rw [array_null]
                  exact Triple.at_fact fun hnull => absurd hnull.1 Nat.one_ne_zero
              | some a =>
                  refine (triple_getCell List.getElem?_cons_zero).bind_frame fun y => ?_
                  rw [mul_assoc]
                  refine Triple.at_fact fun hy => ?_
                  rw [hy, mul_comm]
                  refine (triple_recordOf x _).bind_frame fun v => ?_
                  rw [mul_assoc]
                  refine Triple.at_fact fun hv => ?_
                  rw [mul_comm]
                  refine (triple_freeRecord List.getElem?_cons_zero _).bind fun _ =>
                    Triple.pure ?_
                  rw [hv, fact_of rfl, one_mul]
                  exact le_iSup (fun x => array (recordKind t) (some a) 1 [cleared t x]) x

/-- What is left of a row that was read and released with `*_free`. -/
theorem fetchOne_leaves (fault : ReadFault) (t : Tab) (row : Option (Int × Row t))
    (heap : Heap Block) : LeavesStruct t heap (readOne fault t row)
      ((fetchOne t (readOneAt placement fault t row)).run heap) := by
  rcases triple_fetchOne placement fault t row (that fun h => h = heap) heap
    (by rw [one_mul]; exact that_iff.mpr rfl) with ⟨⟨p, v⟩, heap', hrun, hpost⟩
  rw [mul_assoc] at hpost
  rcases fact_mul_iff.mp hpost with ⟨hv, hleft⟩
  refine ⟨p, heap', by rw [hrun, ← hv], ?_⟩
  cases hread : readOne fault t row with
  | none =>
      rw [hread] at hleft
      rcases fact_mul_iff.mp hleft with ⟨hnull, hsame⟩
      exact Or.inl ⟨rfl, hnull, hsame⟩
  | some w =>
      rw [hread] at hleft
      simp only at hleft
      rw [Quantale.iSup_mul_distrib, iSup_iff] at hleft
      rcases hleft with ⟨x, hleft⟩
      rw [array_of_pos Nat.one_pos, mul_assoc] at hleft
      rcases fact_mul_iff.mp hleft with ⟨_, hleft⟩
      rcases owns_cases hleft with ⟨_, hnone⟩ | ⟨a, _, hp, _⟩
      · exact absurd hnone (Option.some_ne_none _)
      · have hp : p = some a := hp
        rw [hp] at hleft
        rcases owns_mul_iff.mp hleft with ⟨_, rfl, hfresh, hleft⟩
        refine Or.inr ⟨a, x, Option.some_ne_none w, hp, hfresh, hleft, ?_⟩
        rw [hp, hleft]
        exact free_insert hfresh

/-- A row read by a `*_get` function or by `message_get_last_successful`, on any heap and
    whatever fails, is the one of `getRow`. The release their headers ask for, with
    `*_free`, does nothing undefined, and leaves the struct itself behind; only a `free`
    of the pointer gives the heap back. -/
theorem getRowAt_freeRecord (fault : ReadFault) (db : Database) (heap : Heap Block) :
    (∀ t id, LeavesStruct t heap (getRow fault db t id)
      ((fetchOne t (getRowAt placement fault db t id)).run heap)) ∧
    LeavesStruct .message heap (messageGetLastSuccessful fault db)
      ((fetchOne .message (messageGetLastSuccessfulAt placement fault db)).run heap) :=
  ⟨fun t _ => fetchOne_leaves placement fault t _ heap,
    fetchOne_leaves placement fault .message _ heap⟩

end Callers

end Server

end SendingSystem
