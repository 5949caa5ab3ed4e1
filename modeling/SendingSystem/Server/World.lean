import SendingSystem.Server.HttpJson
import SendingSystem.Server.Repository

/-!
# What a request handler works on

The state one request changes: the database file, the files by path, and the
responses written to its connection. What the system may fail in the course of a
request comes with the request, one record for each place it can fail, so a
statement about a handler for all of them is about every pattern of failures.

`save_connection` and `save_message` open the database anew each time, which
applies the schema script again.

## Main definitions

* `World`: Database, files and responses.
* `saveConnection`: The peer's row.
* `saveMessage`: The history row of a request.
* `FileFault`, `storeFile`: Writing a file through the C library.

## Theorems

* `answers_iff`: The status of a handler that wrote one response.
-/

namespace SendingSystem

namespace Server

open CString

/-- The files of the server by path. -/
abbrev Files : Type := List UInt8 → Option (List UInt8)

/-- The state a request changes. -/
structure World where
  db : Database
  files : Files
  sent : List Response

/-- A freshly created database and no files. -/
def createdWorld : World := ⟨createdDatabase, fun _ => none, []⟩

/-- Write one response to the connection. -/
def World.send (w : World) (r : Response) : World := { w with sent := w.sent ++ [r] }

/-- The handler's only answer has this status. -/
def Answers (w w' : World) (status : Int) : Prop :=
  ∃ r, w'.sent = w.sent ++ [r] ∧ r.status = status

/-- What fails while the peer's row is looked up. -/
structure ConnectionFault where
  opening : OpenFault
  find : StmtFault
  insert : StmtFault

/-- Nothing fails. -/
def ConnectionFault.none : ConnectionFault := ⟨.none, .none, .none⟩

/-- `save_connection`: the peer's id, or `-1`. -/
def saveConnection (fault : ConnectionFault) (db : Database) (remoteAddr : CStr) : Int × Database :=
  let opened := databaseOpen fault.opening db
  if opened.1 = -1 then (-1, opened.2)
  else
    let element := connectionGetOrCreate fault.find fault.insert opened.2 (some remoteAddr)
      connectionPort sslEncrypt incomingPeerRole.id
    if element.1 = -1 then (-1, element.2) else element

/-- What fails while the history row is written. -/
structure MessageFault where
  opening : OpenFault
  insert : StmtFault

/-- Nothing fails. -/
def MessageFault.none : MessageFault := ⟨.none, .none⟩

/-- `save_message`: the new row's id, or `-1`. -/
def saveMessage (fault : MessageFault) (db : Database) (message : MessageRow) : Int × Database :=
  let opened := databaseOpen fault.opening db
  if opened.1 = -1 then (-1, opened.2)
  else
    let r := messageInsert fault.insert opened.2 message.connectionId message.messageStatusId
      message.messageTypeId message.directionId message.response message.sendingTime message.request
    let element := r.outId.getD (-1)
    if element = -1 then (-1, r.db) else (element, r.db)

/-- Which file operation fails: opening, writing after some bytes, or flushing on
    close, which loses what comes after some bytes. -/
structure FileFault where
  fopen : Bool
  fputs : Option Nat
  fclose : Option Nat

/-- Nothing fails. -/
def FileFault.none : FileFault := ⟨false, .none, .none⟩

/-- What is kept of some bytes when an operation stops after `kept` of them. -/
def keep (kept : Option Nat) (data : List UInt8) : List UInt8 :=
  match kept with
  | .none => data
  | some k => data.take k

/-- `fopen(path, "wb")`, `fputs(data, f)`, `fclose(f)`, none of which but the
    first has its result looked at. -/
def storeFile (fault : FileFault) (files : Files) (path data : List UInt8) : Option Files :=
  if fault.fopen then .none
  else some (Function.update files path (some (keep fault.fclose (keep fault.fputs data))))

/-- A handler that wrote one response answers with one status. -/
theorem answers_iff {w w' : World} {r : Response} {status : Int}
    (hsent : w'.sent = w.sent ++ [r]) : Answers w w' status ↔ r.status = status := by
  constructor
  · rintro ⟨r', hsent', hstatus⟩
    rw [hsent, List.append_cancel_left_eq, List.cons.injEq] at hsent'
    rw [hsent'.1]
    exact hstatus
  · intro h
    exact ⟨r, hsent, h⟩

end Server

end SendingSystem
