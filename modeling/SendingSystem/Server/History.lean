import SendingSystem.Server.ApiUpload
import SendingSystem.Server.Store

/-!
# What the handlers write to the history

A handler adds at most one row to `Message`, and only on the way to its answer:
`save_connection` and opening the database leave the table alone, so a row that a
request added is the one its handler handed to `save_message`, as it was bound, and
the response written afterwards has the same status. It is made of the text that
was to be the row's response, whether that was bound or not.

## Main definitions

* `sendRow`, `uploadRow`: The rows the handlers hand to `save_message`.

## Theorems

* `messages_saveConnection`: Looking the peer up adds no message.
* `saveMessage_cases`, `messages_saveMessage`: A message saved is the last one.
* `apiSendHandler_messages`, `apiUploadHandler_messages`: What a request adds.
* `apiSendHandler_recorded`, `apiUploadHandler_recorded`: A row that was added, and its answer.
-/

namespace SendingSystem

namespace Server

open CString CJson

theorem messages_databaseOpen (fault : OpenFault) (db : Database) :
    messages (databaseOpen fault db).2 = messages db :=
  rows_databaseOpen fault db (fun s hs => (createDatabase_fills s hs).2.1)

/-- Looking the peer up adds no message. -/
theorem messages_saveConnection (fault : ConnectionFault) (db : Database) (remoteAddr : CStr) :
    messages (saveConnection fault db remoteAddr).2 = messages db := by
  have hopen := messages_databaseOpen fault.opening db
  unfold saveConnection
  simp only
  split
  · exact hopen
  · rcases connectionGetOrCreate_cases fault.find fault.insert (databaseOpen fault.opening db).2
      (some remoteAddr) connectionPort sslEncrypt incomingPeerRole.id with
      h | ⟨r, _, h, _⟩ | ⟨db', id, h, hins⟩
    · simp only [h, if_true]
      exact hopen
    · simp only [h]
      split <;> exact hopen
    -- The one write there can be is into another table.
    · have hrows : messages db' = messages (databaseOpen fault.opening db).2 :=
        rows_insert_of_ne hins (by decide)
      simp only [h]
      split <;> exact hrows.trans hopen

/-- A message saved is the last one, as it is bound; one that is not leaves nothing
    behind, and the caller is told. -/
theorem saveMessage_cases (fault : MessageFault) (db : Database) (message : MessageRow) :
    ((saveMessage fault db message).1 = -1 ∧
        messages (saveMessage fault db message).2 = messages db) ∨
      ∃ id, messages (saveMessage fault db message).2
        = messages db ++ [(id, message.bound fault.insert)] := by
  have hopen := messages_databaseOpen fault.opening db
  unfold saveMessage
  simp only
  split
  · exact Or.inl ⟨rfl, hopen⟩
  -- The row is in even where its id comes out as a failure.
  · rcases insertRow_cases fault.insert (databaseOpen fault.opening db).2 .message
      (message.bound fault.insert) with h | ⟨db', id, h, hins⟩
    · left
      rw [messageInsert_eq, h]
      exact ⟨rfl, hopen⟩
    · right
      rw [messageInsert_eq, h]
      have hrows : messages db' = messages db ++ [(id, message.bound fault.insert)] := by
        rw [← hopen]
        exact rows_insert hins
      refine ⟨id, ?_⟩
      simp only [Option.getD_some]
      split <;> exact hrows

theorem messages_saveMessage (fault : MessageFault) (db : Database) (message : MessageRow) :
    messages (saveMessage fault db message).2 = messages db ∨
      ∃ id, messages (saveMessage fault db message).2
        = messages db ++ [(id, message.bound fault.insert)] :=
  (saveMessage_cases fault db message).imp And.right id

/-- A list is not one element longer than itself. -/
theorem messages_ne_of_eq {db db' : Database} {r : Int × MessageRow}
    (h : messages db' = messages db) : messages db' ≠ messages db ++ [r] := by
  rw [h, ne_eq, List.self_eq_append_right]
  exact List.cons_ne_nil r []

/-- The row the send handler hands to `save_message`. -/
def sendRow (fault : SendFault) (files : Files) (connectionId : Int) (accepted : SendAccepted) :
    MessageRow :=
  let delivered := deliver fault files accepted
  ⟨connectionId, statusId delivered.2.1, MessageTypeId.rawData.id, MessageDirectionId.inbound.id,
    httpBuildJson fault.build delivered.2.2.1 delivered.2.2.2, some fault.sendingTime,
    some accepted.body⟩

/-- The row the upload handler hands to `save_message`, for the last path. -/
def uploadRow (fault : UploadFault) (connectionId : Int) (path : List UInt8) : MessageRow :=
  ⟨connectionId, MessageStatusId.success.id, MessageTypeId.file.id, MessageDirectionId.inbound.id,
    httpBuildJson fault.build (.lit "message") (.lit "File(s) received"), some fault.sendingTime,
    some (heapString path)⟩

/-- What an accepted request does to the database: without a row for the peer
    nothing more, otherwise the history row is saved. -/
theorem answerSend_db (fault : SendFault) (w : World) (connectionId : Int)
    (accepted : SendAccepted) :
    (answerSend fault w connectionId accepted).db =
      if connectionId ≠ -1 then
        (saveMessage fault.message w.db (sendRow fault w.files connectionId accepted)).2
      else w.db := rfl

/-- What an upload that is answered 200 does to the database. -/
theorem apiUploadHandler_db {fault : UploadFault} {req : UploadRequest} {w : World}
    (hmethod : req.method = .lit "POST") (hform : ¬ (uploadForm fault req w.files).1 < 0)
    (hpath : (uploadForm fault req w.files).2.ctx.path ≠ [])
    (hid : (saveConnection fault.connection w.db req.remoteAddr).1 ≠ -1) :
    (apiUploadHandler fault req w).db
      = (saveMessage fault.message (saveConnection fault.connection w.db req.remoteAddr).2
        (uploadRow fault (saveConnection fault.connection w.db req.remoteAddr).1
          (uploadForm fault req w.files).2.ctx.path)).2 := by
  rw [apiUploadHandler, if_neg (not_not_intro hmethod)]
  simp only [hform, hpath, hid, if_false]
  rfl

/-- What the send handler adds to the history: nothing, or its row on the way to
    the answer of an accepted request. -/
theorem apiSendHandler_messages (parse : CStr → Option CJson) (fault : SendFault)
    (req : SendRequest) (w : World) :
    messages (apiSendHandler parse fault req w).db = messages w.db ∨
      ∃ id accepted, req.method = .lit "POST" ∧
        readRequest parse fault.malloc req = .ok accepted ∧
        (saveConnection fault.connection w.db req.remoteAddr).1 ≠ -1 ∧
        messages (apiSendHandler parse fault req w).db = messages w.db ++
          [(id, (sendRow fault w.files (saveConnection fault.connection w.db req.remoteAddr).1
            accepted).bound fault.message.insert)] := by
  have hconn := messages_saveConnection fault.connection w.db req.remoteAddr
  by_cases hmethod : req.method = .lit "POST"
  · cases hread : readRequest parse fault.malloc req with
    | error e =>
        -- Answered before `save_message` is called.
        rw [apiSendHandler_rejected parse fault req w hmethod hread]
        exact Or.inl hconn
    | ok accepted =>
        rw [apiSendHandler_accepted parse fault req w hmethod hread]
        generalize saveConnection fault.connection w.db req.remoteAddr = connection at *
        rw [answerSend_db]
        by_cases hid : connection.1 = -1
        · left
          simp only [hid, ne_eq, not_true_eq_false, if_false]
          exact hconn
        -- With a row for the peer the message is saved, or the statement fails.
        · rw [if_pos hid]
          rcases messages_saveMessage fault.message connection.2
            (sendRow fault w.files connection.1 accepted) with hsame | ⟨id, hrow⟩
          · exact Or.inl (hsame.trans hconn)
          · exact Or.inr ⟨id, accepted, hmethod, rfl, hid, hconn ▸ hrow⟩
  · rw [apiSendHandler_method parse fault req w hmethod]
    exact Or.inl rfl

/-- What the upload handler adds to the history: nothing, or its row on the way
    to the one answer that is a success. -/
theorem apiUploadHandler_messages (fault : UploadFault) (req : UploadRequest) (w : World) :
    messages (apiUploadHandler fault req w).db = messages w.db ∨
      ∃ id, req.method = .lit "POST" ∧
        ¬ (uploadForm fault req w.files).1 < 0 ∧
        (uploadForm fault req w.files).2.ctx.path ≠ [] ∧
        (saveConnection fault.connection w.db req.remoteAddr).1 ≠ -1 ∧
        messages (apiUploadHandler fault req w).db = messages w.db ++
          [(id, (uploadRow fault (saveConnection fault.connection w.db req.remoteAddr).1
            (uploadForm fault req w.files).2.ctx.path).bound fault.message.insert)] := by
  have hconn := messages_saveConnection fault.connection w.db req.remoteAddr
  -- The answers that come before `save_message`, then the one after it.
  cases uploadWay fault req w with
  | method hmethod =>
      rw [apiUploadHandler_method fault req w hmethod]
      exact Or.inl rfl
  | form hmethod hform =>
      rw [apiUploadHandler_form fault req w hmethod hform]
      exact Or.inl rfl
  | noFile hmethod hform hpath =>
      rw [apiUploadHandler_noFile fault req w hmethod hform hpath]
      exact Or.inl rfl
  | noConnection hmethod hform hpath hid =>
      rw [apiUploadHandler_noConnection fault req w hmethod hform hpath hid]
      exact Or.inl hconn
  | ok hmethod hform hpath hid =>
      rw [apiUploadHandler_db hmethod hform hpath hid]
      rcases messages_saveMessage fault.message
        (saveConnection fault.connection w.db req.remoteAddr).2
        (uploadRow fault (saveConnection fault.connection w.db req.remoteAddr).1
          (uploadForm fault req w.files).2.ctx.path) with hsame | ⟨id, hrow⟩
      · exact Or.inl (hsame.trans hconn)
      · exact Or.inr ⟨id, hmethod, hform, hpath, hid, hconn ▸ hrow⟩

/-- A row the send handler added was added on the way to its answer: it has the
    status of the delivery, and its response is what was bound of the body that was
    sent. -/
theorem apiSendHandler_recorded {parse : CStr → Option CJson} {fault : SendFault}
    {req : SendRequest} {w : World} {id : Int} {row : MessageRow}
    (h : messages (apiSendHandler parse fault req w).db = messages w.db ++ [(id, row)]) :
    ∃ accepted, readRequest parse fault.malloc req = .ok accepted ∧
      row.messageStatusId = statusId (deliver fault w.files accepted).2.1 ∧
      row.response = dbBindTextOrNull fault.message.insert 5 (httpBuildJson fault.build
        (deliver fault w.files accepted).2.2.1 (deliver fault w.files accepted).2.2.2) ∧
      (apiSendHandler parse fault req w).sent
        = w.sent ++ [httpSendBuiltJson (deliver fault w.files accepted).2.1
          (httpBuildJson fault.build (deliver fault w.files accepted).2.2.1
            (deliver fault w.files accepted).2.2.2)] := by
  -- The one row that is added is the row that was built for the answer.
  rcases apiSendHandler_messages parse fault req w with
    hsame | ⟨id', accepted, hmethod, hread, _, hrow⟩
  · exact absurd h (messages_ne_of_eq hsame)
  · rw [hrow, List.append_cancel_left_eq, List.cons.injEq, Prod.mk.injEq] at h
    rw [apiSendHandler_accepted parse fault req w hmethod hread]
    rw [← h.1.2]
    exact ⟨accepted, hread, rfl, rfl, rfl⟩

/-- A row the upload handler added is a success, and its response is what was bound
    of the body that was sent. -/
theorem apiUploadHandler_recorded {fault : UploadFault} {req : UploadRequest} {w : World} {id : Int}
    {row : MessageRow}
    (h : messages (apiUploadHandler fault req w).db = messages w.db ++ [(id, row)]) :
    row.messageStatusId = MessageStatusId.success.id ∧
      row.response = dbBindTextOrNull fault.message.insert 5
        (httpBuildJson fault.build (.lit "message") (.lit "File(s) received")) ∧
      (apiUploadHandler fault req w).sent = w.sent ++ [httpSendBuiltJson 200
        (httpBuildJson fault.build (.lit "message") (.lit "File(s) received"))] := by
  rcases apiUploadHandler_messages fault req w with
    hsame | ⟨id', hmethod, hform, hpath, hid, hrow⟩
  · exact absurd h (messages_ne_of_eq hsame)
  · rw [hrow, List.append_cancel_left_eq, List.cons.injEq, Prod.mk.injEq] at h
    rw [(apiUploadHandler_ok fault req w hmethod hform hpath hid).2, ← h.1.2]
    exact ⟨rfl, rfl, rfl⟩

end Server

end SendingSystem
