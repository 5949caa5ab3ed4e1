import SendingSystem.Server.History

/-!
# One request, its answer and its history row

A request to either handler, with everything that fails while it is handled, is
one value, so that what holds of both handlers is said once. Each writes one
response on every path, and the row that goes into the history on the way is made
of the very text that is sent, before it is sent: a null text is stored as `NULL`
and sent as an empty body. A text that could not be bound is stored as `NULL` too,
and sent in full.

## Main definitions

* `PostRequest`: A request to `/api/send` or `/api/upload`.
* `PostRequest.handle`: Its handler.
* `PostRequest.peer`: What `save_connection` returns for it.
* `Records`: A history row that agrees with an answer.
* `RecordsBound`: The same as far as the response was bound.

## Theorems

* `apiSendHandler_answer`, `apiUploadHandler_answer`: The text that is sent.
* `PostRequest.answer`: Every request gets one answer, with the right length.
* `Records.bind`: What binding a row leaves of it.
* `PostRequest.recorded`: A row that is added records the answer, as it was bound.
-/

namespace SendingSystem

namespace Server

open CString CJson

/-- A request to one of the two handlers, and what fails while it is handled. -/
inductive PostRequest where
  | send (parse : CStr → Option CJson) (fault : SendFault) (req : SendRequest)
  | upload (fault : UploadFault) (req : UploadRequest)

namespace PostRequest

/-- The handler of the request. -/
def handle : PostRequest → World → World
  | send parse fault req, w => apiSendHandler parse fault req w
  | upload fault req, w => apiUploadHandler fault req w

/-- `get_client_ip(connection)`. -/
def remoteAddr : PostRequest → CStr
  | send _ _ req => req.remoteAddr
  | upload _ req => req.remoteAddr

/-- What fails while the peer is looked up. -/
def connectionFault : PostRequest → ConnectionFault
  | send _ fault _ => fault.connection
  | upload fault _ => fault.connection

/-- What fails while the history row is written. -/
def messageFault : PostRequest → MessageFault
  | send _ fault _ => fault.message
  | upload fault _ => fault.message

/-- What fails while the answer is built. -/
def buildFault : PostRequest → BuildFault
  | send _ fault _ => fault.build
  | upload fault _ => fault.build

/-- What `save_connection` returns for the request, and the database it leaves. -/
def peer (r : PostRequest) (w : World) : Int × Database :=
  saveConnection r.connectionFault w.db r.remoteAddr

end PostRequest

/-- The history row agrees with the answer and with the peer's row. A row without
    a response goes with an answer whose body could not be built. -/
structure Records (fault : BuildFault) (connectionId : Int) (row : MessageRow) (r : Response) :
    Prop where
  text : ∀ s, row.response = some s → s.bytes = r.body
  null : row.response = none → r.body = [] ∧ (fault.object = true ∨ fault.print = true)
  status : row.messageStatusId = MessageStatusId.success.id ↔ r.status = 200
  direction : row.directionId = MessageDirectionId.inbound.id
  connection : row.connectionId = connectionId

/-- The history row agrees with the answer, but for a response that could not be
    bound. -/
structure RecordsBound (fault : BuildFault) (insert : StmtFault) (connectionId : Int)
    (row : MessageRow) (r : Response) : Prop where
  bound : insert.bind 5 = false → Records fault connectionId row r
  lost : insert.bind 5 = true → row.response = none
  status : row.messageStatusId = MessageStatusId.success.id ↔ r.status = 200
  direction : row.directionId = MessageDirectionId.inbound.id
  connection : row.connectionId = connectionId

/-- A row that records the answer does so as it is bound. -/
theorem Records.bind {fault : BuildFault} {connectionId : Int} {row : MessageRow} {r : Response}
    (h : Records fault connectionId row r) (insert : StmtFault) :
    RecordsBound fault insert connectionId (row.bound insert) r where
  bound hbind := by
    have hresponse : (row.bound insert).response = row.response :=
      dbBindTextOrNull_of_bound row.response hbind
    exact ⟨fun s hs => h.text s (hresponse ▸ hs), fun hs => h.null (hresponse ▸ hs), h.status,
      h.direction, h.connection⟩
  lost hbind := dbBindTextOrNull_of_failed row.response hbind
  status := h.status
  direction := h.direction
  connection := h.connection

/-- A response made of a text that was built for it. -/
def Built (fault : BuildFault) (r : Response) : Prop :=
  ∃ status type data, ShortAscii type data ∧
    r = httpSendBuiltJson status (httpBuildJson fault type data)

theorem Built.contentLength {fault : BuildFault} {r : Response} (h : Built fault r) :
    r.contentLength = r.body.length := by
  rcases h with ⟨status, type, data, hshort, rfl⟩
  exact (httpSendBuiltJson_wire fault status hshort).1

/-- An answer whose text could not be built has no body. -/
theorem Built.body_nil {fault : BuildFault} {r : Response} (h : Built fault r)
    (hnone : fault.object = true ∨ fault.print = true) : r.body = [] := by
  rcases h with ⟨status, type, data, hshort, rfl⟩
  rw [(httpSendBuiltJson_wire fault status hshort).2, httpBuildJson_eq_none.mpr hnone]
  rfl

/-- The success status is recorded for 200 only. -/
theorem statusId_success_iff (status : Int) :
    statusId status = MessageStatusId.success.id ↔ status = 200 := by
  rw [statusId]
  constructor
  · intro h
    by_contra hne
    rw [if_neg hne] at h
    exact absurd h (by decide)
  · intro h
    rw [if_pos h]

/-- A row whose response is the text sent, and whose status is that of the answer,
    records the answer. -/
theorem records_of_built {fault : BuildFault} {connectionId : Int} {row : MessageRow}
    {status : Int} {type data : CStr} (hshort : ShortAscii type data)
    (hresponse : row.response = httpBuildJson fault type data)
    (hstatus : row.messageStatusId = statusId status)
    (hdirection : row.directionId = MessageDirectionId.inbound.id)
    (hconnection : row.connectionId = connectionId) :
    Records fault connectionId row (httpSendBuiltJson status row.response) where
  text := by
    intro s hs
    rw [hresponse] at hs ⊢
    rw [(httpSendBuiltJson_wire fault status hshort).2, hs]
    rfl
  null := by
    intro hnone
    rw [hresponse] at hnone ⊢
    rw [(httpSendBuiltJson_wire fault status hshort).2, hnone]
    exact ⟨rfl, httpBuildJson_eq_none.mp hnone⟩
  status := by
    rw [hstatus, httpSendBuiltJson_status]
    exact statusId_success_iff status
  direction := hdirection
  connection := hconnection

/-- The send handler answers once, on every path. -/
theorem apiSendHandler_answer (parse : CStr → Option CJson) (fault : SendFault) (req : SendRequest)
    (w : World) :
    ∃ r, (apiSendHandler parse fault req w).sent = w.sent ++ [r] ∧ Built fault.build r := by
  by_cases hmethod : req.method = .lit "POST"
  -- Every answer of the handler is an object it has built.
  · cases hread : readRequest parse fault.malloc req with
    | error e =>
        rcases e with ⟨status, msg⟩
        rw [apiSendHandler_rejected parse fault req w hmethod hread]
        exact ⟨_, rfl, status, _, msg, readRequest_error_texts hread, rfl⟩
    | ok accepted =>
        rw [apiSendHandler_accepted parse fault req w hmethod hread, answerSend_sent]
        exact ⟨_, rfl, _, _, _, deliver_texts fault w.files accepted, rfl⟩
  · rw [apiSendHandler_method parse fault req w hmethod]
    exact ⟨_, rfl, 405, _, _, by decide, rfl⟩

/-- The upload handler answers once, on every path. -/
theorem apiUploadHandler_answer (fault : UploadFault) (req : UploadRequest) (w : World) :
    ∃ r, (apiUploadHandler fault req w).sent = w.sent ++ [r] ∧ Built fault.build r := by
  cases uploadWay fault req w with
  | method hmethod =>
      rw [apiUploadHandler_method fault req w hmethod]
      exact ⟨_, rfl, 405, _, .lit "POST required", by decide, rfl⟩
  | form hmethod hform =>
      rw [apiUploadHandler_form fault req w hmethod hform]
      exact ⟨_, rfl, 400, _, .lit "Form parse error", by decide, rfl⟩
  | noFile hmethod hform hpath =>
      rw [apiUploadHandler_noFile fault req w hmethod hform hpath]
      exact ⟨_, rfl, 400, _, .lit "No file part", by decide, rfl⟩
  | noConnection hmethod hform hpath hconn =>
      rw [apiUploadHandler_noConnection fault req w hmethod hform hpath hconn]
      exact ⟨_, rfl, 500, _, .lit "Data base error", by decide, rfl⟩
  | ok hmethod hform hpath hconn =>
      rw [(apiUploadHandler_ok fault req w hmethod hform hpath hconn).2]
      exact ⟨_, rfl, 200, _, _, by decide, rfl⟩

/-- Every request gets one answer. -/
theorem PostRequest.answer (request : PostRequest) (w : World) :
    ∃ r, (request.handle w).sent = w.sent ++ [r] ∧ Built request.buildFault r := by
  cases request with
  | send parse fault req => exact apiSendHandler_answer parse fault req w
  | upload fault req => exact apiUploadHandler_answer fault req w

/-- Whatever fails, a request is answered once, with a header that states the
    length of the body, and adds at most one row to the history, which records the
    answer as it was bound. -/
theorem PostRequest.recorded (request : PostRequest) (w : World) :
    ∃ r, (request.handle w).sent = w.sent ++ [r] ∧ r.contentLength = r.body.length ∧
      (messages (request.handle w).db = messages w.db ∨
        ∃ id row, messages (request.handle w).db = messages w.db ++ [(id, row)] ∧
          RecordsBound request.buildFault request.messageFault.insert (request.peer w).1 row
            r) := by
  rcases request.answer w with ⟨r, hsent, hbuilt⟩
  refine ⟨r, hsent, hbuilt.contentLength, ?_⟩
  cases request with
  | send parse fault req =>
      rcases apiSendHandler_messages parse fault req w with
        hsame | ⟨id, accepted, hmethod, hread, _, hrow⟩
      · exact Or.inl hsame
      · refine Or.inr ⟨id, _, hrow, ?_⟩
        -- The answer sent is the one made of the row's response.
        rw [handle, apiSendHandler_accepted parse fault req w hmethod hread, answerSend_sent,
          List.append_cancel_left_eq, List.cons.injEq] at hsent
        rw [← hsent.1]
        have hrecords := @records_of_built _ _ (sendRow fault w.files
          (saveConnection fault.connection w.db req.remoteAddr).1 accepted) _ _ _
          (deliver_texts fault w.files accepted) rfl rfl rfl rfl
        exact hrecords.bind fault.message.insert
  | upload fault req =>
      rcases apiUploadHandler_messages fault req w with
        hsame | ⟨id, hmethod, hform, hpath, hconn, hrow⟩
      · exact Or.inl hsame
      · refine Or.inr ⟨id, _, hrow, ?_⟩
        rw [handle, (apiUploadHandler_ok fault req w hmethod hform hpath hconn).2,
          List.append_cancel_left_eq, List.cons.injEq] at hsent
        rw [← hsent.1]
        have hrecords := @records_of_built _ _ (uploadRow fault
          (saveConnection fault.connection w.db req.remoteAddr).1
          (uploadForm fault req w.files).2.ctx.path) 200 _ _ (by decide) rfl rfl rfl rfl
        exact hrecords.bind fault.message.insert

end Server

end SendingSystem
