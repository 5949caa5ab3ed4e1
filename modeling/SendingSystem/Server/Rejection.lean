import SendingSystem.Server.ApiUpload
import SendingSystem.Server.SaveConnection

/-!
# What a rejected request leaves behind

The two handlers make their checks in different orders. The upload handler looks
the peer up only when the form was fine, so a request it answers 400 or 405 never
reaches the database. The send handler looks the peer up right after the method
check, before it has read anything, so a request it answers 400 has opened the
database and may have added the peer's row; `LeavesAlone` says when it has not.

## Theorems

* `upload_rejected_db`, `send_rejected_db`: What a rejected request leaves.
* `rejected_leaves_database_iff`: Which rejected requests leave it alone.
-/

namespace SendingSystem

namespace Server

open CString

/-- An upload answered 400 or 405 has not reached the database. -/
theorem upload_rejected_db (fault : UploadFault) (req : UploadRequest) (w : World) (status : Int)
    (hstatus : status = 400 ∨ status = 405) (h : Answers w (apiUploadHandler fault req w) status) :
    (apiUploadHandler fault req w).db = w.db := by
  cases uploadWay fault req w with
  | method hmethod =>
      rw [apiUploadHandler_method fault req w hmethod]
      rfl
  | form hmethod hform =>
      rw [apiUploadHandler_form fault req w hmethod hform]
      rfl
  | noFile hmethod hform hpath =>
      rw [apiUploadHandler_noFile fault req w hmethod hform hpath]
      rfl
  -- From here on the answer is 500 or 200.
  | noConnection hmethod hform hpath hconn =>
      have hsent : (apiUploadHandler fault req w).sent
          = w.sent ++ [httpSendError fault.build 500 (.lit "Data base error")] := by
        rw [apiUploadHandler_noConnection fault req w hmethod hform hpath hconn]
        rfl
      rw [answers_iff hsent, httpSendError_status] at h
      omega
  | ok hmethod hform hpath hconn =>
      rw [answers_iff (apiUploadHandler_ok fault req w hmethod hform hpath hconn).2,
        httpSendBuiltJson_status] at h
      omega

/-- A send request answered 400 leaves what the lookup of its peer left. -/
theorem send_rejected_db (parse : CStr → Option CJson) (fault : SendFault) (req : SendRequest)
    (w : World) (hmethod : req.method = .lit "POST") :
    (Answers w (apiSendHandler parse fault req w) 400 ↔
      ¬ PassesChecks parse fault.malloc req) ∧
    ¬ Answers w (apiSendHandler parse fault req w) 405 ∧
    (¬ PassesChecks parse fault.malloc req → (apiSendHandler parse fault req w).db
      = (saveConnection fault.connection w.db req.remoteAddr).2) := by
  rcases apiSendHandler_status parse fault req w hmethod with ⟨r, hsent, hstatus⟩
  rw [answers_iff hsent, answers_iff hsent]
  refine ⟨?_, ?_, fun hno => ?_⟩
  -- An answer other than 400 comes of a request that passed.
  · rcases hstatus with ⟨h400, hno⟩ | ⟨h, hpass⟩
    · exact ⟨fun _ => hno, fun _ => h400⟩
    · exact ⟨fun h400 => by omega, fun hno => absurd hpass hno⟩
  · omega
  · rcases (readRequest_rejects_iff parse fault.malloc req).mpr hno with ⟨msg, hread⟩
    rw [apiSendHandler_rejected parse fault req w hmethod hread]
    rfl

/-- Every upload answered 400 or 405 leaves the database as it was. A send
    request does so exactly when its method is another one, or it passes the
    checks and is not answered so at all, or looking its peer up writes nothing. -/
theorem rejected_leaves_database_iff (w : World) :
    (∀ (fault : UploadFault) (req : UploadRequest) (status : Int),
      status = 400 ∨ status = 405 → Answers w (apiUploadHandler fault req w) status →
      (apiUploadHandler fault req w).db = w.db) ∧
    (∀ (parse : CStr → Option CJson) (fault : SendFault) (req : SendRequest),
      (∀ status, status = 400 ∨ status = 405 →
        Answers w (apiSendHandler parse fault req w) status →
        (apiSendHandler parse fault req w).db = w.db) ↔
      req.method ≠ .lit "POST" ∨ PassesChecks parse fault.malloc req ∨
        LeavesAlone fault.connection w.db req.remoteAddr) := by
  refine ⟨fun fault req => upload_rejected_db fault req w, fun parse fault req => ?_⟩
  by_cases hmethod : req.method = .lit "POST"
  · rcases send_rejected_db parse fault req w hmethod with ⟨h400, h405, hdb⟩
    rw [← saveConnection_eq_iff]
    constructor
    · intro h
      by_cases hpass : PassesChecks parse fault.malloc req
      · exact Or.inr (Or.inl hpass)
      · refine Or.inr (Or.inr ?_)
        rw [← hdb hpass]
        exact h 400 (Or.inl rfl) (h400.mpr hpass)
    -- An answer of this kind is a 400, so the request failed a check.
    · intro h status hstatus hanswers
      have hpass : ¬ PassesChecks parse fault.malloc req := by
        rcases hstatus with rfl | rfl
        · exact h400.mp hanswers
        · exact absurd hanswers h405
      rcases h with h | h | h
      · exact absurd hmethod h
      · exact absurd h hpass
      · rw [hdb hpass]
        exact h
  · refine ⟨fun _ => Or.inl hmethod, fun _ status _ _ => ?_⟩
    rw [apiSendHandler_method parse fault req w hmethod]
    rfl

/-- A request by another method, to either endpoint. -/
theorem rejected_leaves_database_iff_get :
    (apiUploadHandler (.none 512 (.lit "2026-03-01 12:00:00"))
      ⟨.lit "GET", .lit "10.0.0.7", [], false⟩ createdWorld).db = createdDatabase ∧
    (apiSendHandler (fun _ => none) (.none (.lit "2026-03-01 12:00:00"))
      ⟨.lit "GET", .lit "10.0.0.7", none, none⟩ createdWorld).db
      = createdDatabase := by
  constructor
  · exact (rejected_leaves_database_iff createdWorld).1 _ _ 405 (Or.inr rfl) ⟨_, rfl, rfl⟩
  · exact ((rejected_leaves_database_iff createdWorld).2 _ _ _).mpr (Or.inl (by decide)) 405
      (Or.inr rfl) ⟨_, rfl, rfl⟩

/-- A `POST /api/send` without a `Content-Length` from a new peer: answered 400,
    with the peer's row added. -/
theorem rejected_send_adds_connection :
    Answers createdWorld
      (apiSendHandler (fun _ => none) (.none (.lit "2026-03-01 12:00:00"))
        ⟨.lit "POST", .lit "10.0.0.7", none, none⟩ createdWorld) 400 ∧
    connections createdDatabase = [] ∧
    connections (apiSendHandler (fun _ => none) (.none (.lit "2026-03-01 12:00:00"))
      ⟨.lit "POST", .lit "10.0.0.7", none, none⟩ createdWorld).db
      = [(1, incomingPeer (.lit "10.0.0.7"))] :=
  ⟨⟨_, rfl, rfl⟩, rfl, rfl⟩

end Server

end SendingSystem
