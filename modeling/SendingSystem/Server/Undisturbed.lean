import Mathlib.Data.Fintype.Card
import SendingSystem.Server.Concurrent
import SendingSystem.Server.Storage

/-!
# Requests of different peers

Concurrent requests that come from different addresses do not disturb each other.
Nothing a worker does to the rows of its own peer makes the `SELECT` or the `INSERT`
of another one fail, and an upload's answer does not depend on what the files hold.
So each worker, whatever the schedule, answers what it answers alone, and its row is
in the history exactly if it would be. What could still go wrong is that the system
fails an operation or that the ids run out, and both are excluded here. Two requests
of one address do disturb each other: the second one to insert the peer loses.

## Main definitions

* `Faultless`: No operation of the request on the database fails.
* `Gives`, `Writes`: What the request does alone.
* `Sure`: What a worker will do is what it does alone.
* `Undisturbed`: What holds in every state of every interleaving.

## Theorems

* `form_context_files`: The form does not depend on the files.
* `sure_parsing`, `sure_opening`, `sure_selecting`, `sure_inserting`, `sure_reopening`,
  `sure_saving`, `sure_step`: A step that meets no other peer's row keeps the worker sure.
* `Moves.owned`, `Moves.written`: Who made a row of a peer or of the history after a step.
* `undisturbed_step`, `undisturbed_run`: A step and a run keep the invariant.
* `peers_undisturbed`: The answers and the history of a complete interleaving.
-/

namespace SendingSystem

namespace Server

open CString CJson Schedule

/-- No operation of the request on the database is failed by the system. -/
structure Faultless (request : PostRequest) : Prop where
  connection : request.connectionFault = .none
  message : request.messageFault = .none

/-- Handled alone, the request is answered so. -/
def Gives (request : PostRequest) (w : World) (r : Response) : Prop :=
  (request.handle w).sent = w.sent ++ [r]

/-- Handled alone, the request adds a row to the history. -/
def Writes (request : PostRequest) (w : World) : Prop :=
  messages (request.handle w).db ≠ messages w.db

/-- A database that requests of peers were handled on, with room for `n` more rows. -/
structure Roomy (n : Nat) (db : Database) : Prop where
  applied : Applied db
  peers : ∀ c ∈ connections db, ∃ addr, c.2 = incomingPeer addr
  connectionIds : Db.seq (S := serverSchema) db .connection + n ≤ maxRowid
  messageIds : Db.seq (S := serverSchema) db .message + n ≤ maxRowid

/-- Without a fault the id of a peer is that of the row with its address. -/
theorem Faultless.peerId {request : PostRequest} (h : Faultless request) {db : Database} {id : Int}
    (hid : PeerId db request id) : (id, incomingPeer request.remoteAddr) ∈ connections db := by
  rcases hid with hid | hid
  · exact hid
  · rw [h.connection, boundPeer_of_bound rfl] at hid
    exact hid

/-- And a row records its answer in full. -/
theorem Faultless.records {request : PostRequest} (h : Faultless request) {connectionId : Int}
    {row : MessageRow} {r : Response}
    (hrecords : RecordsBound request.buildFault request.messageFault.insert connectionId row r) :
    Records request.buildFault connectionId row r := by
  rw [h.message] at hrecords
  exact hrecords.bound rfl

/-- What the parser makes of a part does not depend on the files. -/
theorem handlePart_files_irrel (regcomp : Bool) (pathlen : Nat) (part : Part) {s s' : FormState}
    (h : s.ctx.path = s'.ctx.path) :
    (handlePart regcomp pathlen part s).1 = (handlePart regcomp pathlen part s').1 ∧
      (handlePart regcomp pathlen part s).2.ctx.path
        = (handlePart regcomp pathlen part s').2.ctx.path := by
  rcases handlePart_cases regcomp pathlen part s with
    ⟨hget, hs⟩ | ⟨hfile, stops, s₁, hs, rfl, hpath, _⟩
  · rcases handlePart_cases regcomp pathlen part s' with ⟨_, hs'⟩ | ⟨hfile, _⟩
    · rw [hs, hs']
      exact ⟨rfl, h⟩
    · rw [hget] at hfile
      exact absurd hfile Bool.false_ne_true
  · rcases handlePart_cases regcomp pathlen part s' with ⟨hget, _⟩ |
      ⟨_, stops', s₁', hs', rfl, hpath', _⟩
    · rw [hget] at hfile
      exact absurd hfile Bool.false_ne_true
    · rw [hs, hs']
      exact ⟨rfl, hpath.trans hpath'.symm⟩

/-- Nor does what it makes of the form. -/
theorem form_context_files (regcomp : Bool) (pathlen : Nat) (malformed : Bool) :
    ∀ (parts : List Part) (seen : Nat) (s s' : FormState), s.ctx.path = s'.ctx.path →
      (handleFormRequest regcomp pathlen malformed parts seen s).1
        = (handleFormRequest regcomp pathlen malformed parts seen s').1 ∧
      (handleFormRequest regcomp pathlen malformed parts seen s).2.ctx.path
        = (handleFormRequest regcomp pathlen malformed parts seen s').2.ctx.path := by
  intro parts
  induction parts with
  | nil => exact fun seen s s' h => ⟨rfl, h⟩
  | cons part parts ih =>
      intro seen s s' h
      rcases handlePart_files_irrel regcomp pathlen part h with ⟨hstops, hpath⟩
      unfold handleFormRequest
      rcases hs : handlePart regcomp pathlen part s with ⟨stops, s₁⟩
      rcases hs' : handlePart regcomp pathlen part s' with ⟨stops', s₁'⟩
      rw [hs, hs'] at hstops hpath
      simp only at hstops hpath
      subst hstops
      cases stops with
      | true => exact ⟨rfl, hpath⟩
      | false => exact ih (seen + 1) s₁ s₁' hpath

/-- A delivery is answered the same whatever the files are. -/
theorem sendResponse_files (fault : SendFault) (files files' : Files) (accepted : SendAccepted) :
    sendResponse fault files accepted = sendResponse fault files' accepted := by
  unfold sendResponse deliver
  split
  · rfl
  · simp only [saveTextToFile, storeFile]
    cases fault.file.fopen <;> rfl

section Solitary

variable {n : Nat} {w : World}

/-- Alone, a request gets its peer's row. -/
theorem Roomy.peer {request : PostRequest} (h : Roomy (n + 1) w.db)
    (hfaultless : Faultless request) :
    (request.peer w).1 ≠ -1 := by
  rw [PostRequest.peer, hfaultless.connection]
  have hids : Db.seq (S := serverSchema) w.db .connection < maxRowid := by
    have := h.connectionIds
    omega
  rcases @saveConnection_works _ h.applied request.remoteAddr h.peers hids with
    ⟨_, id, hrow, hret⟩ | ⟨_, db', id, hins, hret⟩
  · have hpos := (Db.id_bounds hrow).1
    rw [hret]
    simp only at hpos ⊢
    omega
  · have hpos := (connections_insertPeer hins).2
    rw [hret]
    simp only
    omega

/-- And a row of its peer is saved. -/
theorem Roomy.saves (request : PostRequest) (h : Roomy (n + 1) w.db)
    (hfaultless : Faultless request) {row : MessageRow} (hseeded : Seeded row)
    (hconn : row.connectionId = (request.peer w).1) :
    messages (saveMessage request.messageFault (request.peer w).2 row).2 ≠ messages w.db := by
  have hids : Db.seq (S := serverSchema) w.db .connection < maxRowid := by
    have := h.connectionIds
    omega
  have hleft : Db.seq (S := serverSchema) w.db .message < maxRowid := by
    have := h.messageIds
    omega
  have hkept := messages_saveConnection request.connectionFault w.db request.remoteAddr
  -- The peer's row was there, or it is the new one.
  have hpeer : Applied (request.peer w).2 ∧ Used (request.peer w).2 .connection (request.peer w).1 ∧
      Db.seq (S := serverSchema) (request.peer w).2 .message < maxRowid := by
    rw [PostRequest.peer, hfaultless.connection]
    rcases @saveConnection_works _ h.applied request.remoteAddr h.peers hids with
      ⟨_, id, hrow, hret⟩ | ⟨_, db', id, hins, hret⟩
    · rw [hret]
      exact ⟨h.applied, ⟨_, hrow⟩, hleft⟩
    · rw [hret]
      refine ⟨h.applied.insert hins, ⟨_, (insert_fresh hins).2.2⟩, ?_⟩
      simp only
      rw [seq_insert_of_ne hins (by decide)]
      exact hleft
  have hsaved : (saveMessage .none (request.peer w).2 row).1 ≠ -1 :=
    saveMessage_works hpeer.1 hseeded (hconn ▸ hpeer.2.1)
      hpeer.2.2
  rw [hfaultless.message]
  rcases saveMessage_cases .none (request.peer w).2 row with ⟨hfail, _⟩ | ⟨id, hrows⟩
  · exact absurd hfail hsaved
  · rw [hrows]
    intro heq
    have hlength := congrArg List.length (heq.trans hkept.symm)
    rw [List.length_append, List.length_singleton] at hlength
    simp only [PostRequest.peer] at hlength
    omega

end Solitary

/-- What a worker will do is what it does alone: it has passed the checks the request
    passes, it has missed a row that is still missing, it has the row's id if there is
    one, and the answer it carries is its answer. -/
def Sure (db : Database) (request : PostRequest) (w : World) : Stage → Prop
  | .start => True
  | .parsing fault req seen parts form => request = .upload fault req ∧ req.method = .lit "POST" ∧
    (handleFormRequest fault.regcomp fault.pathlen req.malformed parts seen form).1
      = (uploadForm fault req w.files).1 ∧
    (handleFormRequest fault.regcomp fault.pathlen req.malformed parts seen form).2.ctx.path
      = (uploadForm fault req w.files).2.ctx.path
  | .opening left _ => left = none ∧ request.callsSaveConnection w = true
  | .selecting => request.callsSaveConnection w = true
  | .inserting => request.callsSaveConnection w = true ∧ ¬ Known db request.remoteAddr
  | .connected connectionId => request.callsSaveConnection w = true ∧ connectionId ≠ -1
  | .reopening row r left _ => left = none ∧ Seeded row ∧ Gives request w r ∧ Writes request w
  | .saving row r => Seeded row ∧ Gives request w r ∧ Writes request w
  | .answering r => Gives request w r
  | .done r => Gives request w r

/-- It stays so unless its own peer turns up. -/
theorem Sure.mono {db db' : Database} {request : PostRequest} {w : World} {stage : Stage}
    (h : Sure db request w stage)
    (hknown : Known db' request.remoteAddr → Known db request.remoteAddr) :
    Sure db' request w stage := by
  cases stage with
  | inserting => exact ⟨h.1, fun hk => h.2 (hknown hk)⟩
  | _ => exact h

/-- What a step may lead to: a worker that is sure, and one that is about to answer
    has saved its row or has none to save. -/
def Next (w : World) (w₁ : World) (h : Handling) (w₂ : World) (h' : Handling) : Prop :=
  Sure w₂.db h.request w h'.stage ∧ ∀ r, h'.stage = .answering r →
    (∃ row id, h.stage = .saving row r ∧
      Db.insert (S := serverSchema) w₁.db .message row = some (w₂.db, id)) ∨ ¬ Writes h.request w

theorem Next.of_eq {w w₁ w₂ : World} {h h' : Handling} {r : World × Handling}
    (hnext : Next w w₁ h r.1 r.2) (heq : r = (w₂, h')) : Next w w₁ h w₂ h' := by
  rw [heq] at hnext
  exact hnext

/-- A request that is rejected before its row is written. -/
theorem not_writes_of_db {request : PostRequest} {w : World}
    (h : (request.handle w).db = w.db ∨ (request.handle w).db = (request.peer w).2) :
    ¬ Writes request w := by
  intro hwrites
  rcases h with h | h
  · exact hwrites (by rw [h])
  · exact hwrites (by rw [h]; exact messages_saveConnection ..)

section Step

variable {n : Nat} {w w₁ : World}

/-- The first step. -/
theorem sure_begin (request : PostRequest) (path : List UInt8) (hfaultless : Faultless request) :
    Next w w₁ ⟨request, path, .start⟩ w₁ ⟨request, path, beginStage request⟩ := by
  cases request with
  | send parse fault req =>
      have hfault : fault.connection = .none := hfaultless.connection
      by_cases hmethod : req.method = .lit "POST"
      · have hstage : beginStage (.send parse fault req) = .opening none createDatabase := by
          simp only [beginStage, hmethod, ne_eq, not_true_eq_false, if_false, hfault]
          rfl
        unfold Next
        rw [hstage]
        exact ⟨⟨rfl, decide_eq_true hmethod⟩, fun r => Stage.noConfusion⟩
      · have hstage : beginStage (.send parse fault req)
            = .answering (httpSendError fault.build 405 (.lit "POST required")) := by
          simp only [beginStage, hmethod, ne_eq, not_false_eq_true, if_true]
        have halone := apiSendHandler_method parse fault req w hmethod
        unfold Next
        rw [hstage]
        refine ⟨?_, fun r _ => Or.inr (not_writes_of_db (Or.inl ?_))⟩
        · rw [Sure, Gives, PostRequest.handle, halone]
          rfl
        · rw [PostRequest.handle, halone]
          rfl
  | upload fault req =>
      by_cases hmethod : req.method = .lit "POST"
      · have hstage : beginStage (.upload fault req)
            = .parsing fault req 0 req.parts (FormState.initial fun _ => none) := by
          simp only [beginStage, hmethod, ne_eq, not_true_eq_false, if_false]
        unfold Next
        rw [hstage]
        rcases form_context_files fault.regcomp fault.pathlen req.malformed req.parts 0
          (.initial fun _ => none) (.initial w.files) rfl with
            ⟨hfields, hpath⟩
        refine ⟨⟨rfl, hmethod, hfields, ?_⟩, fun r => Stage.noConfusion⟩
        rw [hpath, uploadForm, FormState.path_close]
      · have hstage : beginStage (.upload fault req)
            = .answering (httpSendError fault.build 405 (.lit "POST required")) := by
          simp only [beginStage, hmethod, ne_eq, not_false_eq_true, if_true]
        have halone := apiUploadHandler_method fault req w hmethod
        unfold Next
        rw [hstage]
        refine ⟨?_, fun r _ => Or.inr (not_writes_of_db (Or.inl ?_))⟩
        · rw [Sure, Gives, PostRequest.handle, halone]
          rfl
        · rw [PostRequest.handle, halone]
          rfl

/-- The end of the form. -/
theorem sure_endForm {h : Handling} {fault : UploadFault} {req : UploadRequest}
    (hrequest : h.request = .upload fault req) (hfaultless : Faultless h.request)
    (hmethod : req.method = .lit "POST") (form : FormState)
    (hpath : form.ctx.path = (uploadForm fault req w.files).2.ctx.path) (w₁ : World) :
    Next w w₁ h (endForm w₁ h fault (uploadForm fault req w.files).1 form).1
      (endForm w₁ h fault (uploadForm fault req w.files).1 form).2 := by
  rw [hrequest] at hfaultless
  have hfault : fault.connection = .none := hfaultless.connection
  simp only [Next, endForm, formStage, FormState.path_close, hpath, hrequest]
  by_cases hfields : (uploadForm fault req w.files).1 < 0
  · have halone := apiUploadHandler_form fault req w hmethod hfields
    rw [if_pos hfields]
    refine ⟨?_, fun r _ => Or.inr (not_writes_of_db (Or.inl ?_))⟩
    · rw [Sure, Gives, PostRequest.handle, halone]
      rfl
    · rw [PostRequest.handle, halone]
      rfl
  · rw [if_neg hfields]
    by_cases hempty : (uploadForm fault req w.files).2.ctx.path = []
    · have halone := apiUploadHandler_noFile fault req w hmethod hfields hempty
      rw [if_pos hempty]
      refine ⟨?_, fun r _ => Or.inr (not_writes_of_db (Or.inl ?_))⟩
      · rw [Sure, Gives, PostRequest.handle, halone]
        rfl
      · rw [PostRequest.handle, halone]
        rfl
    · have hcalls : (PostRequest.upload fault req).callsSaveConnection w = true := by
        simp only [PostRequest.callsSaveConnection, hmethod, hfields, hempty, decide_true,
          decide_false, Bool.not_false, ne_eq, not_false_eq_true, Bool.and_self]
      rw [if_neg hempty, hfault]
      exact ⟨⟨rfl, hcalls⟩, fun r => Stage.noConfusion⟩

/-- With the peer's row at hand. -/
theorem sure_connected (hroomy : Roomy (n + 1) w.db) {h : Handling}
    (hfaultless : Faultless h.request) {connectionId : Int}
    (hcalls : h.request.callsSaveConnection w = true) (hid : connectionId ≠ -1) :
    Next w w₁ h (connectedStep w₁ h connectionId).1 (connectedStep w₁ h connectionId).2 := by
  have hpeer := hroomy.peer hfaultless
  rcases h with ⟨request, path, stage⟩
  cases request with
  | send parse fault req =>
      have hfault : fault.message = .none := hfaultless.message
      have hmethod : req.method = .lit "POST" := of_decide_eq_true hcalls
      simp only [Next, connectedStep]
      cases hread : readRequest parse fault.malloc req with
      | error e =>
          rcases e with ⟨status, msg⟩
          have halone := apiSendHandler_rejected parse fault req w hmethod hread
          refine ⟨?_, fun r _ => Or.inr (not_writes_of_db (Or.inr ?_))⟩
          · simp only [Sure, Gives, PostRequest.handle, halone]
            rfl
          · rw [PostRequest.handle, halone]
            rfl
      | ok accepted =>
          have halone := apiSendHandler_accepted parse fault req w hmethod hread
          simp only
          rw [if_pos hid, hfault]
          refine ⟨⟨rfl, seeded_sendRow .., ?_, ?_⟩, fun r => Stage.noConfusion⟩
          -- The answer does not depend on what the files are by now.
          · rw [Gives, PostRequest.handle, halone, answerSend_sent,
              sendResponse_files fault w₁.files w.files]
            rfl
          · have hrow : (saveConnection fault.connection w.db req.remoteAddr).1 ≠ -1 := hpeer
            rw [Writes, PostRequest.handle, halone, answerSend_db, if_pos hrow]
            exact hroomy.saves (.send parse fault req) hfaultless
              (seeded_sendRow ..) rfl
  | upload fault req =>
      have hfault : fault.message = .none := hfaultless.message
      have hchecks : req.method = .lit "POST" ∧ ¬ (uploadForm fault req w.files).1 < 0 ∧
          (uploadForm fault req w.files).2.ctx.path ≠ [] := by
        simp only [PostRequest.callsSaveConnection, Bool.and_eq_true, decide_eq_true_eq,
          Bool.not_eq_true', decide_eq_false_iff_not] at hcalls
        exact ⟨hcalls.1.1, hcalls.1.2, hcalls.2⟩
      rcases hchecks with ⟨hmethod, hfields, hpath⟩
      simp only [Next, connectedStep]
      rw [if_neg hid, hfault]
      refine ⟨⟨rfl, seeded_uploadRow .., ?_, ?_⟩, fun r => Stage.noConfusion⟩
      · rw [Gives, PostRequest.handle,
          (apiUploadHandler_ok fault req w hmethod hfields hpath hpeer).2]
        rfl
      · rw [Writes, PostRequest.handle, apiUploadHandler_db hmethod hfields hpath hpeer]
        exact hroomy.saves (.upload fault req) hfaultless (seeded_uploadRow ..) rfl

/-- A script that was applied before runs through. -/
theorem scriptStep_none {db : Database} (happlied : Applied db) (failed opened : Stage)
    (script : Option Nat → List (Stmt serverSchema) → Stage) {rest : List (Stmt serverSchema)}
    (hrest : ∀ s ∈ rest, s ∈ createDatabase) :
    scriptStep db failed opened script none rest = (db, opened) ∨
      ∃ rest', scriptStep db failed opened script none rest = (db, script none rest') := by
  cases rest with
  | nil => exact Or.inl rfl
  | cons s rest =>
      rw [List.forall_mem_cons] at hrest
      have hs : s.exec db = some db := happlied.settled s hrest.1
      refine Or.inr ⟨rest, ?_⟩
      simp only [scriptStep, hs]
      rfl

section Stages

variable {w₂ : World} {h' : Handling} {request : PostRequest} {path : List UInt8}

/-- A part of the form. Other workers have changed the files, not the context. -/
theorem sure_parsing (hfaultless : Faultless request) {fault : UploadFault} {req : UploadRequest}
    {seen : Nat} {parts : List Part} {form : FormState}
    (hsure : Sure w₁.db request w (.parsing fault req seen parts form))
    (hstep : handleStep w₁ ⟨request, path, .parsing fault req seen parts form⟩ = some (w₂, h')) :
    Next w w₁ ⟨request, path, .parsing fault req seen parts form⟩ w₂ h' := by
  rcases hsure with ⟨hrequest, hmethod, hfields, hpath⟩
  rcases form_context_files fault.regcomp fault.pathlen req.malformed parts seen
    { form with files := w₁.files } form rfl with ⟨hfields', hpath'⟩
  rw [hfields] at hfields'
  rw [hpath] at hpath'
  have hend : ∀ form' : FormState,
      form'.ctx.path = (uploadForm fault req w.files).2.ctx.path → Next w w₁
        ⟨request, path, .parsing fault req seen parts form⟩
        (endForm w₁ ⟨request, path, .parsing fault req seen parts form⟩ fault
          (uploadForm fault req w.files).1 form').1
        (endForm w₁ ⟨request, path, .parsing fault req seen parts form⟩ fault
          (uploadForm fault req w.files).1 form').2 := fun form' hform' =>
    sure_endForm (h := ⟨request, path, .parsing fault req seen parts form⟩) hrequest hfaultless
      hmethod form' hform' w₁
  cases parts with
  | nil =>
      have hnext := hend _ hpath'
      rw [← hfields', handleFormRequest] at hnext
      exact hnext.of_eq (Option.some.inj hstep)
  | cons part parts =>
      unfold handleFormRequest at hfields' hpath'
      rcases hpart : handlePart fault.regcomp fault.pathlen part { form with files := w₁.files }
        with ⟨stops, form'⟩
      simp only [hpart] at hfields' hpath'
      cases stops with
      | true =>
          simp only [handleStep, hpart, Option.some.injEq] at hstep
          have hnext := hend form' hpath'
          rw [← hfields'] at hnext
          exact hnext.of_eq hstep
      | false =>
          simp only [handleStep, hpart, Option.some.injEq, Prod.mk.injEq] at hstep
          rcases hstep with ⟨rfl, rfl⟩
          exact ⟨⟨hrequest, hmethod, hfields', hpath'⟩, fun r => Stage.noConfusion⟩

/-- A statement of the script before the peer is looked up. -/
theorem sure_opening (happlied : Applied w₁.db) {left : Option Nat}
    {rest : List (Stmt serverSchema)} (hrest : ∀ s ∈ rest, s ∈ createDatabase)
    (hsure : Sure w₁.db request w (.opening left rest))
    (hstep : handleStep w₁ ⟨request, path, .opening left rest⟩ = some (w₂, h')) :
    Next w w₁ ⟨request, path, .opening left rest⟩ w₂ h' := by
  rcases hsure with ⟨rfl, hcalls⟩
  simp only [handleStep] at hstep
  rcases scriptStep_none happlied (.connected (-1)) .selecting .opening hrest with
    hopened | ⟨rest', hscript⟩
  · rw [hopened, Option.some.injEq, Prod.mk.injEq] at hstep
    rcases hstep with ⟨rfl, rfl⟩
    exact ⟨hcalls, fun r => Stage.noConfusion⟩
  · rw [hscript, Option.some.injEq, Prod.mk.injEq] at hstep
    rcases hstep with ⟨rfl, rfl⟩
    exact ⟨⟨rfl, hcalls⟩, fun r => Stage.noConfusion⟩

/-- The `SELECT` finds the peer's row unless there is none. -/
theorem sure_selecting (hfaultless : Faultless request)
    (hcalls : request.callsSaveConnection w = true)
    (hstep : handleStep w₁ ⟨request, path, .selecting⟩ = some (w₂, h')) :
    Next w w₁ ⟨request, path, .selecting⟩ w₂ h' := by
  have hfault : request.connectionFault = .none := hfaultless.connection
  have hprepare : ConnectionFault.none.find.prepare = false := rfl
  have hfound := connectionFind_nonneg_iff ConnectionFault.none.find w₁.db request.remoteAddr
  simp only [handleStep, hfault, hprepare, Bool.false_eq_true, if_false, Option.some.injEq,
    Prod.mk.injEq] at hstep
  rcases hstep with ⟨rfl, rfl⟩
  by_cases hid : 0 ≤ connectionFind ConnectionFault.none.find w₁.db (some request.remoteAddr)
    connectionPort sslEncrypt incomingPeerRole.id
  · rw [if_pos hid]
    exact ⟨⟨hcalls, by omega⟩, fun r => Stage.noConfusion⟩
  · rw [if_neg hid]
    exact ⟨⟨hcalls, fun hknown => hid (hfound.mpr ⟨rfl, rfl, hknown⟩)⟩,
      fun r => Stage.noConfusion⟩

/-- The `INSERT` of a peer that is missing goes in: every other row has another
    address. -/
theorem sure_inserting (hfaultless : Faultless request) (happlied : Applied w₁.db)
    (hpeers : ∀ c ∈ connections w₁.db, ∃ addr, c.2 = incomingPeer addr)
    (hids : Db.seq (S := serverSchema) w₁.db .connection < maxRowid)
    (hsure : Sure w₁.db request w .inserting)
    (hstep : handleStep w₁ ⟨request, path, .inserting⟩ = some (w₂, h')) :
    Next w w₁ ⟨request, path, .inserting⟩ w₂ h' := by
  rcases hsure with ⟨hcalls, hunknown⟩
  have hfault : request.connectionFault = .none := hfaultless.connection
  have hfree : ∀ c ∈ connections w₁.db,
      c.2.peerKey ≠ (incomingPeer request.remoteAddr).peerKey := by
    intro c hc hkey
    rcases hpeers c hc with ⟨addr, hrow⟩
    rw [hrow] at hkey
    exact hunknown ⟨c, hc, by rw [hrow, peerKey_incomingPeer_inj hkey]⟩
  rcases (insertPeer_isSome_iff happlied.ready request.remoteAddr).mpr
    ⟨happlied.scripted.role, hids, hfree⟩ with ⟨db', id, hins⟩
  have hpos := (connections_insertPeer hins).2
  have hret := @connectionInsert_eq .none rfl rfl w₁.db request.remoteAddr
  rw [insertBound_of_bound rfl, hins] at hret
  simp only [handleStep, hfault, ConnectionFault.none, hret, ne_eq, not_true_eq_false, if_false,
    Option.getD_some, Option.some.injEq, Prod.mk.injEq] at hstep
  rcases hstep with ⟨rfl, rfl⟩
  exact ⟨⟨hcalls, by omega⟩, fun r => Stage.noConfusion⟩

/-- A statement of the script before the history row is saved. -/
theorem sure_reopening (happlied : Applied w₁.db) {row : MessageRow} {r : Response}
    {left : Option Nat} {rest : List (Stmt serverSchema)} (hrest : ∀ s ∈ rest, s ∈ createDatabase)
    (hsure : Sure w₁.db request w (.reopening row r left rest))
    (hstep : handleStep w₁ ⟨request, path, .reopening row r left rest⟩ = some (w₂, h')) :
    Next w w₁ ⟨request, path, .reopening row r left rest⟩ w₂ h' := by
  rcases hsure with ⟨rfl, hsure⟩
  simp only [handleStep] at hstep
  rcases scriptStep_none happlied (.answering r) (.saving row r) (.reopening row r) hrest with
    hopened | ⟨rest', hscript⟩
  · rw [hopened, Option.some.injEq, Prod.mk.injEq] at hstep
    rcases hstep with ⟨rfl, rfl⟩
    exact ⟨hsure, fun r => Stage.noConfusion⟩
  · rw [hscript, Option.some.injEq, Prod.mk.injEq] at hstep
    rcases hstep with ⟨rfl, rfl⟩
    exact ⟨⟨rfl, hsure⟩, fun r => Stage.noConfusion⟩

/-- The `INSERT` of the history row goes in. -/
theorem sure_saving (hfaultless : Faultless request) (happlied : Applied w₁.db) {row : MessageRow}
    {r : Response} (hids : Db.seq (S := serverSchema) w₁.db .message < maxRowid)
    (hrow : PeerId w₁.db request row.connectionId)
    (hsure : Sure w₁.db request w (.saving row r))
    (hstep : handleStep w₁ ⟨request, path, .saving row r⟩ = some (w₂, h')) :
    Next w w₁ ⟨request, path, .saving row r⟩ w₂ h' := by
  rcases hsure with ⟨hseeded, hgives, hwrites⟩
  have hfault : request.messageFault = .none := hfaultless.message
  rcases insertMessage_isSome happlied.scripted hseeded ⟨_, hfaultless.peerId hrow⟩ hids with
    ⟨db', id, hins⟩
  have hret : messageInsert MessageFault.none.insert w₁.db row.connectionId row.messageStatusId
      row.messageTypeId row.directionId row.response row.sendingTime row.request
        = ⟨0, some id, db'⟩ := by
    rw [messageInsert_eq, insertRow, MessageFault.none, row.bound_none, StmtFault.none,
      if_neg Bool.false_ne_true, if_neg Bool.false_ne_true, hins]
  simp only [handleStep, hfault, hret, Option.some.injEq, Prod.mk.injEq] at hstep
  rcases hstep with ⟨rfl, rfl⟩
  refine ⟨hgives, fun r' hr' => Or.inl ⟨row, id, ?_, hins⟩⟩
  rw [Stage.answering.injEq] at hr'
  rw [hr']

end Stages

/-- A step of a worker whose peer is in nobody else's way, with an id left for what
    it inserts. -/
theorem sure_step (hroomy : Roomy (n + 1) w.db) {w₂ : World} {h h' : Handling}
    (hfaultless : Faultless h.request) (happlied : Applied w₁.db)
    (hpeers : ∀ c ∈ connections w₁.db, ∃ addr, c.2 = incomingPeer addr)
    (hconnIds : h.stage = .inserting → Db.seq (S := serverSchema) w₁.db .connection < maxRowid)
    (hrowIds : ∀ row r, h.stage = .saving row r →
      Db.seq (S := serverSchema) w₁.db .message < maxRowid)
    (hinformed : Informed w₁.db h.request h.stage) (hsure : Sure w₁.db h.request w h.stage)
    (hstep : handleStep w₁ h = some (w₂, h')) : Next w w₁ h w₂ h' := by
  rcases h with ⟨request, path, stage⟩
  cases stage with
  | start =>
      rw [handleStep, Option.some.injEq, Prod.mk.injEq] at hstep
      rcases hstep with ⟨rfl, rfl⟩
      exact sure_begin request path hfaultless
  | parsing fault req seen parts form => exact sure_parsing hfaultless hsure hstep
  | opening left rest => exact sure_opening happlied hinformed hsure hstep
  | selecting => exact sure_selecting hfaultless hsure hstep
  | inserting => exact sure_inserting hfaultless happlied hpeers (hconnIds rfl) hsure hstep
  | connected connectionId =>
      exact (@sure_connected _ _ w₁ hroomy ⟨request, path, .connected connectionId⟩ hfaultless _
        hsure.1 hsure.2).of_eq (Option.some.inj hstep)
  | reopening row r left rest => exact sure_reopening happlied hinformed.1 hsure hstep
  | saving row r =>
      exact sure_saving hfaultless happlied (hrowIds row r rfl) hinformed.2.1 hsure hstep
  | answering r =>
      rw [handleStep, Option.some.injEq, Prod.mk.injEq] at hstep
      rcases hstep with ⟨rfl, rfl⟩
      exact ⟨hsure, fun r => Stage.noConfusion⟩
  | done r => simp only [handleStep, reduceCtorEq] at hstep

end Step

/-- The workers that made their peers' rows, each of which used up one id. -/
def Owned {n : Nat} (requests : Fin n → PostRequest) (w : World) (db : Database) : Prop :=
  ∃ owners : List (Fin n), owners.Nodup ∧
    Db.seq (S := serverSchema) db .connection
      = Db.seq (S := serverSchema) w.db .connection + owners.length ∧
    ∀ i ∈ owners, Known db (requests i).remoteAddr

/-- The workers that wrote a row of the history, each of which used up one id: those
    that are past it and would write one alone. -/
def RowsWritten {n : Nat} (requests : Fin n → PostRequest) (w : World)
    (c : Config n World Handling) : Prop :=
  ∃ (writers : List (Fin n)) (rows : List (Int × MessageRow)), writers.Nodup ∧
    messages c.shared.db = messages w.db ++ rows ∧ List.Forall₂ (Recorded c) writers rows ∧
    Db.seq (S := serverSchema) c.shared.db .message
      = Db.seq (S := serverSchema) w.db .message + writers.length ∧
    (∀ i ∈ writers, Writes (requests i) w) ∧
    ∀ i r, (c.workers i).stage = .answering r ∨ (c.workers i).stage = .done r →
      Writes (requests i) w → i ∈ writers

/-- What holds in every state of every interleaving of requests from different
    addresses. -/
structure Undisturbed {n : Nat} (requests : Fin n → PostRequest) (w : World)
    (c : Config n World Handling) : Prop where
  serving : Serving requests w c
  sure : ∀ i, Sure c.shared.db (requests i) w (c.workers i).stage
  owners : Owned requests w c.shared.db
  writers : RowsWritten requests w c

/-- A list without repetition that leaves a worker out is shorter than there are
    workers. -/
theorem length_lt_of_nodup {n : Nat} {l : List (Fin n)} {i : Fin n} (h : l.Nodup) (hi : i ∉ l) :
    l.length < n := by
  have hcons := (List.nodup_cons.mpr ⟨hi, h⟩).length_le_card
  rw [Fintype.card_fin, List.length_cons] at hcons
  omega

section Run

variable {n : Nat} {requests : Fin n → PostRequest} {w : World}

/-- Without faults every connection is some peer's. -/
theorem Serving.peers_of_faultless {c : Config n World Handling} (h : Serving requests w c)
    (hpeers : ∀ p ∈ connections w.db, ∃ addr, p.2 = incomingPeer addr)
    (hfaultless : ∀ i, Faultless (requests i)) :
    ∀ p ∈ connections c.shared.db, ∃ addr, p.2 = incomingPeer addr := by
  rcases h.peers with ⟨new, hnew, hpeer⟩
  intro p hp
  rw [hnew] at hp
  rcases List.mem_append.mp hp with hp | hp
  · exact hpeers p hp
  · rcases hpeer p hp with ⟨j, hj⟩
    rw [(hfaultless j).connection, boundPeer_of_bound rfl] at hj
    exact ⟨_, hj⟩

/-- A worker that inserts its peer has none yet, so an id is left for it. -/
theorem Undisturbed.connectionIds {c : Config n World Handling} (h : Undisturbed requests w c)
    (hroomy : Roomy n w.db) {i : Fin n} (hstage : (c.workers i).stage = .inserting) :
    Db.seq (S := serverSchema) c.shared.db .connection < maxRowid := by
  rcases h.owners with ⟨owners, hnodup, hseq, howners⟩
  have hsure := h.sure i
  rw [hstage] at hsure
  have hless := length_lt_of_nodup hnodup fun hi => hsure.2 (howners i hi)
  have hroom := hroomy.connectionIds
  omega

/-- A worker that saves its row has none in the history yet, so an id is left for it. -/
theorem Undisturbed.messageIds {c : Config n World Handling} (h : Undisturbed requests w c)
    (hroomy : Roomy n w.db) {i : Fin n} {row : MessageRow} {r : Response}
    (hstage : (c.workers i).stage = .saving row r) :
    Db.seq (S := serverSchema) c.shared.db .message < maxRowid := by
  rcases h.writers with ⟨writers, rows, hnodup, _, hrecorded, hseq, _⟩
  have hless : writers.length < n := by
    refine length_lt_of_nodup (i := i) hnodup fun hi => ?_
    rcases Recorded.past hrecorded hi with ⟨r', hpast⟩
    simp only [hstage, reduceCtorEq, or_self] at hpast
  have hroom := hroomy.messageIds
  omega

/-- The worker that takes a step stays sure. -/
theorem Undisturbed.next {c c' : Config n World Handling} {i : Fin n}
    (h : Undisturbed requests w c) (hroomy : Roomy n w.db)
    (hfaultless : ∀ i, Faultless (requests i)) (hstep : step handleStep c i = some c') :
    Next w c.shared (c.workers i) c'.shared (c'.workers i) := by
  have hrequest := h.serving.request i
  have hpeers := h.serving.peers_of_faultless hroomy.peers hfaultless
  rcases step_eq_some hstep with ⟨h', hact, hworkers⟩
  rw [hworkers, Function.update_self]
  cases n with
  | zero => exact i.elim0
  | succ k =>
      exact sure_step hroomy (hrequest ▸ hfaultless i) h.serving.applied hpeers
        (fun hstage => h.connectionIds hroomy hstage)
        (fun row r hstage => h.messageIds hroomy hstage) (h.serving.informed i)
        (hrequest ▸ h.sure i) hact

/-- A step makes no peer known but its own. -/
theorem Moves.known_of_ne {c c' : Config n World Handling} {i : Fin n} (h : Moves c i c')
    (hfaultless : Faultless (c.workers i).request) {addr : CStr}
    (hne : addr ≠ (c.workers i).request.remoteAddr) (hknown : Known c'.shared.db addr) :
    Known c.shared.db addr := by
  rcases hknown with ⟨p, hp, hrow⟩
  rcases h.connections with ⟨new, hnew, hpeer⟩
  rw [hnew] at hp
  rcases List.mem_append.mp hp with hp | hp
  · exact ⟨p, hp, hrow⟩
  · have hbound := hpeer p hp
    rw [hfaultless.connection, boundPeer_of_bound rfl] at hbound
    exact absurd (incomingPeer_inj (hrow.symm.trans hbound)) hne

/-- And forgets none. -/
theorem Moves.known {c c' : Config n World Handling} {i : Fin n} (h : Moves c i c') {addr : CStr}
    (hknown : Known c.shared.db addr) : Known c'.shared.db addr := by
  rcases hknown with ⟨p, hp, hrow⟩
  exact ⟨p, h.kept p hp, hrow⟩

/-- Only the insertion of a peer makes an owner. -/
theorem Moves.owned {c c' : Config n World Handling} {i : Fin n} (h : Moves c i c')
    (hrequest : (c.workers i).request = requests i) (hfaultless : Faultless (requests i))
    (hsure : Sure c.shared.db (requests i) w (c.workers i).stage)
    (howned : Owned requests w c.shared.db) : Owned requests w c'.shared.db := by
  rcases howned with ⟨owners, hnodup, hseq, howners⟩
  have hsame : Db.seq (S := serverSchema) c'.shared.db .connection
      = Db.seq (S := serverSchema) c.shared.db .connection →
      Owned requests w c'.shared.db := fun heq =>
    ⟨owners, hnodup, heq.trans hseq, fun j hj => h.known (howners j hj)⟩
  cases h.effect with
  | quiet hdb => exact hsame (by rw [hdb])
  | row row r id hins => exact hsame (seq_insert_of_ne hins (by decide))
  | response r hworld => exact hsame (by rw [hworld]; rfl)
  | peer id hins _ hbefore =>
      rw [hbefore] at hsure
      have hmore : Db.seq (S := serverSchema) c'.shared.db .connection
          = Db.seq (S := serverSchema) c.shared.db .connection + 1 := seq_insert hins
      have hnew := (connections_insertBound hins).1
      rw [hrequest, hfaultless.connection, boundPeer_of_bound rfl] at hnew
      refine ⟨i :: owners, List.nodup_cons.mpr ⟨fun hi => hsure.2 (howners i hi), hnodup⟩, ?_,
        fun j hj => ?_⟩
      · rw [hmore, hseq, List.length_cons]
        omega
      · rcases List.mem_cons.mp hj with rfl | hj
        · refine ⟨(id, incomingPeer (requests j).remoteAddr), ?_, rfl⟩
          rw [hnew]
          exact List.mem_append_right _ (List.mem_singleton.mpr rfl)
        · exact h.known (howners j hj)

/-- Only the insertion of a row makes a writer, and it is one that has a row to
    write. -/
theorem Moves.written {c c' : Config n World Handling} {i : Fin n} (h : Moves c i c')
    (hrequest : (c.workers i).request = requests i)
    (hinformed : Informed c.shared.db (c.workers i).request (c.workers i).stage)
    (hsure : Sure c.shared.db (requests i) w (c.workers i).stage)
    (hnext : Next w c.shared (c.workers i) c'.shared (c'.workers i))
    (hwritten : RowsWritten requests w c) : RowsWritten requests w c' := by
  rcases hwritten with ⟨writers, rows, hnodup, hrows, hrecorded, hseq, hwriters, hwrite⟩
  have hkept : List.Forall₂ (Recorded c') writers rows :=
    hrecorded.imp fun j m hm => hm.moves h
  have hsame : messages c'.shared.db = messages c.shared.db →
      Db.seq (S := serverSchema) c'.shared.db .message
        = Db.seq (S := serverSchema) c.shared.db .message →
      (∀ r, (c'.workers i).stage = .answering r ∨ (c'.workers i).stage = .done r →
        Writes (requests i) w → i ∈ writers) → RowsWritten requests w c' := by
    intro heq heqIds hself
    refine ⟨writers, rows, hnodup, heq.trans hrows, hkept, heqIds.trans hseq, hwriters,
      fun j r hj => ?_⟩
    by_cases hji : j = i
    · subst hji
      exact hself r hj
    · rw [h.others j hji] at hj
      exact hwrite j r hj
  cases h.effect with
  | quiet hdb _ hbefore hafter =>
      refine hsame (by rw [hdb]) (by rw [hdb]) fun r hr hwrites => ?_
      -- It answers without a row to save: it would have changed the database.
      rcases hr with hr | hr
      · rcases hnext.2 r hr with ⟨row, id, _, hins⟩ | hno
        · have hmore := seq_insert hins
          rw [hdb] at hmore
          omega
        · rw [hrequest] at hno
          exact absurd hwrites hno
      · exact absurd hr (hafter r)
  | peer id hins _ _ hafter =>
      refine hsame (rows_insert_of_ne hins (by decide)) (seq_insert_of_ne hins (by decide))
        fun r hr => ?_
      simp only [hafter, reduceCtorEq, or_self] at hr
  | response r hworld hbefore hafter =>
      refine hsame (by rw [hworld]; rfl) (by rw [hworld]; rfl) fun r' hr' hwrites => ?_
      exact hwrite i r (Or.inl hbefore) hwrites
  | row row r id hins _ hbefore hafter =>
      rw [hbefore] at hsure hinformed
      have hfresh : i ∉ writers := by
        intro hi
        rcases Recorded.past hrecorded hi with ⟨r', hpast⟩
        simp only [hbefore, reduceCtorEq, or_self] at hpast
      have hmessages : messages c'.shared.db = messages c.shared.db ++
          [(id, row.bound (c.workers i).request.messageFault.insert)] := rows_insert hins
      refine ⟨writers ++ [i], rows ++ [(id, row.bound (c.workers i).request.messageFault.insert)],
        ?_, ?_, ?_, ?_, fun j hj => ?_, fun j r' hj hwrites => ?_⟩
      · refine hnodup.append (List.nodup_singleton i) ?_
        rw [List.disjoint_singleton]
        exact hfresh
      · rw [hmessages, hrows, List.append_assoc]
      · exact List.rel_append hkept (.cons (h.recorded id hinformed hafter) .nil)
      · rw [seq_insert hins, hseq, List.length_append, List.length_singleton]
        omega
      · rcases List.mem_append.mp hj with hj | hj
        · exact hwriters j hj
        · rw [List.mem_singleton.mp hj]
          exact hsure.2.2
      · by_cases hji : j = i
        · rw [hji]
          exact List.mem_append_right _ (List.mem_singleton.mpr rfl)
        · rw [h.others j hji] at hj
          exact List.mem_append_left _ (hwrite j r' hj hwrites)

/-- One step keeps the invariant. -/
theorem undisturbed_step (hroomy : Roomy n w.db) (hfaultless : ∀ i, Faultless (requests i))
    (haddrs : Function.Injective fun i => (requests i).remoteAddr) (c : Config n World Handling)
    (i : Fin n) (c' : Config n World Handling) (h : Undisturbed requests w c)
    (hstep : step handleStep c i = some c') : Undisturbed requests w c' := by
  have hmoves := moves_of_step h.serving.applied (h.serving.informed i) hstep
  have hrequest := h.serving.request i
  have hnext := h.next hroomy hfaultless hstep
  refine ⟨serving_step c i c' h.serving hstep, fun j => ?_,
    hmoves.owned hrequest (hfaultless i) (h.sure i) h.owners,
    hmoves.written hrequest (h.serving.informed i) (h.sure i) hnext h.writers⟩
  by_cases hj : j = i
  · subst hj
    have hsure := hnext.1
    rw [hrequest] at hsure
    exact hsure
  · rw [hmoves.others j hj]
    refine (h.sure j).mono fun hknown => hmoves.known_of_ne (hrequest ▸ hfaultless i) ?_ hknown
    rw [hrequest]
    exact fun heq => hj (haddrs heq)

theorem undisturbed_start (hroomy : Roomy n w.db) : Undisturbed requests w (serve requests w) where
  serving := serving_start requests hroomy.applied
  sure := fun _ => trivial
  owners := ⟨[], List.nodup_nil, (Int.add_zero _).symm, fun i hi => absurd hi List.not_mem_nil⟩
  writers := ⟨[], [], List.nodup_nil, (List.append_nil _).symm, .nil, (Int.add_zero _).symm,
    fun i hi => absurd hi List.not_mem_nil, fun i r h => by
      simp only [serve, Handling.initial, reduceCtorEq, or_self] at h⟩

/-- A run keeps it. -/
theorem undisturbed_run (hroomy : Roomy n w.db) (hfaultless : ∀ i, Faultless (requests i))
    (haddrs : Function.Injective fun i => (requests i).remoteAddr) {schedule : List (Fin n)}
    {c : Config n World Handling}
    (hrun : run handleStep (serve requests w) schedule = some c) : Undisturbed requests w c :=
  run_invariant (Undisturbed requests w) (undisturbed_step hroomy hfaultless haddrs) schedule _ c
    (undisturbed_start hroomy) hrun

end Run

end Server

end SendingSystem
