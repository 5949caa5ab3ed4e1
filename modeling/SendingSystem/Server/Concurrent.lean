import Mathlib.Logic.Relation
import SendingSystem.Lib.Schedule
import SendingSystem.Server.Peers

/-!
# Concurrent requests

Any number of worker threads, each handling one request to either endpoint, over
one database file and one directory. A step is what a worker does between two
points where another can get in: a part of a form, a statement of the schema
script that every `database_open` runs again, the `SELECT` and the `INSERT` of
the peer, the `INSERT` of the history row, the response. Nothing holds a
transaction open across two of them. What the system fails comes with the
requests, and a worker that is scheduled no more was killed there, so a statement
about every schedule is about every crash too. A file is written in one step; how
two writes of one file mix is another matter.

## Main definitions

* `Stage`, `Handling`: Where a worker is, and the request it handles.
* `handleStep`: Its next step.
* `serve`: Workers about to handle their requests.
* `PeerId`: The id is that of a row for the peer of a request.
* `Effect`: What one step can do to what the workers share.
* `Recorded`, `Serving`: What holds in every state of every interleaving.

## Theorems

* `solo_handle`, `handle_alone`: A worker left alone computes its handler.
* `Takes.quiet`, `start_takes`, `parsing_takes`, `opening_takes`, `selecting_takes`,
  `inserting_takes`, `reopening_takes`, `saving_takes`: The step of a stage.
* `handleStep_takes`: Every step has one of the effects.
* `serving_step`, `serving_run`: One step and a run keep the invariant.
* `concurrent_history`: The history, the peers and the answers of any interleaving.
-/

namespace SendingSystem

namespace Server

open CString CJson Schedule

/-- Where a worker is in the handling of its request. `left` and `rest` are what is
    left of the schema script, and when the system fails it. The stages past the
    delivery carry the row to save and the response to send. -/
inductive Stage where
  | start
  | parsing (fault : UploadFault) (req : UploadRequest) (seen : Nat) (parts : List Part)
      (form : FormState)
  | opening (left : Option Nat) (rest : List (Stmt serverSchema))
  | selecting
  | inserting
  | connected (connectionId : Int)
  | reopening (row : MessageRow) (r : Response) (left : Option Nat)
      (rest : List (Stmt serverSchema))
  | saving (row : MessageRow) (r : Response)
  | answering (r : Response)
  | done (r : Response)

/-- A worker: its request, `u.path` once the form was handled, and where it is. -/
structure Handling where
  request : PostRequest
  path : List UInt8
  stage : Stage

/-- `database_open` up to the script: `failed`, or the script is next. -/
def openStage (fault : OpenFault) (failed : Stage)
    (script : Option Nat → List (Stmt serverSchema) → Stage) : Stage :=
  if fault.sqlite3Open then failed
  else if fault.readFile then failed
  else script fault.exec createDatabase

/-- The next statement of the script; past the last one it is `opened`. -/
def scriptStep (db : Database) (failed opened : Stage)
    (script : Option Nat → List (Stmt serverSchema) → Stage) :
    Option Nat → List (Stmt serverSchema) → Database × Stage
  | _, [] => (db, opened)
  | some 0, _ :: _ => (db, failed)
  | left, s :: rest =>
    match s.exec db with
    | none => (db, failed)
    | some db' => (db', script (left.map (· - 1)) rest)

/-- The handlers up to their first shared access. -/
def beginStage : PostRequest → Stage
  | .send _ fault req =>
    if req.method ≠ .lit "POST" then
      .answering (httpSendError fault.build 405 (.lit "POST required"))
    else openStage fault.connection.opening (.connected (-1)) .opening
  | .upload fault req =>
    if req.method ≠ .lit "POST" then
      .answering (httpSendError fault.build 405 (.lit "POST required"))
    else .parsing fault req 0 req.parts (FormState.initial fun _ => none)

/-- The upload handler after the form: the close, the two checks, `save_connection`. -/
def formStage (fault : UploadFault) (fields : Int) (u : UploadCtx) : Stage :=
  if fields < 0 then .answering (httpSendError fault.build 400 (.lit "Form parse error"))
  else if u.path = [] then .answering (httpSendError fault.build 400 (.lit "No file part"))
  else openStage fault.connection.opening (.connected (-1)) .opening

/-- The form is through. -/
def endForm (w : World) (h : Handling) (fault : UploadFault) (fields : Int) (form : FormState) :
    World × Handling :=
  ({ w with files := form.close.files },
    { h with path := form.close.ctx.path, stage := formStage fault fields form.close.ctx })

/-- The response of a request to `/api/send` that passed the checks. -/
def sendResponse (fault : SendFault) (files : Files) (accepted : SendAccepted) : Response :=
  let delivered := deliver fault files accepted
  httpSendBuiltJson delivered.2.1 (httpBuildJson fault.build delivered.2.2.1 delivered.2.2.2)

/-- The response of an upload. -/
def uploadResponse (fault : UploadFault) : Response :=
  httpSendBuiltJson 200 (httpBuildJson fault.build (.lit "message") (.lit "File(s) received"))

/-- The handlers after `save_connection`, up to the `database_open` of `save_message`. -/
def connectedStep (w : World) (h : Handling) (connectionId : Int) : World × Handling :=
  match h.request with
  | .send parse fault req =>
    match readRequest parse fault.malloc req with
    | .error (status, msg) =>
      (w, { h with stage := .answering (httpSendError fault.build status msg) })
    | .ok accepted =>
      let row := sendRow fault w.files connectionId accepted
      let answer := sendResponse fault w.files accepted
      -- Without a row for the peer there is no history row.
      let stage :=
        if connectionId ≠ -1 then
          openStage fault.message.opening (.answering answer) (.reopening row answer)
        else .answering answer
      ({ w with files := (deliver fault w.files accepted).1 }, { h with stage := stage })
  | .upload fault _ =>
    if connectionId = -1 then
      (w, { h with stage := .answering (httpSendError fault.build 500 (.lit "Data base error")) })
    else
      let row := uploadRow fault connectionId h.path
      let answer := uploadResponse fault
      let stage := openStage fault.message.opening (.answering answer) (.reopening row answer)
      (w, { h with stage := stage })

/-- A worker's next step. -/
def handleStep (w : World) (h : Handling) : Option (World × Handling) :=
  match h.stage with
  | .start => some (w, { h with stage := beginStage h.request })
  | .parsing fault req seen [] form =>
    some (endForm w h fault (if req.malformed then -1 else seen) { form with files := w.files })
  | .parsing fault req seen (part :: parts) form =>
    match handlePart fault.regcomp fault.pathlen part { form with files := w.files } with
    | (true, form) => some (endForm w h fault seen form)
    | (false, form) =>
      some ({ w with files := form.files },
        { h with stage := .parsing fault req (seen + 1) parts form })
  | .opening left rest =>
    let r := scriptStep w.db (.connected (-1)) .selecting .opening left rest
    some ({ w with db := r.1 }, { h with stage := r.2 })
  | .selecting =>
    if h.request.connectionFault.find.prepare then some (w, { h with stage := .connected (-1) })
    else
      let id := connectionFind h.request.connectionFault.find w.db (some h.request.remoteAddr)
        connectionPort sslEncrypt incomingPeerRole.id
      some (w, { h with stage := if 0 ≤ id then .connected id else .inserting })
  | .inserting =>
    let r := connectionInsert h.request.connectionFault.insert w.db (some h.request.remoteAddr)
      connectionPort sslEncrypt incomingPeerRole.id
    some ({ w with db := r.db },
      { h with stage := .connected (if r.ret ≠ 0 then -1 else r.outId.getD (-1)) })
  | .connected connectionId => some (connectedStep w h connectionId)
  | .reopening row r left rest =>
    let s := scriptStep w.db (.answering r) (.saving row r) (.reopening row r) left rest
    some ({ w with db := s.1 }, { h with stage := s.2 })
  | .saving row r =>
    let s := messageInsert h.request.messageFault.insert w.db row.connectionId row.messageStatusId
      row.messageTypeId row.directionId row.response row.sendingTime row.request
    some ({ w with db := s.db }, { h with stage := .answering r })
  | .answering r => some (w.send r, { h with stage := .done r })
  | .done _ => none

/-- A request nothing was done for yet. -/
def Handling.initial (request : PostRequest) : Handling := ⟨request, [], .start⟩

/-- Workers about to handle their requests. -/
def serve {n : Nat} (requests : Fin n → PostRequest) (w : World) : Config n World Handling :=
  ⟨w, fun i => .initial (requests i)⟩

/-- A worker's steps while no other takes one. -/
abbrev Alone (w : World) (h : Handling) (w' : World) (h' : Handling) : Prop :=
  Solo handleStep (w, h) (w', h')

theorem Alone.step {w w' : World} {h h' : Handling} (hstep : handleStep w h = some (w', h')) :
    Alone w h w' h' := Relation.ReflTransGen.single hstep

/-- A worker left alone runs the script to its end or to where it fails. -/
theorem alone_script {failed opened : Stage}
    {script : Option Nat → List (Stmt serverSchema) → Stage} {h : Handling}
    (hscript : ∀ (w : World) (left : Option Nat) (rest : List (Stmt serverSchema)),
      handleStep w { h with stage := script left rest }
        = some ({ w with db := (scriptStep w.db failed opened script left rest).1 },
          { h with stage := (scriptStep w.db failed opened script left rest).2 })) :
    ∀ (rest : List (Stmt serverSchema)) (left : Option Nat) (w : World),
      Alone w { h with stage := script left rest } { w with db := (execScript left rest w.db).2 }
        { h with stage := if (execScript left rest w.db).1 then opened else failed } := by
  intro rest
  induction rest with
  | nil =>
      intro left w
      have hstep := hscript w left []
      cases left <;> exact Alone.step hstep
  | cons s rest ih =>
      intro left w
      have hstep := hscript w left (s :: rest)
      rcases hs : s.exec w.db with _ | db'
      · rcases left with _ | _ | k <;>
          · simp only [scriptStep, hs] at hstep
            simp only [execScript, hs]
            exact Alone.step hstep
      · rcases left with _ | _ | k
        · simp only [scriptStep, hs] at hstep
          simp only [execScript, hs]
          exact Relation.ReflTransGen.head hstep (ih _ { w with db := db' })
        · simp only [scriptStep] at hstep
          simp only [execScript]
          exact Alone.step hstep
        · simp only [scriptStep, hs] at hstep
          simp only [execScript, hs]
          exact Relation.ReflTransGen.head hstep (ih _ { w with db := db' })

/-- A worker left alone opens the database as `database_open` does. -/
theorem alone_open (failed opened : Stage)
    (script : Option Nat → List (Stmt serverSchema) → Stage) {h : Handling}
    (hscript : ∀ (w : World) (left : Option Nat) (rest : List (Stmt serverSchema)),
      handleStep w { h with stage := script left rest }
        = some ({ w with db := (scriptStep w.db failed opened script left rest).1 },
          { h with stage := (scriptStep w.db failed opened script left rest).2 }))
    (fault : OpenFault) (w : World) :
    Alone w { h with stage := openStage fault failed script }
      { w with db := (databaseOpen fault w.db).2 }
      { h with stage := if (databaseOpen fault w.db).1 = -1 then failed else opened } := by
  unfold openStage databaseOpen
  by_cases hopen : fault.sqlite3Open = true
  · rw [if_pos hopen, if_pos hopen]
    exact Relation.ReflTransGen.refl
  · rw [if_neg hopen, if_neg hopen]
    by_cases hread : fault.readFile = true
    · rw [if_pos hread, if_pos hread]
      exact Relation.ReflTransGen.refl
    · rw [if_neg hread, if_neg hread]
      have hrun := alone_script hscript createDatabase fault.exec w
      rcases hexec : execScript fault.exec createDatabase w.db with ⟨ok, db'⟩
      rw [hexec] at hrun
      cases ok <;> exact hrun

/-- `save_connection` hands on what `connection_get_or_create` returns. -/
theorem saveConnection_opened {fault : ConnectionFault} {db : Database} (addr : CStr)
    (h : ¬ (databaseOpen fault.opening db).1 = -1) :
    saveConnection fault db addr = connectionGetOrCreate fault.find fault.insert
      (databaseOpen fault.opening db).2 (some addr) connectionPort sslEncrypt
      incomingPeerRole.id := by
  unfold saveConnection
  simp only [h, if_false]
  split
  · next hnone => exact Prod.ext hnone.symm rfl
  · rfl

/-- A worker left alone computes `save_connection`. -/
theorem alone_connection (w : World) (h : Handling) :
    Alone w
      { h with stage :=
          openStage h.request.connectionFault.opening (.connected (-1)) .opening }
      { w with db := (h.request.peer w).2 }
      { h with stage := .connected (h.request.peer w).1 } := by
  have hopen := alone_open (h := h) (.connected (-1)) .selecting .opening (fun _ _ _ => rfl)
    h.request.connectionFault.opening w
  refine hopen.trans ?_
  unfold PostRequest.peer
  by_cases hfail : (databaseOpen h.request.connectionFault.opening w.db).1 = -1
  · simp only [saveConnection, hfail, if_true]
    exact Relation.ReflTransGen.refl
  · rw [if_neg hfail, saveConnection_opened h.request.remoteAddr hfail]
    generalize (databaseOpen h.request.connectionFault.opening w.db).2 = db
    unfold connectionGetOrCreate
    by_cases hprepare : h.request.connectionFault.find.prepare = true
    · rw [if_pos hprepare]
      refine Alone.step ?_
      simp only [handleStep, hprepare, if_true]
    · rw [if_neg hprepare]
      simp only
      generalize hid : connectionFind h.request.connectionFault.find db
        (some h.request.remoteAddr) connectionPort sslEncrypt incomingPeerRole.id = id
      have hselect : handleStep { w with db := db } { h with stage := .selecting }
          = some ({ w with db := db },
            { h with stage := if 0 ≤ id then .connected id else .inserting }) := by
        simp only [handleStep, hprepare, Bool.false_eq_true, if_false, hid]
      refine Relation.ReflTransGen.head hselect ?_
      by_cases hfound : 0 ≤ id
      · simp only [hfound, if_true]
        exact Relation.ReflTransGen.refl
      -- Only `-1` is negative among what the `SELECT` can leave.
      · have hmiss : id = -1 := by
          rcases connectionFind_cases h.request.connectionFault.find db
            (some h.request.remoteAddr) connectionPort sslEncrypt incomingPeerRole.id with
              hm | ⟨r, _, hm, hpos, _⟩
          · rw [← hid, hm]
          · omega
        have hneg : ¬ (0 : Int) ≤ -1 := by decide
        simp only [hmiss, hneg, if_false]
        refine Alone.step ?_
        simp only [handleStep]
        generalize connectionInsert h.request.connectionFault.insert db (some h.request.remoteAddr)
          connectionPort sslEncrypt incomingPeerRole.id = r
        by_cases hret : r.ret ≠ 0
        · rw [if_pos hret, if_pos hret]
        · rw [if_neg hret, if_neg hret]

/-- A worker left alone computes `save_message`. -/
theorem alone_message (w : World) (h : Handling) (row : MessageRow) (r : Response) :
    Alone w
      { h with stage :=
          openStage h.request.messageFault.opening (.answering r) (.reopening row r) }
      { w with db := (saveMessage h.request.messageFault w.db row).2 }
      { h with stage := .answering r } := by
  have hopen := alone_open (h := h) (.answering r) (.saving row r) (.reopening row r)
    (fun _ _ _ => rfl) h.request.messageFault.opening w
  refine hopen.trans ?_
  unfold saveMessage
  by_cases hfail : (databaseOpen h.request.messageFault.opening w.db).1 = -1
  · simp only [hfail, if_true]
    exact Relation.ReflTransGen.refl
  · simp only [hfail, if_false]
    refine Alone.step ?_
    simp only [handleStep]
    split <;> rfl

/-- A worker left alone handles the form as the parser does. -/
theorem alone_form (fault : UploadFault) (req : UploadRequest) (h : Handling) :
    ∀ (parts : List Part) (seen : Nat) (w : World) (form : FormState),
      Alone w { h with stage := .parsing fault req seen parts form }
        (endForm w h fault
          (handleFormRequest fault.regcomp fault.pathlen req.malformed parts seen
            { form with files := w.files }).1
          (handleFormRequest fault.regcomp fault.pathlen req.malformed parts seen
            { form with files := w.files }).2).1
        (endForm w h fault
          (handleFormRequest fault.regcomp fault.pathlen req.malformed parts seen
            { form with files := w.files }).1
          (handleFormRequest fault.regcomp fault.pathlen req.malformed parts seen
            { form with files := w.files }).2).2 := by
  intro parts
  induction parts with
  | nil =>
      intro seen w form
      exact Alone.step rfl
  | cons part parts ih =>
      intro seen w form
      unfold handleFormRequest
      rcases hpart : handlePart fault.regcomp fault.pathlen part { form with files := w.files }
        with ⟨stops, form'⟩
      cases stops with
      | true =>
          refine Alone.step ?_
          simp only [handleStep, hpart]
          rfl
      | false =>
          -- The parser goes on from the files as it left them.
          have hstep : handleStep w { h with stage := .parsing fault req seen (part :: parts) form }
              = some ({ w with files := form'.files },
                { h with stage := .parsing fault req (seen + 1) parts form' }) := by
            simp only [handleStep, hpart]
          exact Relation.ReflTransGen.head hstep
            (ih (seen + 1) { w with files := form'.files } form')

/-- The response is the last step. -/
theorem Alone.answered {w w' : World} {h : Handling} {request : PostRequest} {path : List UInt8}
    {r : Response} (halone : Alone w h w' ⟨request, path, .answering r⟩) :
    Alone w h (w'.send r) ⟨request, path, .done r⟩ := halone.tail rfl

/-- A worker left alone handles a `POST` to `/api/send`. -/
theorem alone_send (parse : CStr → Option CJson) (fault : SendFault) (req : SendRequest)
    (w : World) :
    ∃ r, Alone w (.initial (.send parse fault req)) (apiSendHandler parse fault req w)
      ⟨.send parse fault req, [], .done r⟩ := by
  have hbegin : Alone w (.initial (.send parse fault req)) w
      ⟨.send parse fault req, [], beginStage (.send parse fault req)⟩ := Alone.step rfl
  by_cases hmethod : req.method = .lit "POST"
  · simp only [beginStage, hmethod, ne_eq, not_true_eq_false, if_false] at hbegin
    -- The peer's row comes first, and then the checks of the request.
    have hconnected := hbegin.trans (alone_connection w ⟨.send parse fault req, [], .start⟩)
    simp only [PostRequest.peer, PostRequest.connectionFault, PostRequest.remoteAddr]
      at hconnected
    cases hread : readRequest parse fault.malloc req with
    | error e =>
        rcases e with ⟨status, msg⟩
        rw [apiSendHandler_rejected parse fault req w hmethod hread]
        refine ⟨httpSendError fault.build status msg, Alone.answered (hconnected.tail ?_)⟩
        simp only [handleStep, connectedStep, hread]
    | ok accepted =>
        rw [apiSendHandler_accepted parse fault req w hmethod hread]
        generalize saveConnection fault.connection w.db req.remoteAddr = connection at *
        unfold answerSend
        refine ⟨_, Alone.answered (hconnected.trans ?_)⟩
        by_cases hid : connection.1 ≠ -1
        · rw [if_pos hid]
          have hstep : handleStep { w with db := connection.2 }
              ⟨.send parse fault req, [], .connected connection.1⟩
              = some ({ w with db := connection.2, files := (deliver fault w.files accepted).1 },
                ⟨.send parse fault req, [], openStage fault.message.opening
                  (.answering (sendResponse fault w.files accepted))
                  (.reopening (sendRow fault w.files connection.1 accepted)
                    (sendResponse fault w.files accepted))⟩) := by
            simp only [handleStep, connectedStep, hread]
            rw [if_pos hid]
          refine Relation.ReflTransGen.head hstep ?_
          exact alone_message
            { w with db := connection.2, files := (deliver fault w.files accepted).1 }
            ⟨.send parse fault req, [], .start⟩ (sendRow fault w.files connection.1 accepted) _
        · rw [if_neg hid]
          refine Alone.step ?_
          simp only [handleStep, connectedStep, hread]
          rw [if_neg hid]
          rfl
  · simp only [beginStage, hmethod, ne_eq, not_false_eq_true, if_true] at hbegin
    rw [apiSendHandler_method parse fault req w hmethod]
    exact ⟨_, hbegin.answered⟩

/-- A worker left alone handles a `POST` to `/api/upload`. -/
theorem alone_upload (fault : UploadFault) (req : UploadRequest) (w : World) :
    ∃ path r, Alone w (.initial (.upload fault req)) (apiUploadHandler fault req w)
      ⟨.upload fault req, path, .done r⟩ := by
  have hbegin : Alone w (.initial (.upload fault req)) w
      ⟨.upload fault req, [], beginStage (.upload fault req)⟩ := Alone.step rfl
  by_cases hmethod : req.method = .lit "POST"
  · simp only [beginStage, hmethod, ne_eq, not_true_eq_false, if_false] at hbegin
    have hform := hbegin.trans (alone_form fault req ⟨.upload fault req, [], .start⟩ req.parts 0 w
      (FormState.initial fun _ => none))
    have hended : Alone w (.initial (.upload fault req))
        { w with files := (uploadForm fault req w.files).2.files }
        ⟨.upload fault req, (uploadForm fault req w.files).2.ctx.path,
          formStage fault (uploadForm fault req w.files).1
            (uploadForm fault req w.files).2.ctx⟩ := hform
    clear hbegin hform
    unfold formStage at hended
    cases uploadWay fault req w with
    | method hno => exact absurd hmethod hno
    | form _ hfields =>
        rw [if_pos hfields] at hended
        rw [apiUploadHandler_form fault req w hmethod hfields]
        exact ⟨_, _, hended.answered⟩
    | noFile _ hfields hpath =>
        rw [if_neg hfields, if_pos hpath] at hended
        rw [apiUploadHandler_noFile fault req w hmethod hfields hpath]
        exact ⟨_, _, hended.answered⟩
    | noConnection _ hfields hpath hconn =>
        rw [if_neg hfields, if_neg hpath] at hended
        have hconnected := hended.trans (alone_connection _
          ⟨.upload fault req, (uploadForm fault req w.files).2.ctx.path, .start⟩)
        simp only [PostRequest.peer, PostRequest.connectionFault, PostRequest.remoteAddr]
          at hconnected
        rw [apiUploadHandler_noConnection fault req w hmethod hfields hpath hconn]
        refine ⟨(uploadForm fault req w.files).2.ctx.path,
          httpSendError fault.build 500 (.lit "Data base error"),
          Alone.answered (hconnected.tail ?_)⟩
        simp only [handleStep, connectedStep, hconn, if_true]
    | ok _ hfields hpath hconn =>
        rw [if_neg hfields, if_neg hpath] at hended
        have hconnected := hended.trans (alone_connection _
          ⟨.upload fault req, (uploadForm fault req w.files).2.ctx.path, .start⟩)
        simp only [PostRequest.peer, PostRequest.connectionFault, PostRequest.remoteAddr]
          at hconnected
        rw [apiUploadHandler, if_neg (not_not_intro hmethod)]
        simp only [hfields, hpath, hconn, if_false]
        generalize saveConnection fault.connection w.db req.remoteAddr = connection at *
        refine ⟨(uploadForm fault req w.files).2.ctx.path, _,
          Alone.answered (hconnected.trans ?_)⟩
        have hstep : handleStep
            ⟨connection.2, (uploadForm fault req w.files).2.files, w.sent⟩
            ⟨.upload fault req, (uploadForm fault req w.files).2.ctx.path,
              .connected connection.1⟩
            = some (⟨connection.2, (uploadForm fault req w.files).2.files, w.sent⟩,
              ⟨.upload fault req, (uploadForm fault req w.files).2.ctx.path,
                openStage fault.message.opening (.answering (uploadResponse fault))
                  (.reopening (uploadRow fault connection.1
                    (uploadForm fault req w.files).2.ctx.path) (uploadResponse fault))⟩) := by
          simp only [handleStep, connectedStep, hconn, if_false]
        refine Relation.ReflTransGen.head hstep ?_
        exact alone_message ⟨connection.2, (uploadForm fault req w.files).2.files, w.sent⟩
          ⟨.upload fault req, (uploadForm fault req w.files).2.ctx.path, .start⟩
          (uploadRow fault connection.1 (uploadForm fault req w.files).2.ctx.path) _
  · simp only [beginStage, hmethod, ne_eq, not_false_eq_true, if_true] at hbegin
    rw [apiUploadHandler_method fault req w hmethod]
    exact ⟨_, _, hbegin.answered⟩

/-- A worker left alone computes the handler of its request. -/
theorem alone_handle (request : PostRequest) (w : World) :
    ∃ path r, Alone w (.initial request) (request.handle w) ⟨request, path, .done r⟩ := by
  cases request with
  | send parse fault req =>
      rcases alone_send parse fault req w with ⟨r, h⟩
      exact ⟨[], r, h⟩
  | upload fault req => exact alone_upload fault req w

/-- The id is that of a row for the peer of the request: the row with its address, or
    the one the request bound for it. -/
def PeerId (db : Database) (request : PostRequest) (id : Int) : Prop :=
  (id, incomingPeer request.remoteAddr) ∈ connections db ∨
    (id, boundPeer request.connectionFault.insert request.remoteAddr) ∈ connections db

theorem PeerId.mono {db db' : Database} {request : PostRequest} {id : Int}
    (h : PeerId db request id) (hkept : ∀ c ∈ connections db, c ∈ connections db') :
    PeerId db' request id := h.imp (hkept _) (hkept _)

/-- What a worker knows where it is: a form is that of its request, the statements
    left are of the schema script, an id is that of the peer's row, and a row to be
    saved names it and records the response that will be sent. -/
def Informed (db : Database) (request : PostRequest) : Stage → Prop
  | .parsing fault req _ _ _ => request = .upload fault req
  | .opening _ rest => ∀ s ∈ rest, s ∈ createDatabase
  | .connected connectionId => connectionId = -1 ∨ PeerId db request connectionId
  | .reopening row r _ rest => (∀ s ∈ rest, s ∈ createDatabase) ∧ Built request.buildFault r ∧
    PeerId db request row.connectionId ∧ Records request.buildFault row.connectionId row r
  | .saving row r => Built request.buildFault r ∧ PeerId db request row.connectionId ∧
    Records request.buildFault row.connectionId row r
  | .answering r => Built request.buildFault r
  | .done r => Built request.buildFault r
  | _ => True

/-- It stays so while rows are added. -/
theorem Informed.mono {db db' : Database} {request : PostRequest} {stage : Stage}
    (h : Informed db request stage) (hkept : ∀ c ∈ connections db, c ∈ connections db') :
    Informed db' request stage := by
  cases stage with
  | connected connectionId => exact h.imp_right fun hid => hid.mono hkept
  | reopening row r left rest => exact ⟨h.1, h.2.1, h.2.2.1.mono hkept, h.2.2.2⟩
  | saving row r => exact ⟨h.1, h.2.1.mono hkept, h.2.2⟩
  | _ => exact h

/-- What one step can do to what the workers share: nothing but to the files; or it
    inserts the peer as it is bound; or it inserts the history row as it is bound; or
    it sends the response. -/
inductive Effect (w : World) (h : Handling) (w' : World) (h' : Handling) : Prop where
  | quiet (hdb : w'.db = w.db) (hsent : w'.sent = w.sent)
      (hbefore : ∀ r, h.stage ≠ .answering r) (hafter : ∀ r, h'.stage ≠ .done r)
  | peer (id : Int) (hins : insertBound h.request.connectionFault.insert w.db h.request.remoteAddr
        = some (w'.db, id))
      (hsent : w'.sent = w.sent) (hbefore : h.stage = .inserting)
      (hafter : h'.stage = .connected id)
  | row (row : MessageRow) (r : Response) (id : Int)
      (hins : Db.insert (S := serverSchema) w.db .message
        (row.bound h.request.messageFault.insert) = some (w'.db, id))
      (hsent : w'.sent = w.sent) (hbefore : h.stage = .saving row r)
      (hafter : h'.stage = .answering r)
  | response (r : Response) (hworld : w' = w.send r) (hbefore : h.stage = .answering r)
      (hafter : h'.stage = .done r)

/-- The script changes nothing on a database it was applied to. -/
theorem scriptStep_applied {db : Database} (happlied : Applied db) (failed opened : Stage)
    (script : Option Nat → List (Stmt serverSchema) → Stage) (left : Option Nat)
    {rest : List (Stmt serverSchema)} (hrest : ∀ s ∈ rest, s ∈ createDatabase) :
    (scriptStep db failed opened script left rest).1 = db ∧
      ((scriptStep db failed opened script left rest).2 = failed ∨
        (scriptStep db failed opened script left rest).2 = opened ∨
        ∃ left' rest', (∀ s ∈ rest', s ∈ createDatabase) ∧
          (scriptStep db failed opened script left rest).2 = script left' rest') := by
  cases rest with
  | nil => cases left <;> exact ⟨rfl, Or.inr (Or.inl rfl)⟩
  | cons s rest =>
      rw [List.forall_mem_cons] at hrest
      have hs : s.exec db = some db := happlied.settled s hrest.1
      rcases left with _ | _ | k
      · simp only [scriptStep, hs]
        exact ⟨trivial, Or.inr (Or.inr ⟨_, rest, hrest.2, rfl⟩)⟩
      · exact ⟨rfl, Or.inl rfl⟩
      · simp only [scriptStep, hs]
        exact ⟨trivial, Or.inr (Or.inr ⟨_, rest, hrest.2, rfl⟩)⟩

/-- `database_open` leads to its script, or fails before it. -/
theorem openStage_cases (fault : OpenFault) (failed : Stage)
    (script : Option Nat → List (Stmt serverSchema) → Stage) :
    openStage fault failed script = failed ∨
      openStage fault failed script = script fault.exec createDatabase := by
  unfold openStage
  by_cases hopen : fault.sqlite3Open = true
  · exact Or.inl (if_pos hopen)
  · rw [if_neg hopen]
    by_cases hread : fault.readFile = true
    · exact Or.inl (if_pos hread)
    · exact Or.inr (if_neg hread)

/-- The stage before the peer is looked up. -/
theorem informed_openConnection (fault : OpenFault) (db : Database) (request : PostRequest) :
    Informed db request (openStage fault (.connected (-1)) .opening) ∧
      ∀ r, openStage fault (.connected (-1)) .opening ≠ .done r := by
  rcases openStage_cases fault (.connected (-1)) .opening with h | h <;> rw [h]
  · exact ⟨Or.inl rfl, fun r => Stage.noConfusion⟩
  · exact ⟨fun s hs => hs, fun r => Stage.noConfusion⟩

/-- The stage before the history row is saved. -/
theorem informed_openMessage (fault : OpenFault) {db : Database} {request : PostRequest}
    {row : MessageRow} {r : Response} (hbuilt : Built request.buildFault r)
    (hrow : PeerId db request row.connectionId)
    (hrecords : Records request.buildFault row.connectionId row r) :
    Informed db request (openStage fault (.answering r) (.reopening row r)) ∧
      ∀ r', openStage fault (.answering r) (.reopening row r) ≠ .done r' := by
  rcases openStage_cases fault (.answering r) (.reopening row r) with h | h <;> rw [h]
  · exact ⟨hbuilt, fun r => Stage.noConfusion⟩
  · exact ⟨⟨fun s hs => hs, hbuilt, hrow, hrecords⟩, fun r => Stage.noConfusion⟩

/-- The row of an accepted request records its response. -/
theorem records_sendResponse (parse : CStr → Option CJson) (fault : SendFault) (req : SendRequest)
    (files : Files) (connectionId : Int) (accepted : SendAccepted) :
    Built (PostRequest.send parse fault req).buildFault (sendResponse fault files accepted) ∧
      Records (PostRequest.send parse fault req).buildFault connectionId
        (sendRow fault files connectionId accepted) (sendResponse fault files accepted) :=
  ⟨⟨_, _, _, deliver_texts fault files accepted, rfl⟩,
    @records_of_built _ _ (sendRow fault files connectionId accepted) _ _ _
      (deliver_texts fault files accepted) rfl rfl rfl rfl⟩

theorem records_uploadResponse (fault : UploadFault) (req : UploadRequest) (connectionId : Int)
    (path : List UInt8) :
    Built (PostRequest.upload fault req).buildFault (uploadResponse fault) ∧
      Records (PostRequest.upload fault req).buildFault connectionId
        (uploadRow fault connectionId path) (uploadResponse fault) :=
  ⟨⟨_, _, _, by decide, rfl⟩,
    @records_of_built _ _ (uploadRow fault connectionId path) _ _ _ (by decide) rfl rfl rfl rfl⟩

/-- The step from the peer's row to the history row touches files only. -/
theorem connectedStep_effect {w : World} {h : Handling} {connectionId : Int}
    (hconn : connectionId = -1 ∨ PeerId w.db h.request connectionId) :
    (connectedStep w h connectionId).2.request = h.request ∧
      (connectedStep w h connectionId).1.db = w.db ∧
      (connectedStep w h connectionId).1.sent = w.sent ∧
      Informed w.db h.request (connectedStep w h connectionId).2.stage ∧
      ∀ r, (connectedStep w h connectionId).2.stage ≠ .done r := by
  rcases h with ⟨request, path, stage⟩
  cases request with
  | send parse fault req =>
      unfold connectedStep
      simp only
      cases hread : readRequest parse fault.malloc req with
      | error e =>
          rcases e with ⟨status, msg⟩
          exact ⟨rfl, rfl, rfl, ⟨status, _, msg, readRequest_error_texts hread, rfl⟩,
            fun r => Stage.noConfusion⟩
      | ok accepted =>
          rcases records_sendResponse parse fault req w.files connectionId accepted with
            ⟨hbuilt, hrecords⟩
          refine ⟨rfl, rfl, rfl, ?_⟩
          simp only
          by_cases hid : connectionId ≠ -1
          · rw [if_pos hid]
            exact informed_openMessage fault.message.opening hbuilt (hconn.resolve_left hid)
              hrecords
          · rw [if_neg hid]
            exact ⟨hbuilt, fun r => Stage.noConfusion⟩
  | upload fault req =>
      unfold connectedStep
      simp only
      by_cases hid : connectionId = -1
      · rw [if_pos hid]
        exact ⟨rfl, rfl, rfl, ⟨500, _, .lit "Data base error", by decide, rfl⟩,
          fun r => Stage.noConfusion⟩
      · rcases records_uploadResponse fault req connectionId path with ⟨hbuilt, hrecords⟩
        rw [if_neg hid]
        exact ⟨rfl, rfl, rfl, informed_openMessage fault.message.opening hbuilt
          (hconn.resolve_left hid) hrecords⟩

/-- The end of the form touches files only. -/
theorem endForm_effect (w : World) (h : Handling) (fault : UploadFault) (fields : Int)
    (form : FormState) (hfault : h.request.buildFault = fault.build) :
    (endForm w h fault fields form).2.request = h.request ∧
      (endForm w h fault fields form).1.db = w.db ∧
      (endForm w h fault fields form).1.sent = w.sent ∧
      Informed w.db h.request (endForm w h fault fields form).2.stage ∧
      ∀ r, (endForm w h fault fields form).2.stage ≠ .done r := by
  refine ⟨rfl, rfl, rfl, ?_⟩
  simp only [endForm, formStage]
  split
  · exact ⟨⟨400, .lit "error", .lit "Form parse error", by decide, by rw [hfault]; rfl⟩,
      fun r => Stage.noConfusion⟩
  · split
    · exact ⟨⟨400, .lit "error", .lit "No file part", by decide, by rw [hfault]; rfl⟩,
        fun r => Stage.noConfusion⟩
    · exact informed_openConnection fault.connection.opening w.db h.request

/-- A step as the others see it: one of the effects, after which the worker is
    informed. -/
structure Takes (w : World) (h : Handling) (w' : World) (h' : Handling) : Prop where
  request : h'.request = h.request
  effect : Effect w h w' h'
  informed : Informed w'.db h'.request h'.stage

/-- A step that leaves the database and the responses as they were. -/
theorem Takes.quiet {w w' : World} {h h' : Handling} (hrequest : h'.request = h.request)
    (hdb : w'.db = w.db) (hsent : w'.sent = w.sent)
    (hstage : Informed w.db h.request h'.stage ∧ ∀ r, h'.stage ≠ .done r)
    (hbefore : ∀ r, h.stage ≠ .answering r) : Takes w h w' h' := by
  refine ⟨hrequest, .quiet hdb hsent hbefore hstage.2, ?_⟩
  rw [hdb, hrequest]
  exact hstage.1

section Stages

variable {w w' : World} {h' : Handling} {request : PostRequest} {path : List UInt8}

/-- The first step looks at the method. -/
theorem start_takes (hstep : handleStep w ⟨request, path, .start⟩ = some (w', h')) :
    Takes w ⟨request, path, .start⟩ w' h' := by
  simp only [handleStep, Option.some.injEq, Prod.mk.injEq] at hstep
  rcases hstep with ⟨rfl, rfl⟩
  refine .quiet rfl rfl rfl ?_ (fun r => Stage.noConfusion)
  simp only [beginStage]
  cases request with
  | send parse fault req =>
      by_cases hmethod : req.method ≠ .lit "POST"
      · simp only [hmethod, ne_eq, not_false_eq_true, if_true]
        exact ⟨⟨405, .lit "error", .lit "POST required", by decide, rfl⟩,
          fun r => Stage.noConfusion⟩
      · simp only [hmethod, if_false]
        exact informed_openConnection fault.connection.opening w.db _
  | upload fault req =>
      by_cases hmethod : req.method ≠ .lit "POST"
      · simp only [hmethod, ne_eq, not_false_eq_true, if_true]
        exact ⟨⟨405, .lit "error", .lit "POST required", by decide, rfl⟩,
          fun r => Stage.noConfusion⟩
      · simp only [hmethod, if_false]
        exact ⟨rfl, fun r => Stage.noConfusion⟩

/-- A part of the form, or its end. -/
theorem parsing_takes {fault : UploadFault} {req : UploadRequest} {seen : Nat} {parts : List Part}
    {form : FormState} (hform : request = .upload fault req)
    (hstep : handleStep w ⟨request, path, .parsing fault req seen parts form⟩ = some (w', h')) :
    Takes w ⟨request, path, .parsing fault req seen parts form⟩ w' h' := by
  have hend : ∀ (fields : Int) (form' : FormState),
      endForm w ⟨request, path, .parsing fault req seen parts form⟩ fault fields form' = (w', h') →
      Takes w ⟨request, path, .parsing fault req seen parts form⟩ w' h' := by
    intro fields form' heq
    rcases endForm_effect w ⟨request, path, .parsing fault req seen parts form⟩ fault fields form'
      (by rw [hform]; rfl) with ⟨hrequest, hdb, hsent, hstage⟩
    rw [heq] at hrequest hdb hsent hstage
    exact .quiet hrequest hdb hsent hstage (fun r => Stage.noConfusion)
  cases parts with
  | nil =>
      simp only [handleStep, Option.some.injEq] at hstep
      exact hend _ _ hstep
  | cons part parts =>
      rcases hpart : handlePart fault.regcomp fault.pathlen part { form with files := w.files }
        with ⟨stops, form'⟩
      cases stops with
      | true =>
          simp only [handleStep, hpart, Option.some.injEq] at hstep
          exact hend _ _ hstep
      | false =>
          simp only [handleStep, hpart, Option.some.injEq, Prod.mk.injEq] at hstep
          rcases hstep with ⟨rfl, rfl⟩
          exact .quiet rfl rfl rfl ⟨hform, fun r => Stage.noConfusion⟩ (fun r => Stage.noConfusion)

/-- A statement of the script before the peer is looked up. -/
theorem opening_takes (happlied : Applied w.db) {left : Option Nat}
    {rest : List (Stmt serverSchema)} (hrest : ∀ s ∈ rest, s ∈ createDatabase)
    (hstep : handleStep w ⟨request, path, .opening left rest⟩ = some (w', h')) :
    Takes w ⟨request, path, .opening left rest⟩ w' h' := by
  rcases scriptStep_applied happlied (.connected (-1)) .selecting .opening left hrest with
    ⟨hdb, hstage⟩
  simp only [handleStep, Option.some.injEq, Prod.mk.injEq] at hstep
  rcases hstep with ⟨rfl, rfl⟩
  refine .quiet rfl hdb rfl ?_ (fun r => Stage.noConfusion)
  simp only
  rcases hstage with hfailed | hopened | ⟨left', rest', hrest', hscript⟩
  · rw [hfailed]
    exact ⟨Or.inl rfl, fun r => Stage.noConfusion⟩
  · rw [hopened]
    exact ⟨trivial, fun r => Stage.noConfusion⟩
  · rw [hscript]
    exact ⟨hrest', fun r => Stage.noConfusion⟩

/-- The `SELECT` misses, or it gives the id of the peer's row. -/
theorem selecting_takes (hstep : handleStep w ⟨request, path, .selecting⟩ = some (w', h')) :
    Takes w ⟨request, path, .selecting⟩ w' h' := by
  simp only [handleStep] at hstep
  by_cases hprepare : request.connectionFault.find.prepare = true
  · simp only [hprepare, if_true, Option.some.injEq, Prod.mk.injEq] at hstep
    rcases hstep with ⟨rfl, rfl⟩
    exact .quiet rfl rfl rfl ⟨Or.inl rfl, fun r => Stage.noConfusion⟩ (fun r => Stage.noConfusion)
  · simp only [hprepare, Bool.false_eq_true, if_false, Option.some.injEq, Prod.mk.injEq] at hstep
    rcases hstep with ⟨rfl, rfl⟩
    refine .quiet rfl rfl rfl ?_ (fun r => Stage.noConfusion)
    simp only
    rcases connectionFind_cases request.connectionFault.find w.db (some request.remoteAddr)
      connectionPort sslEncrypt incomingPeerRole.id with hmiss | ⟨c, hc, hid, hpos, hrow⟩
    · rw [hmiss]
      exact ⟨trivial, fun r => Stage.noConfusion⟩
    · rw [hid, if_pos (by omega)]
      have hpeer : c = (c.1, incomingPeer request.remoteAddr) := Prod.ext rfl hrow
      exact ⟨Or.inr (Or.inl (hpeer ▸ hc)), fun r => Stage.noConfusion⟩

/-- The `INSERT` of the peer fails, or its row is there as it was bound. -/
theorem inserting_takes (hstep : handleStep w ⟨request, path, .inserting⟩ = some (w', h')) :
    Takes w ⟨request, path, .inserting⟩ w' h' := by
  simp only [handleStep] at hstep
  rcases connectionInsert_cases request.connectionFault w.db request.remoteAddr with
    ⟨_, hret⟩ | ⟨_, db', id, hins, hret⟩
  · rw [hret, Option.some.injEq, Prod.mk.injEq] at hstep
    rcases hstep with ⟨rfl, rfl⟩
    exact .quiet rfl rfl rfl ⟨Or.inl rfl, fun r => Stage.noConfusion⟩ (fun r => Stage.noConfusion)
  · rw [hret] at hstep
    simp only [ne_eq, not_true_eq_false, if_false, Option.getD_some, Option.some.injEq,
      Prod.mk.injEq] at hstep
    rcases hstep with ⟨rfl, rfl⟩
    refine ⟨rfl, .peer id hins rfl rfl rfl, Or.inr (Or.inr ?_)⟩
    rw [(connections_insertBound hins).1]
    exact List.mem_append_right _ (List.mem_singleton.mpr rfl)

/-- A statement of the script before the history row is saved. -/
theorem reopening_takes (happlied : Applied w.db) {row : MessageRow} {r : Response}
    {left : Option Nat} {rest : List (Stmt serverSchema)}
    (hinformed : Informed w.db request (.reopening row r left rest))
    (hstep : handleStep w ⟨request, path, .reopening row r left rest⟩ = some (w', h')) :
    Takes w ⟨request, path, .reopening row r left rest⟩ w' h' := by
  rcases hinformed with ⟨hrest, hbuilt, hrow, hrecords⟩
  rcases scriptStep_applied happlied (.answering r) (.saving row r) (.reopening row r) left hrest
    with ⟨hdb, hstage⟩
  simp only [handleStep, Option.some.injEq, Prod.mk.injEq] at hstep
  rcases hstep with ⟨rfl, rfl⟩
  refine .quiet rfl hdb rfl ?_ (fun r => Stage.noConfusion)
  simp only
  rcases hstage with hfailed | hopened | ⟨left', rest', hrest', hscript⟩
  · rw [hfailed]
    exact ⟨hbuilt, fun r => Stage.noConfusion⟩
  · rw [hopened]
    exact ⟨⟨hbuilt, hrow, hrecords⟩, fun r => Stage.noConfusion⟩
  · rw [hscript]
    exact ⟨⟨hrest', hbuilt, hrow, hrecords⟩, fun r => Stage.noConfusion⟩

/-- The `INSERT` of the history row fails, or the row is there as it was bound. -/
theorem saving_takes {row : MessageRow} {r : Response} (hbuilt : Built request.buildFault r)
    (hstep : handleStep w ⟨request, path, .saving row r⟩ = some (w', h')) :
    Takes w ⟨request, path, .saving row r⟩ w' h' := by
  simp only [handleStep, messageInsert_eq] at hstep
  rcases insertRow_cases request.messageFault.insert w.db .message
    (row.bound request.messageFault.insert) with hret | ⟨db', id, hret, hins⟩
  · rw [hret, Option.some.injEq, Prod.mk.injEq] at hstep
    rcases hstep with ⟨rfl, rfl⟩
    exact .quiet rfl rfl rfl ⟨hbuilt, fun r => Stage.noConfusion⟩ (fun r => Stage.noConfusion)
  · rw [hret, Option.some.injEq, Prod.mk.injEq] at hstep
    rcases hstep with ⟨rfl, rfl⟩
    exact ⟨rfl, .row row r id hins rfl rfl rfl, hbuilt⟩

end Stages

/-- Every step has one of the effects, and leaves the worker informed. -/
theorem handleStep_takes {w w' : World} {h h' : Handling} (happlied : Applied w.db)
    (hinformed : Informed w.db h.request h.stage) (hstep : handleStep w h = some (w', h')) :
    Takes w h w' h' := by
  rcases h with ⟨request, path, stage⟩
  cases stage with
  | start => exact start_takes hstep
  | parsing fault req seen parts form => exact parsing_takes hinformed hstep
  | opening left rest => exact opening_takes happlied hinformed hstep
  | selecting => exact selecting_takes hstep
  | inserting => exact inserting_takes hstep
  | connected connectionId =>
      rcases connectedStep_effect (h := ⟨request, path, .connected connectionId⟩) hinformed with
        ⟨hrequest, hdb, hsent, hstage⟩
      simp only [handleStep, Option.some.injEq] at hstep
      rw [hstep] at hrequest hdb hsent hstage
      exact .quiet hrequest hdb hsent hstage (fun r => Stage.noConfusion)
  | reopening row r left rest => exact reopening_takes happlied hinformed hstep
  | saving row r => exact saving_takes hinformed.1 hstep
  | answering r =>
      rw [handleStep, Option.some.injEq, Prod.mk.injEq] at hstep
      rcases hstep with ⟨rfl, rfl⟩
      exact ⟨rfl, .response r rfl rfl rfl, hinformed⟩
  | done r => simp only [handleStep, reduceCtorEq] at hstep

/-- What is paired off with a list has something for each of its members. -/
theorem exists_of_forall₂ {α β : Type*} {R : α → β → Prop} {l : List α} {l' : List β}
    (h : List.Forall₂ R l l') {a : α} (ha : a ∈ l) : ∃ b, R a b := by
  induction h with
  | nil => exact absurd ha List.not_mem_nil
  | @cons _ b _ _ hb _ ih =>
      rcases List.mem_cons.mp ha with rfl | ha
      · exact ⟨b, hb⟩
      · exact ih ha

/-- The row is that of worker `i`, which is past saving it: it names the row of the
    worker's peer and records, as it was bound, the response that the worker sends. -/
def Recorded {n : Nat} (c : Config n World Handling) (i : Fin n) (m : Int × MessageRow) : Prop :=
  ∃ r, ((c.workers i).stage = .answering r ∨ (c.workers i).stage = .done r) ∧
    PeerId c.shared.db (c.workers i).request m.2.connectionId ∧
    RecordsBound (c.workers i).request.buildFault (c.workers i).request.messageFault.insert
      m.2.connectionId m.2 r

/-- What holds in every state of every interleaving. Each new row of the history
    belongs to a worker of its own, and so does each response. -/
structure Serving {n : Nat} (requests : Fin n → PostRequest) (w : World)
    (c : Config n World Handling) : Prop where
  applied : Applied c.shared.db
  request : ∀ i, (c.workers i).request = requests i
  informed : ∀ i, Informed c.shared.db (c.workers i).request (c.workers i).stage
  peers : ∃ new, connections c.shared.db = connections w.db ++ new ∧
    ∀ p ∈ new, ∃ i, p.2 = boundPeer (requests i).connectionFault.insert (requests i).remoteAddr
  history : ∃ (writers : List (Fin n)) (rows : List (Int × MessageRow)), writers.Nodup ∧
    messages c.shared.db = messages w.db ++ rows ∧ List.Forall₂ (Recorded c) writers rows
  wire : ∃ (answered : List (Fin n)) (rs : List Response), answered.Nodup ∧
    c.shared.sent = w.sent ++ rs ∧
    List.Forall₂ (fun i r => (c.workers i).stage = .done r) answered rs ∧
    ∀ i r, (c.workers i).stage = .done r → i ∈ answered

/-- The step of a worker, seen from the configuration. -/
structure Moves {n : Nat} (c : Config n World Handling) (i : Fin n) (c' : Config n World Handling) :
    Prop where
  others : ∀ j, j ≠ i → c'.workers j = c.workers j
  request : (c'.workers i).request = (c.workers i).request
  running : ∀ r, (c.workers i).stage ≠ .done r
  effect : Effect c.shared (c.workers i) c'.shared (c'.workers i)
  informed : Informed c'.shared.db (c'.workers i).request (c'.workers i).stage

theorem moves_of_step {n : Nat} {c c' : Config n World Handling} {i : Fin n}
    (happlied : Applied c.shared.db)
    (hinformed : Informed c.shared.db (c.workers i).request (c.workers i).stage)
    (hstep : step handleStep c i = some c') : Moves c i c' := by
  rcases step_eq_some hstep with ⟨h', hact, hworkers⟩
  rcases handleStep_takes happlied hinformed hact with ⟨hrequest, heffect, hinformed'⟩
  have hself : c'.workers i = h' := by rw [hworkers, Function.update_self]
  subst hself
  refine ⟨fun j hj => by rw [hworkers, Function.update_of_ne hj], hrequest, fun r hdone => ?_,
    heffect, hinformed'⟩
  simp only [handleStep, hdone, reduceCtorEq] at hact

/-- The connections after a step. -/
theorem Moves.connections {n : Nat} {c c' : Config n World Handling} {i : Fin n}
    (h : Moves c i c') : ∃ new, connections c'.shared.db = connections c.shared.db ++ new ∧
      ∀ p ∈ new, p.2 = boundPeer (c.workers i).request.connectionFault.insert
        (c.workers i).request.remoteAddr := by
  have hsame : ∀ {db : Database}, db = c.shared.db →
      ∃ new, Server.connections db = Server.connections c.shared.db ++ new ∧
        ∀ p ∈ new, p.2 = boundPeer (c.workers i).request.connectionFault.insert
          (c.workers i).request.remoteAddr := by
    rintro db rfl
    exact ⟨[], (List.append_nil _).symm, fun p hp => absurd hp List.not_mem_nil⟩
  cases h.effect with
  | quiet hdb => exact hsame hdb
  | peer id hins =>
      refine ⟨[(id, boundPeer (c.workers i).request.connectionFault.insert
        (c.workers i).request.remoteAddr)], (connections_insertBound hins).1, fun p hp => ?_⟩
      rw [List.mem_singleton.mp hp]
  | row row r id hins =>
      exact ⟨[], (rows_insert_of_ne hins (by decide)).trans (List.append_nil _).symm,
        fun p hp => absurd hp List.not_mem_nil⟩
  | response r hworld => exact hsame (by rw [hworld]; rfl)

theorem Moves.kept {n : Nat} {c c' : Config n World Handling} {i : Fin n} (h : Moves c i c') :
    ∀ p ∈ Server.connections c.shared.db, p ∈ Server.connections c'.shared.db := by
  intro p hp
  rcases h.connections with ⟨new, hnew, _⟩
  rw [hnew]
  exact List.mem_append_left new hp

theorem Moves.applied {n : Nat} {c c' : Config n World Handling} {i : Fin n} (h : Moves c i c')
    (happlied : Applied c.shared.db) : Applied c'.shared.db := by
  cases h.effect with
  | quiet hdb => exact hdb ▸ happlied
  | peer id hins => exact happlied.insert hins
  | row row r id hins => exact happlied.insert hins
  | response r hworld =>
      rw [hworld]
      exact happlied

/-- A row stays that of its worker. -/
theorem Recorded.moves {n : Nat} {c c' : Config n World Handling} {i j : Fin n}
    {m : Int × MessageRow} (h : Recorded c j m) (hmoves : Moves c i c') : Recorded c' j m := by
  rcases h with ⟨r, hstage, hrow, hrecords⟩
  by_cases hj : j = i
  · subst hj
    -- The worker can only send its response now.
    rcases hstage with hstage | hstage
    · refine ⟨r, Or.inr ?_, ?_, ?_⟩
      · cases hmoves.effect with
        | quiet _ _ hbefore => exact absurd hstage (hbefore r)
        | peer id _ _ hbefore => simp only [hstage, reduceCtorEq] at hbefore
        | row row r' id _ _ hbefore => simp only [hstage, reduceCtorEq] at hbefore
        | response r' _ hbefore hafter =>
            rw [hstage, Stage.answering.injEq] at hbefore
            rw [hafter, hbefore]
      · rw [hmoves.request]
        exact hrow.mono hmoves.kept
      · rw [hmoves.request]
        exact hrecords
    · exact absurd hstage (hmoves.running r)
  · refine ⟨r, ?_, ?_, ?_⟩ <;> rw [hmoves.others j hj]
    · exact hstage
    · exact hrow.mono hmoves.kept
    · exact hrecords

/-- A worker that has a row in the history is past saving it. -/
theorem Recorded.past {n : Nat} {c : Config n World Handling} {writers : List (Fin n)}
    {rows : List (Int × MessageRow)} (h : List.Forall₂ (Recorded c) writers rows) {i : Fin n}
    (hi : i ∈ writers) :
    ∃ r, (c.workers i).stage = .answering r ∨ (c.workers i).stage = .done r := by
  rcases exists_of_forall₂ h hi with ⟨_, r, hstage, _⟩
  exact ⟨r, hstage⟩

/-- The row that a worker has just saved is its own. -/
theorem Moves.recorded {n : Nat} {c c' : Config n World Handling} {i : Fin n} (h : Moves c i c')
    {row : MessageRow} {r : Response} (id : Int)
    (hinformed : Informed c.shared.db (c.workers i).request (.saving row r))
    (hafter : (c'.workers i).stage = .answering r) :
    Recorded c' i (id, row.bound (c.workers i).request.messageFault.insert) := by
  rcases hinformed with ⟨_, hrow, hrecords⟩
  refine ⟨r, Or.inl hafter, ?_, ?_⟩
  · rw [h.request]
    exact hrow.mono h.kept
  · rw [h.request]
    exact hrecords.bind _

/-- The history after a step: the worker that saved its row has none yet. -/
theorem Serving.history_moves {n : Nat} {requests : Fin n → PostRequest} {w : World}
    {c c' : Config n World Handling} {i : Fin n} (h : Serving requests w c)
    (hmoves : Moves c i c') :
    ∃ (writers : List (Fin n)) (rows : List (Int × MessageRow)), writers.Nodup ∧
      messages c'.shared.db = messages w.db ++ rows ∧ List.Forall₂ (Recorded c') writers rows := by
  rcases h.history with ⟨writers, rows, hnodup, hrows, hrecorded⟩
  have hkept : List.Forall₂ (Recorded c') writers rows :=
    hrecorded.imp fun j m hm => hm.moves hmoves
  have hsame : messages c'.shared.db = messages c.shared.db →
      ∃ (writers : List (Fin n)) (rows : List (Int × MessageRow)), writers.Nodup ∧
        messages c'.shared.db = messages w.db ++ rows ∧
        List.Forall₂ (Recorded c') writers rows := fun heq =>
    ⟨writers, rows, hnodup, heq.trans hrows, hkept⟩
  cases hmoves.effect with
  | quiet hdb => exact hsame (by rw [hdb])
  | peer id hins => exact hsame (rows_insert_of_ne hins (by decide))
  | response r hworld => exact hsame (by rw [hworld]; rfl)
  | row row r id hins _ hbefore hafter =>
      have hmessages : messages c'.shared.db = messages c.shared.db ++
          [(id, row.bound (c.workers i).request.messageFault.insert)] := rows_insert hins
      have hinformed := h.informed i
      rw [hbefore] at hinformed
      refine ⟨writers ++ [i],
        rows ++ [(id, row.bound (c.workers i).request.messageFault.insert)], ?_, ?_, ?_⟩
      · refine hnodup.append (List.nodup_singleton i) ?_
        rw [List.disjoint_singleton]
        intro hi
        rcases Recorded.past hrecorded hi with ⟨r', hpast⟩
        simp only [hbefore, reduceCtorEq, or_self] at hpast
      · rw [hmessages, hrows, List.append_assoc]
      · exact List.rel_append hkept (.cons (hmoves.recorded id hinformed hafter) .nil)

/-- The answers after a step: the worker that sent its own had sent none. -/
theorem Serving.wire_moves {n : Nat} {requests : Fin n → PostRequest} {w : World}
    {c c' : Config n World Handling} {i : Fin n} (h : Serving requests w c)
    (hmoves : Moves c i c') :
    ∃ (answered : List (Fin n)) (rs : List Response), answered.Nodup ∧
      c'.shared.sent = w.sent ++ rs ∧
      List.Forall₂ (fun j r => (c'.workers j).stage = .done r) answered rs ∧
      ∀ j r, (c'.workers j).stage = .done r → j ∈ answered := by
  rcases h.wire with ⟨answered, rs, hnodup, hsent, hdone, hall⟩
  have hkept : List.Forall₂ (fun j r => (c'.workers j).stage = .done r) answered rs := by
    refine hdone.imp fun j r hj => ?_
    by_cases hji : j = i
    · subst hji
      exact absurd hj (hmoves.running r)
    · rw [hmoves.others j hji]
      exact hj
  have hsame : c'.shared.sent = c.shared.sent → (∀ r, (c'.workers i).stage ≠ .done r) →
      ∃ (answered : List (Fin n)) (rs : List Response), answered.Nodup ∧
        c'.shared.sent = w.sent ++ rs ∧
        List.Forall₂ (fun j r => (c'.workers j).stage = .done r) answered rs ∧
        ∀ j r, (c'.workers j).stage = .done r → j ∈ answered := by
    intro heq hafter
    refine ⟨answered, rs, hnodup, heq.trans hsent, hkept, fun j r hj => ?_⟩
    by_cases hji : j = i
    · subst hji
      exact absurd hj (hafter r)
    · rw [hmoves.others j hji] at hj
      exact hall j r hj
  cases hmoves.effect with
  | quiet _ heq _ hafter => exact hsame heq hafter
  | peer id _ heq _ hafter => exact hsame heq fun r => by rw [hafter]; exact Stage.noConfusion
  | row row r id _ heq _ hafter =>
      exact hsame heq fun r' => by rw [hafter]; exact Stage.noConfusion
  | response r hworld hbefore hafter =>
      refine ⟨answered ++ [i], rs ++ [r], ?_, ?_, ?_, fun j r' hj => ?_⟩
      · refine hnodup.append (List.nodup_singleton i) ?_
        rw [List.disjoint_singleton]
        intro hi
        rcases exists_of_forall₂ hdone hi with ⟨r', hstage⟩
        exact hmoves.running r' hstage
      · rw [hworld, World.send, hsent, List.append_assoc]
      · exact List.rel_append hkept (.cons hafter .nil)
      · by_cases hji : j = i
        · rw [hji]
          exact List.mem_append_right _ (List.mem_singleton.mpr rfl)
        · rw [hmoves.others j hji] at hj
          exact List.mem_append_left _ (hall j r' hj)

/-- One step keeps the invariant. -/
theorem serving_step {n : Nat} {requests : Fin n → PostRequest} {w : World}
    (c : Config n World Handling) (i : Fin n) (c' : Config n World Handling)
    (h : Serving requests w c) (hstep : step handleStep c i = some c') :
    Serving requests w c' := by
  have hmoves := moves_of_step h.applied (h.informed i) hstep
  refine ⟨hmoves.applied h.applied, fun j => ?_, fun j => ?_, ?_,
    h.history_moves hmoves, h.wire_moves hmoves⟩
  · by_cases hj : j = i
    · subst hj
      exact hmoves.request.trans (h.request j)
    · rw [hmoves.others j hj]
      exact h.request j
  · by_cases hj : j = i
    · subst hj
      exact hmoves.informed
    · rw [hmoves.others j hj]
      exact (h.informed j).mono hmoves.kept
  · rcases h.peers with ⟨new, hnew, hpeers⟩
    rcases hmoves.connections with ⟨more, hmore, hpeer⟩
    refine ⟨new ++ more, by rw [hmore, hnew, List.append_assoc], fun p hp => ?_⟩
    rcases List.mem_append.mp hp with hp | hp
    · exact hpeers p hp
    · exact ⟨i, by rw [hpeer p hp, h.request i]⟩

theorem serving_start {n : Nat} (requests : Fin n → PostRequest) {w : World}
    (happlied : Applied w.db) : Serving requests w (serve requests w) where
  applied := happlied
  request := fun _ => rfl
  informed := fun _ => trivial
  peers := ⟨[], (List.append_nil _).symm, fun p hp => absurd hp List.not_mem_nil⟩
  history := ⟨[], [], List.nodup_nil, (List.append_nil _).symm, .nil⟩
  wire := ⟨[], [], List.nodup_nil, (List.append_nil _).symm, .nil, fun i r h => by
    simp only [serve, Handling.initial, reduceCtorEq] at h⟩

/-- A run keeps it. -/
theorem serving_run {n : Nat} {requests : Fin n → PostRequest} {w : World}
    (happlied : Applied w.db) {schedule : List (Fin n)} {c : Config n World Handling}
    (hrun : run handleStep (serve requests w) schedule = some c) : Serving requests w c :=
  run_invariant (Serving requests w) serving_step schedule _ c (serving_start requests happlied)
    hrun

/-- A worker scheduled alone, among any number of others, leaves the shared state as
    its handler does. -/
theorem handle_alone {n : Nat} (requests : Fin n → PostRequest) (w : World) (i : Fin n) :
    ∃ k c, run handleStep (serve requests w) (List.replicate k i) = some c ∧
      c.shared = (requests i).handle w ∧ (∃ r, (c.workers i).stage = .done r) ∧
      ∀ j, j ≠ i → c.workers j = .initial (requests j) := by
  rcases alone_handle (requests i) w with ⟨path, r, halone⟩
  rcases run_of_solo halone i (serve requests w) rfl rfl with ⟨k, hk⟩
  refine ⟨k, _, hk, rfl, ⟨r, ?_⟩, fun j hj => ?_⟩
  · simp only [Function.update_self]
  · exact Function.update_of_ne hj ..

/-- In every state of every interleaving of any number of requests, whatever fails and
    wherever workers stop: references hold and peers are distinct; the connections are
    those there were and new ones of addresses that asked, without the address where the
    request could not bind it; the history is what it was and at most one row for each
    request, which names a connection of that request's peer and records the response
    that goes out for it, but for a text that could not be bound; and every worker that
    is done has sent one response, its own, with the right length. -/
theorem concurrent_history {n : Nat} (requests : Fin n → PostRequest) (w : World)
    (schedule : List (Fin n)) (c : Config n World Handling) (happlied : Applied w.db)
    (hrun : run handleStep (serve requests w) schedule = some c) :
    Integrity c.shared.db ∧ PeersDistinct c.shared.db ∧
    (∃ new, connections c.shared.db = connections w.db ++ new ∧
      ∀ p ∈ new, ∃ i, p.2 = boundPeer (requests i).connectionFault.insert
        (requests i).remoteAddr) ∧
    (∃ (writers : List (Fin n)) (rows : List (Int × MessageRow)), writers.Nodup ∧
      messages c.shared.db = messages w.db ++ rows ∧
      List.Forall₂ (fun i m => ∃ r,
        ((c.workers i).stage = .answering r ∨ (c.workers i).stage = .done r) ∧
        PeerId c.shared.db (requests i) m.2.connectionId ∧
        RecordsBound (requests i).buildFault (requests i).messageFault.insert m.2.connectionId
          m.2 r) writers rows) ∧
    (∃ (answered : List (Fin n)) (rs : List Response), answered.Nodup ∧
      (∀ i, i ∈ answered ↔ ∃ r, (c.workers i).stage = .done r) ∧
      c.shared.sent = w.sent ++ rs ∧
      List.Forall₂ (fun i r => (c.workers i).stage = .done r ∧ r.contentLength = r.body.length)
        answered rs) := by
  have h := serving_run happlied hrun
  refine ⟨Integrity.of_sound h.applied.ready.sound,
    PeersDistinct.of_sound h.applied.ready.sound h.applied.ready.unique, h.peers, ?_, ?_⟩
  · rcases h.history with ⟨writers, rows, hnodup, hrows, hrecorded⟩
    refine ⟨writers, rows, hnodup, hrows, hrecorded.imp fun i m hm => ?_⟩
    rcases hm with ⟨r, hstage, hrow, hrecords⟩
    rw [h.request i] at hrow hrecords
    exact ⟨r, hstage, hrow, hrecords⟩
  · rcases h.wire with ⟨answered, rs, hnodup, hsent, hdone, hall⟩
    refine ⟨answered, rs, hnodup, fun i => ⟨exists_of_forall₂ hdone, fun ⟨r, hr⟩ => hall i r hr⟩,
      hsent, hdone.imp fun i r hr => ⟨hr, ?_⟩⟩
    have hinformed := h.informed i
    rw [hr] at hinformed
    exact Built.contentLength hinformed

/-- Two uploads from one address on a fresh database, the first of which is stopped
    before it inserts the peer: the second one alone gets its row. -/
theorem concurrent_history_stopped :
    ∃ c, run handleStep (serve (fun _ : Fin 2 => smallUpload (.lit "10.0.0.7")) createdWorld)
        (List.replicate 30 0 ++ List.replicate 60 1) = some c ∧
      (messages c.shared.db).length = 1 ∧ Integrity c.shared.db ∧ PeersDistinct c.shared.db := by
  have hrun : run handleStep (serve (fun _ : Fin 2 => smallUpload (.lit "10.0.0.7")) createdWorld)
      (List.replicate 30 0 ++ List.replicate 60 1) = some _ := rfl
  have h := concurrent_history _ createdWorld _ _ applied_created hrun
  exact ⟨_, hrun, rfl, h.1, h.2.1⟩

end Server

end SendingSystem
