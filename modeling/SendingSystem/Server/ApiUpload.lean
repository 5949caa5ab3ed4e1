import SendingSystem.Server.ApiSend

/-!
# `POST /api/upload`

`api_upload_handler` and the callbacks it hands to the form parser. The parser is
CivetWeb's: it calls `on_field_found` once for each part, in order. For a part to
store it writes the file itself, and calls `on_field_store` when the whole part
was written; otherwise it removes the file. For an aborted part it stops. A form
that is malformed or cut short gives a negative result, whatever was seen before.

A request therefore is the list of its parts with, for each, whether the handler
can open the file and whether the parser can write it, and whether the form ends
well. The callbacks log what they were called for, and the file handles opened
and closed, so that statements about them can be read off the state.

## Main definitions

* `Part`: One part of a form.
* `FormState`: The callbacks' context, the files and the logs.
* `onFieldFound`, `onFieldStore`: The callbacks.
* `handlePart`, `handleFormRequest`: The parser's calls.
* `uploadForm`: The form, and the close after it.
* `apiUploadHandler`: The handler.

## Theorems

* `apiUploadHandler_method`, `apiUploadHandler_form`, `apiUploadHandler_noFile`,
  `apiUploadHandler_noConnection`, `apiUploadHandler_ok`: What is answered when.
* `uploadWay`: Every request takes one of these ways.
* `handlePart_files`, `apiUploadHandler_files`: What happens to the files.
-/

namespace SendingSystem

namespace Server

open CString

/-- `MG_FORM_FIELD_STORAGE_*`. -/
inductive FieldStorage where
  | get
  | store
  | abort
  deriving DecidableEq

/-- One part of a form: its file name, if it has one, its content, and the two
    things that can fail, the handler's `fopen` and the parser's writing. -/
structure Part where
  filename : Option CStr
  content : List UInt8
  fopen : Bool
  write : Bool

/-- The fields of `upload_ctx_t` that are read: the open file, by number, and the
    current path. -/
structure UploadCtx where
  fp : Option Nat
  path : List UInt8

/-- What the callbacks change. Files are numbered in the order they are opened;
    `found` and `stored` list the paths the callbacks were called for. -/
structure FormState where
  ctx : UploadCtx
  files : Files
  opened : Nat
  closed : List Nat
  found : List (List UInt8)
  stored : List (List UInt8)

/-- `upload_ctx_t u = {0}`. -/
def FormState.initial (files : Files) : FormState := ⟨⟨none, []⟩, files, 0, [], [], []⟩

/-- `fclose(u->fp); u->fp = NULL`, when there is an open file. -/
def FormState.close (s : FormState) : FormState :=
  match s.ctx.fp with
  | none => s
  | some h => { s with ctx := { s.ctx with fp := none }, closed := s.closed ++ [h] }

/-- `on_field_found`: the storage class, the path it printed, and the state. -/
def onFieldFound (regcomp : Bool) (pathlen : Nat) (part : Part) (s : FormState) :
    FieldStorage × List UInt8 × FormState :=
  match part.filename with
  | none => (.get, [], s)
  | some filename =>
    if filename.bytes = [] then (.get, [], s)
    else
      let path := foundPath regcomp pathlen (some filename)
      let found := s.found ++ [path]
      -- `fopen` comes after the path is printed into the context.
      if part.fopen then
        (.abort, path, { s with ctx := ⟨none, contextPath path⟩, found := found })
      else
        (.store, path,
          { s with
            ctx := ⟨some s.opened, contextPath path⟩
            files := Function.update s.files path (some [])
            opened := s.opened + 1
            found := found })

/-- `on_field_store`. -/
def onFieldStore (path : List UInt8) (s : FormState) : FormState :=
  { s.close with stored := s.stored ++ [path] }

/-- What the parser does for one part, and whether it stops there. -/
def handlePart (regcomp : Bool) (pathlen : Nat) (part : Part) (s : FormState) : Bool × FormState :=
  match onFieldFound regcomp pathlen part s with
  | (.get, _, s) => (false, s)
  | (.abort, _, s) => (true, s)
  | (.store, path, s) =>
    -- The parser removes what it could not write and goes on with the next part.
    if part.write then (false, { s with files := Function.update s.files path none })
    else
      (false,
        onFieldStore path { s with files := Function.update s.files path (some part.content) })

/-- `mg_handle_form_request` on the parts that reach it: a negative number for a
    malformed form, otherwise the number of parts seen. -/
def handleFormRequest (regcomp : Bool) (pathlen : Nat) (malformed : Bool) :
    List Part → Nat → FormState → Int × FormState
  | [], seen, s => (if malformed then -1 else seen, s)
  | part :: parts, seen, s =>
    match handlePart regcomp pathlen part s with
    | (true, s) => (seen, s)
    | (false, s) => handleFormRequest regcomp pathlen malformed parts (seen + 1) s

/-- A request: its method, its peer, the parts of its form and how the form ends. -/
structure UploadRequest where
  method : CStr
  remoteAddr : CStr
  parts : List Part
  malformed : Bool

/-- The size of the parser's path buffer, what fails while the request is
    handled, and the time it is handled at. -/
structure UploadFault where
  pathlen : Nat
  regcomp : Bool
  connection : ConnectionFault
  build : BuildFault
  message : MessageFault
  sendingTime : CStr

/-- Nothing fails. -/
def UploadFault.none (pathlen : Nat) (sendingTime : CStr) : UploadFault :=
  ⟨pathlen, true, .none, .none, .none, sendingTime⟩

/-- The form and the close after it. -/
def uploadForm (fault : UploadFault) (req : UploadRequest) (files : Files) : Int × FormState :=
  let handled := handleFormRequest fault.regcomp fault.pathlen req.malformed req.parts 0
    (FormState.initial files)
  (handled.1, handled.2.close)

/-- `api_upload_handler`. -/
def apiUploadHandler (fault : UploadFault) (req : UploadRequest) (w : World) : World :=
  if req.method ≠ .lit "POST" then w.send (httpSendError fault.build 405 (.lit "POST required"))
  else
    let form := uploadForm fault req w.files
    let fields := form.1
    let u := form.2.ctx
    let w := { w with files := form.2.files }
    if fields < 0 then w.send (httpSendError fault.build 400 (.lit "Form parse error"))
    else if u.path = [] then w.send (httpSendError fault.build 400 (.lit "No file part"))
    else
      -- Only now, with all checks made, is the database opened.
      let connection := saveConnection fault.connection w.db req.remoteAddr
      let w := { w with db := connection.2 }
      if connection.1 = -1 then w.send (httpSendError fault.build 500 (.lit "Data base error"))
      else
        let responseJson := httpBuildJson fault.build (.lit "message") (.lit "File(s) received")
        let saved := saveMessage fault.message w.db ⟨connection.1, MessageStatusId.success.id,
          MessageTypeId.file.id, MessageDirectionId.inbound.id, responseJson,
          some fault.sendingTime, some (heapString u.path)⟩
        World.send { w with db := saved.2 } (httpSendBuiltJson 200 responseJson)

@[simp]
theorem FormState.files_close (s : FormState) : s.close.files = s.files := by
  unfold FormState.close
  split <;> rfl

/-- What a part with a file name does to the files: the file is emptied when it
    is opened, and then holds the content or, if that cannot be written, is gone. -/
theorem handlePart_files {regcomp : Bool} {pathlen : Nat} {part : Part} {s : FormState}
    {filename : CStr} (hname : part.filename = some filename) (hne : filename.bytes ≠ []) :
    (handlePart regcomp pathlen part s).2.files =
      if part.fopen then s.files
      else Function.update s.files (foundPath regcomp pathlen (some filename))
        (if part.write then none else some part.content) := by
  unfold handlePart onFieldFound
  simp only [hname, if_neg hne]
  cases part.fopen with
  | true => rfl
  | false =>
      -- `fopen` empties the file before the content is written to it.
      cases part.write with
      | true =>
          simp only [Bool.false_eq_true, if_false, if_true]
          exact Function.update_idem ..
      | false =>
          simp only [Bool.false_eq_true, if_false, onFieldStore, FormState.files_close]
          exact Function.update_idem ..

section Handler

variable (fault : UploadFault) (req : UploadRequest) (w : World)

/-- Another method is answered 405, with nothing else done. -/
theorem apiUploadHandler_method (h : req.method ≠ .lit "POST") :
    apiUploadHandler fault req w
      = w.send (httpSendError fault.build 405 (.lit "POST required")) := by
  rw [apiUploadHandler, if_pos h]

/-- A form that ends badly is answered 400, before the database is looked at. -/
theorem apiUploadHandler_form (hmethod : req.method = .lit "POST")
    (h : (uploadForm fault req w.files).1 < 0) :
    apiUploadHandler fault req w
      = World.send { w with files := (uploadForm fault req w.files).2.files }
          (httpSendError fault.build 400 (.lit "Form parse error")) := by
  rw [apiUploadHandler, if_neg (not_not_intro hmethod)]
  simp only [h, if_true]

/-- So is a form without a file part. -/
theorem apiUploadHandler_noFile (hmethod : req.method = .lit "POST")
    (h : ¬ (uploadForm fault req w.files).1 < 0)
    (hpath : (uploadForm fault req w.files).2.ctx.path = []) :
    apiUploadHandler fault req w
      = World.send { w with files := (uploadForm fault req w.files).2.files }
          (httpSendError fault.build 400 (.lit "No file part")) := by
  rw [apiUploadHandler, if_neg (not_not_intro hmethod)]
  simp only [h, hpath, if_true, if_false]

/-- Without a row for the peer the answer is 500. -/
theorem apiUploadHandler_noConnection (hmethod : req.method = .lit "POST")
    (h : ¬ (uploadForm fault req w.files).1 < 0)
    (hpath : (uploadForm fault req w.files).2.ctx.path ≠ [])
    (hconn : (saveConnection fault.connection w.db req.remoteAddr).1 = -1) :
    apiUploadHandler fault req w
      = World.send { w with files := (uploadForm fault req w.files).2.files
                            db := (saveConnection fault.connection w.db req.remoteAddr).2 }
          (httpSendError fault.build 500 (.lit "Data base error")) := by
  rw [apiUploadHandler, if_neg (not_not_intro hmethod)]
  simp only [h, hpath, hconn, if_true, if_false]

/-- Otherwise the answer is 200. -/
theorem apiUploadHandler_ok (hmethod : req.method = .lit "POST")
    (h : ¬ (uploadForm fault req w.files).1 < 0)
    (hpath : (uploadForm fault req w.files).2.ctx.path ≠ [])
    (hconn : (saveConnection fault.connection w.db req.remoteAddr).1 ≠ -1) :
    (apiUploadHandler fault req w).files = (uploadForm fault req w.files).2.files ∧
      (apiUploadHandler fault req w).sent = w.sent ++ [httpSendBuiltJson 200
        (httpBuildJson fault.build (.lit "message") (.lit "File(s) received"))] := by
  rw [apiUploadHandler, if_neg (not_not_intro hmethod)]
  simp only [h, hpath, hconn, if_false]
  exact ⟨rfl, rfl⟩

/-- The ways out of the handler, in the order of its checks. -/
inductive UploadWay (fault : UploadFault) (req : UploadRequest) (w : World) : Prop where
  | method (hmethod : req.method ≠ .lit "POST")
  | form (hmethod : req.method = .lit "POST") (hform : (uploadForm fault req w.files).1 < 0)
  | noFile (hmethod : req.method = .lit "POST") (hform : ¬ (uploadForm fault req w.files).1 < 0)
      (hpath : (uploadForm fault req w.files).2.ctx.path = [])
  | noConnection (hmethod : req.method = .lit "POST")
      (hform : ¬ (uploadForm fault req w.files).1 < 0)
      (hpath : (uploadForm fault req w.files).2.ctx.path ≠ [])
      (hconn : (saveConnection fault.connection w.db req.remoteAddr).1 = -1)
  | ok (hmethod : req.method = .lit "POST") (hform : ¬ (uploadForm fault req w.files).1 < 0)
      (hpath : (uploadForm fault req w.files).2.ctx.path ≠ [])
      (hconn : (saveConnection fault.connection w.db req.remoteAddr).1 ≠ -1)

/-- Every request takes one of them. -/
theorem uploadWay : UploadWay fault req w := by
  by_cases hmethod : req.method = .lit "POST"
  · by_cases hform : (uploadForm fault req w.files).1 < 0
    · exact .form hmethod hform
    · by_cases hpath : (uploadForm fault req w.files).2.ctx.path = []
      · exact .noFile hmethod hform hpath
      · by_cases hconn : (saveConnection fault.connection w.db req.remoteAddr).1 = -1
        · exact .noConnection hmethod hform hpath hconn
        · exact .ok hmethod hform hpath hconn
  · exact .method hmethod

/-- The files are those the form leaves, whatever is answered. -/
theorem apiUploadHandler_files (hmethod : req.method = .lit "POST") :
    (apiUploadHandler fault req w).files = (uploadForm fault req w.files).2.files := by
  rw [apiUploadHandler, if_neg (not_not_intro hmethod)]
  simp only
  split
  · rfl
  · split
    · rfl
    · split <;> rfl

end Handler

end Server

end SendingSystem
