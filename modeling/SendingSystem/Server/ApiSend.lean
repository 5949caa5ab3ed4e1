import SendingSystem.Server.SavePath
import SendingSystem.Server.World

/-!
# `POST /api/send`

`api_send_handler`: a text message in a JSON body. After the method check the
peer's row is looked up; then come the checks of the request, each with its own
answer; then the text is logged or saved, the history row is written and the
response sent. The checks are `readRequest`, in the order of the source, with
the status and message of the first that fails.

The JSON parser is a parameter, a partial function from C strings: the handler
hands it the body up to its first NUL.

## Main definitions

* `atoll`: The value of a `Content-Length` header.
* `SendRequest`, `SendFault`: A request, and what fails while it is handled.
* `readRequest`: The checks, in order.
* `PassesChecks`: What the checks ask for.
* `saveTextToFile`: Save the text under a sanitised name.
* `apiSendHandler`: The handler.

## Theorems

* `readRequest_ok_iff`: Which requests are accepted, and as what.
* `needSave_iff`, `deliver_ok_iff`: When the text is saved, and when that fails.
* `apiSendHandler_method`: What another method is answered.
* `apiSendHandler_rejected`, `apiSendHandler_accepted`: What `POST` is answered.
* `apiSendHandler_status`: The status of the answer.
* `readRequest_rejects_iff`: Which requests are answered 400.
* `readRequest_error_status`, `readRequest_error_texts`: What a failed check answers.
-/

namespace SendingSystem

namespace Server

open CString CJson

/-- `isspace` in the C locale. -/
def isSpace (b : UInt8) : Bool := b = 32 || (9 ≤ b && b ≤ 13)

/-- A decimal digit. -/
def isDigit (b : UInt8) : Bool := 48 ≤ b && b ≤ 57

/-- The number that leading digits spell. -/
def digitsValue (l : List UInt8) : Int :=
  (l.takeWhile isDigit).foldl (fun n b => 10 * n + ((b.toNat : Int) - 48)) 0

/-- A value brought into the range of `long long`, as `strtoll` does. -/
def saturate (x : Int) : Int := max (-9223372036854775808) (min x 9223372036854775807)

/-- `atoll`: blanks, an optional sign, digits. -/
def atoll (s : CStr) : Int :=
  match s.bytes.dropWhile isSpace with
  | 45 :: l => saturate (-digitsValue l)
  | 43 :: l => saturate (digitsValue l)
  | l => saturate (digitsValue l)

/-- What the handler reads of a request. `body` is what the connection delivers;
    a connection that fails delivers nothing. -/
structure SendRequest where
  method : CStr
  remoteAddr : CStr
  contentLength : Option CStr
  body : Option (List UInt8)

/-- What fails while the request is handled, and the time it is handled at. -/
structure SendFault where
  connection : ConnectionFault
  malloc : Bool
  regcomp : Bool
  file : FileFault
  build : BuildFault
  message : MessageFault
  sendingTime : CStr

/-- Nothing fails. -/
def SendFault.none (sendingTime : CStr) : SendFault :=
  ⟨.none, false, true, .none, .none, .none, sendingTime⟩

/-- `mg_read(connection, body, n)`: the count, `-1` on an error, and the bytes. -/
def mgRead (body : Option (List UInt8)) (n : Int) : Int × List UInt8 :=
  match body with
  | none => (-1, [])
  | some l => ((l.take n.toNat).length, l.take n.toNat)

/-- A request that passed the checks: `body`, `data` and the string value of
    `save_to_item`, if it has one. -/
structure SendAccepted where
  body : CStr
  data : List UInt8
  saveToPath : Option (List UInt8)

/-- `content_length`. -/
def contentLength (req : SendRequest) : Int :=
  match req.contentLength with
  | none => 0
  | some header => atoll header

/-- The checks between the peer's row and the answer, with the status and message
    of the first that fails. -/
def readRequest (parse : CStr → Option CJson) (malloc : Bool) (req : SendRequest) :
    Except (Int × CStr) SendAccepted :=
  let contentLength := contentLength req
  if contentLength ≤ 0 ∨ maxMessageSize < contentLength then
    .error (400, .lit "Invalid Content-Length")
  else if malloc then .error (500, .lit "Memory error")
  else
    let read := mgRead req.body contentLength
    if read.1 ≠ contentLength then .error (400, .lit "Incomplete body")
    else
      let body := heapString read.2
      match parse body with
      | none => .error (400, .lit "JSON parse error")
      | some root =>
        match stringValue (getObjectItem root (ascii "data")) with
        | none => .error (400, .lit "Missing 'data'")
        | some data =>
          .ok ⟨body, data, stringValue (getObjectItem root (ascii "saveToPath"))⟩

/-- `save_text_to_file(data, save_to_path, NULL)`: `none` when the file cannot be
    opened, which is its `-1`. -/
def saveTextToFile (regcomp : Bool) (fault : FileFault) (files : Files) (data saveToPath : CStr) :
    Option Files :=
  storeFile fault files (fullPath regcomp (some saveToPath)) data.bytes

/-- `need_save`: the value of `saveToPath` when it is a string that is not empty. -/
def needSave (accepted : SendAccepted) : Option CStr :=
  match accepted.saveToPath with
  | none => none
  | some path => if (heapString path).bytes = [] then none else some (heapString path)

/-- What logging or saving the text comes to: the files, the status, and the
    type and data of the response. -/
def deliver (fault : SendFault) (files : Files) (accepted : SendAccepted) :
    Files × Int × CStr × CStr :=
  match needSave accepted with
  | none => (files, 200, .lit "message", .lit "OK")
  | some path =>
    match saveTextToFile fault.regcomp fault.file files (heapString accepted.data) path with
    | some files' => (files', 200, .lit "message", .lit "File saved")
    | none => (files, 500, .lit "error", .lit "Cannot save file")

/-- `response_status == 200 ? MESSAGE_STATUS_SUCCESS : MESSAGE_STATUS_FAILED`. -/
def statusId (status : Int) : Int :=
  if status = 200 then MessageStatusId.success.id else MessageStatusId.failed.id

/-- Answer an accepted request: deliver the text, write the history row when the
    peer has a row, send the response. -/
def answerSend (fault : SendFault) (w : World) (connectionId : Int) (accepted : SendAccepted) :
    World :=
  let delivered := deliver fault w.files accepted
  let responseStatus := delivered.2.1
  let responseJson := httpBuildJson fault.build delivered.2.2.1 delivered.2.2.2
  let db :=
    -- Without a row for the peer there is no history row, and the answer is the same.
    if connectionId ≠ -1 then
      (saveMessage fault.message w.db ⟨connectionId, statusId responseStatus,
        MessageTypeId.rawData.id, MessageDirectionId.inbound.id, responseJson,
        some fault.sendingTime, some accepted.body⟩).2
    else w.db
  World.send { w with db := db, files := delivered.1 }
    (httpSendBuiltJson responseStatus responseJson)

/-- `api_send_handler`. -/
def apiSendHandler (parse : CStr → Option CJson) (fault : SendFault) (req : SendRequest)
    (w : World) : World :=
  if req.method ≠ .lit "POST" then w.send (httpSendError fault.build 405 (.lit "POST required"))
  else
    -- The peer's row comes before the checks of the request.
    let connection := saveConnection fault.connection w.db req.remoteAddr
    let w := { w with db := connection.2 }
    match readRequest parse fault.malloc req with
    | .error (status, msg) => w.send (httpSendError fault.build status msg)
    | .ok accepted => answerSend fault w connection.1 accepted

/-- A failed check answers 400, or 500 when there is no memory for the body. -/
theorem readRequest_error_status {parse : CStr → Option CJson} {malloc : Bool} {req : SendRequest}
    {status : Int} {msg : CStr} (h : readRequest parse malloc req = .error (status, msg)) :
    status = 400 ∨ (status = 500 ∧ malloc = true) := by
  unfold readRequest at h
  simp only at h
  -- The checks in the order of the handler.
  split at h
  · simp only [Except.error.injEq, Prod.mk.injEq] at h
    exact Or.inl h.1.symm
  · split at h
    · next hmalloc =>
        simp only [Except.error.injEq, Prod.mk.injEq] at h
        exact Or.inr ⟨h.1.symm, hmalloc⟩
    · split at h
      · simp only [Except.error.injEq, Prod.mk.injEq] at h
        exact Or.inl h.1.symm
      · split at h
        · simp only [Except.error.injEq, Prod.mk.injEq] at h
          exact Or.inl h.1.symm
        · split at h
          · simp only [Except.error.injEq, Prod.mk.injEq] at h
            exact Or.inl h.1.symm
          · simp only [reduceCtorEq] at h

/-- The texts a failed check answers with are short and ASCII. -/
theorem readRequest_error_texts {parse : CStr → Option CJson} {malloc : Bool} {req : SendRequest}
    {status : Int} {msg : CStr} (h : readRequest parse malloc req = .error (status, msg)) :
    ShortAscii (.lit "error") msg := by
  unfold readRequest at h
  simp only at h
  repeat' split at h
  all_goals
    simp only [Except.error.injEq, Prod.mk.injEq, reduceCtorEq] at h
  all_goals
    rw [← h.2]
    decide

/-- The request passes the checks, or there is no memory to make them: a length
    in range and, if the body can be read at all, as many bytes, which parse to
    an object whose `data` is a string. -/
structure PassesChecks (parse : CStr → Option CJson) (malloc : Bool) (req : SendRequest) :
    Prop where
  positive : 0 < contentLength req
  bounded : contentLength req ≤ maxMessageSize
  body : malloc = false → ∃ l root data, req.body = some l ∧
    (l.take (contentLength req).toNat).length = contentLength req ∧
    parse (heapString (l.take (contentLength req).toNat)) = some root ∧
    getObjectItem root (ascii "data") = some (.string data)

/-- Which requests are accepted, and as what. -/
theorem readRequest_ok_iff {parse : CStr → Option CJson} {malloc : Bool} {req : SendRequest}
    {accepted : SendAccepted} :
    readRequest parse malloc req = .ok accepted ↔
      malloc = false ∧ 0 < contentLength req ∧ contentLength req ≤ maxMessageSize ∧
      ∃ l root data, req.body = some l ∧
        (l.take (contentLength req).toNat).length = contentLength req ∧
        parse (heapString (l.take (contentLength req).toNat)) = some root ∧
        getObjectItem root (ascii "data") = some (.string data) ∧
        accepted = ⟨heapString (l.take (contentLength req).toNat), data,
          stringValue (getObjectItem root (ascii "saveToPath"))⟩ := by
  unfold readRequest
  simp only
  by_cases hrange : contentLength req ≤ 0 ∨ maxMessageSize < contentLength req
  · rw [if_pos hrange]
    simp only [reduceCtorEq, false_iff]
    rintro ⟨_, hpos, hmax, _⟩
    omega
  · rw [if_neg hrange]
    rw [not_or] at hrange
    cases malloc with
    | true => simp only [if_true, reduceCtorEq, Bool.true_eq_false, false_and]
    | false =>
        simp only [Bool.false_eq_true, if_false, true_and]
        constructor
        · intro h
          refine ⟨by omega, by omega, ?_⟩
          by_cases hread : (mgRead req.body (contentLength req)).1 = contentLength req
          · rw [if_neg (not_not_intro hread)] at h
            cases hbody : req.body with
            | none =>
                simp only [hbody, mgRead] at hread
                omega
            | some l =>
                simp only [hbody, mgRead] at hread h
                cases hparse : parse (heapString (l.take (contentLength req).toNat)) with
                | none => simp only [hparse, reduceCtorEq] at h
                | some root =>
                    simp only [hparse] at h
                    cases hdata : stringValue (getObjectItem root (ascii "data")) with
                    | none => simp only [hdata, reduceCtorEq] at h
                    | some data =>
                        simp only [hdata, Except.ok.injEq] at h
                        exact ⟨l, root, data, rfl, hread, hparse, stringValue_eq_some.mp hdata,
                          h.symm⟩
          -- A short read answers an error.
          · rw [if_pos hread] at h
            simp only [reduceCtorEq] at h
        -- Conversely every test of the handler takes its good branch.
        · rintro ⟨_, _, l, root, data, hbody, hread, hparse, hdata, rfl⟩
          simp only [hbody, mgRead, hread, ne_eq, not_true_eq_false, if_false, hparse, hdata,
            stringValue]

/-- Which requests are accepted at all. -/
theorem readRequest_accepts_iff (parse : CStr → Option CJson) (malloc : Bool) (req : SendRequest) :
    (∃ accepted, readRequest parse malloc req = .ok accepted) ↔
      malloc = false ∧ PassesChecks parse malloc req := by
  constructor
  · rintro ⟨accepted, h⟩
    rcases readRequest_ok_iff.mp h with ⟨hmalloc, hpos, hmax, l, root, data, hl, hlen, hparse,
      hdata, _⟩
    exact ⟨hmalloc, hpos, hmax, fun _ => ⟨l, root, data, hl, hlen, hparse, hdata⟩⟩
  · rintro ⟨hmalloc, hpos, hmax, hbody⟩
    rcases hbody hmalloc with ⟨l, root, data, hl, hlen, hparse, hdata⟩
    exact ⟨_, readRequest_ok_iff.mpr
      ⟨hmalloc, hpos, hmax, l, root, data, hl, hlen, hparse, hdata, rfl⟩⟩

/-- Which requests are answered 400. -/
theorem readRequest_rejects_iff (parse : CStr → Option CJson) (malloc : Bool) (req : SendRequest) :
    (∃ msg, readRequest parse malloc req = .error (400, msg)) ↔
      ¬ PassesChecks parse malloc req := by
  cases malloc with
  | true =>
      -- Without memory nothing is read, so only the length counts.
      have hread : readRequest parse true req
          = if contentLength req ≤ 0 ∨ maxMessageSize < contentLength req then
              .error (400, .lit "Invalid Content-Length")
            else .error (500, .lit "Memory error") := rfl
      rw [hread]
      by_cases hrange : contentLength req ≤ 0 ∨ maxMessageSize < contentLength req
      · rw [if_pos hrange]
        refine ⟨fun _ hpass => ?_, fun _ => ⟨_, rfl⟩⟩
        have hpos := hpass.positive
        have hmax := hpass.bounded
        omega
      · rw [if_neg hrange]
        constructor
        · rintro ⟨msg, h⟩
          simp only [Except.error.injEq, Prod.mk.injEq] at h
          omega
        · intro hno
          exact absurd ⟨by omega, by omega, fun h => absurd h.symm Bool.false_ne_true⟩ hno
  | false =>
      -- With memory a request is accepted exactly when it passes.
      constructor
      · rintro ⟨msg, h⟩ ⟨hpos, hmax, hbody⟩
        rcases hbody rfl with ⟨l, root, data, hl, hlen, hparse, hdata⟩
        have hok := readRequest_ok_iff.mpr
          ⟨rfl, hpos, hmax, l, root, data, hl, hlen, hparse, hdata, rfl⟩
        rw [h] at hok
        simp only [reduceCtorEq] at hok
      · intro hno
        cases hread : readRequest parse false req with
        | ok accepted =>
            rcases readRequest_ok_iff.mp hread with
              ⟨_, hpos, hmax, l, root, data, hl, hlen, hparse, hdata, _⟩
            exact absurd ⟨hpos, hmax, fun _ => ⟨l, root, data, hl, hlen, hparse, hdata⟩⟩ hno
        | error e =>
            rcases e with ⟨status, msg⟩
            rcases readRequest_error_status hread with rfl | ⟨_, hmalloc⟩
            · exact ⟨msg, rfl⟩
            · exact absurd hmalloc Bool.false_ne_true

/-- The request names a file to save its text to: its body parses, and the value
    of `saveToPath` is a string with something before its first NUL. -/
def AsksToSave (parse : CStr → Option CJson) (req : SendRequest) : Prop :=
  ∃ l root path, req.body = some l ∧
    parse (heapString (l.take (contentLength req).toNat)) = some root ∧
    getObjectItem root (ascii "saveToPath") = some (.string path) ∧ truncate path ≠ []

/-- An accepted request is saved to a file if it names one. -/
theorem needSave_iff {parse : CStr → Option CJson} {malloc : Bool} {req : SendRequest}
    {accepted : SendAccepted} (h : readRequest parse malloc req = .ok accepted) :
    (∃ path, needSave accepted = some path) ↔ AsksToSave parse req := by
  rcases readRequest_ok_iff.mp h with ⟨_, _, _, l, root, data, hbody, _, hparse, _, rfl⟩
  unfold needSave
  simp only
  constructor
  · rintro ⟨path, hpath⟩
    cases hvalue : stringValue (getObjectItem root (ascii "saveToPath")) with
    | none => simp only [hvalue, reduceCtorEq] at hpath
    | some value =>
        simp only [hvalue] at hpath
        refine ⟨l, root, value, hbody, hparse, stringValue_eq_some.mp hvalue, fun hempty => ?_⟩
        have hnone : (heapString value).bytes = [] := hempty
        simp only [hnone, if_true, reduceCtorEq] at hpath
  · rintro ⟨l', root', path, hbody', hparse', hpath, hne⟩
    -- The body and its parse are determined by the request.
    rw [hbody, Option.some.injEq] at hbody'
    subst hbody'
    rw [hparse, Option.some.injEq] at hparse'
    subst hparse'
    rw [stringValue_eq_some.mpr hpath]
    simp only
    exact ⟨_, if_neg hne⟩

/-- The delivery fails exactly if the text is to be saved and the file cannot be
    opened. -/
theorem deliver_ok_iff (fault : SendFault) (files : Files) (accepted : SendAccepted) :
    (deliver fault files accepted).2.1 = 200 ↔
      needSave accepted = none ∨ fault.file.fopen = false := by
  unfold deliver
  -- Only a text to be saved can fail, and only where its file is opened.
  cases hsave : needSave accepted with
  | none => simp only [true_or]
  | some path =>
      simp only [reduceCtorEq, false_or, saveTextToFile, storeFile]
      cases fault.file.fopen with
      | true => simp only [if_true, Bool.true_eq_false, iff_false]; omega
      | false => simp only [Bool.false_eq_true, if_false]

/-- The texts a delivery answers with are short and ASCII. -/
theorem deliver_texts (fault : SendFault) (files : Files) (accepted : SendAccepted) :
    ShortAscii (deliver fault files accepted).2.2.1 (deliver fault files accepted).2.2.2 := by
  have hok : ShortAscii (.lit "message") (.lit "OK") := by decide
  have hsaved : ShortAscii (.lit "message") (.lit "File saved") := by decide
  have hfailed : ShortAscii (.lit "error") (.lit "Cannot save file") := by decide
  unfold deliver
  split
  · exact hok
  · split
    · exact hsaved
    · exact hfailed

section Handler

variable (parse : CStr → Option CJson) (fault : SendFault) (req : SendRequest) (w : World)

/-- Another method is answered 405, with nothing else done. -/
theorem apiSendHandler_method (h : req.method ≠ .lit "POST") :
    apiSendHandler parse fault req w
      = w.send (httpSendError fault.build 405 (.lit "POST required")) := by
  rw [apiSendHandler, if_pos h]

/-- A request that fails a check is answered so, the peer's row having been
    looked up before. -/
theorem apiSendHandler_rejected (hmethod : req.method = .lit "POST") {status : Int} {msg : CStr}
    (h : readRequest parse fault.malloc req = .error (status, msg)) :
    apiSendHandler parse fault req w
      = World.send { w with db := (saveConnection fault.connection w.db req.remoteAddr).2 }
          (httpSendError fault.build status msg) := by
  rw [apiSendHandler, if_neg (not_not_intro hmethod)]
  simp only [h]

/-- A request that passes the checks is answered by `answerSend`. -/
theorem apiSendHandler_accepted (hmethod : req.method = .lit "POST") {accepted : SendAccepted}
    (h : readRequest parse fault.malloc req = .ok accepted) :
    apiSendHandler parse fault req w
      = answerSend fault { w with db := (saveConnection fault.connection w.db req.remoteAddr).2 }
          (saveConnection fault.connection w.db req.remoteAddr).1 accepted := by
  rw [apiSendHandler, if_neg (not_not_intro hmethod)]
  simp only [h]

/-- The status of an accepted request is that of its delivery, 200 or 500. -/
theorem deliver_status (files : Files) (accepted : SendAccepted) :
    (deliver fault files accepted).2.1 = 200 ∨ (deliver fault files accepted).2.1 = 500 := by
  unfold deliver
  split
  · exact Or.inl rfl
  · split
    · exact Or.inl rfl
    · exact Or.inr rfl

theorem answerSend_sent (connectionId : Int) (accepted : SendAccepted) :
    (answerSend fault w connectionId accepted).sent
      = w.sent ++ [httpSendBuiltJson (deliver fault w.files accepted).2.1
          (httpBuildJson fault.build (deliver fault w.files accepted).2.2.1
            (deliver fault w.files accepted).2.2.2)] := rfl

/-- A `POST` is answered 400 when it fails the checks, otherwise 200 or 500. -/
theorem apiSendHandler_status (hmethod : req.method = .lit "POST") :
    ∃ r, (apiSendHandler parse fault req w).sent = w.sent ++ [r] ∧
      ((r.status = 400 ∧ ¬ PassesChecks parse fault.malloc req) ∨
        ((r.status = 200 ∨ r.status = 500) ∧ PassesChecks parse fault.malloc req)) := by
  have hrejects := readRequest_rejects_iff parse fault.malloc req
  cases hread : readRequest parse fault.malloc req with
  | error e =>
      rcases e with ⟨status, msg⟩
      refine ⟨httpSendError fault.build status msg, ?_, ?_⟩
      -- A failed check that is not answered 400 is the lack of memory.
      · rw [apiSendHandler_rejected parse fault req w hmethod hread]
        rfl
      · rw [httpSendError_status]
        rcases readRequest_error_status hread with rfl | ⟨rfl, _⟩
        · exact Or.inl ⟨rfl, hrejects.mp ⟨msg, hread⟩⟩
        · refine Or.inr ⟨Or.inr rfl, ?_⟩
          by_contra hno
          rcases hrejects.mpr hno with ⟨msg', h⟩
          rw [hread] at h
          simp only [Except.error.injEq, Prod.mk.injEq] at h
          omega
  | ok accepted =>
      refine ⟨httpSendBuiltJson (deliver fault w.files accepted).2.1
        (httpBuildJson fault.build (deliver fault w.files accepted).2.2.1
          (deliver fault w.files accepted).2.2.2), ?_, Or.inr ⟨?_, ?_⟩⟩
      · rw [apiSendHandler_accepted parse fault req w hmethod hread]
        exact answerSend_sent ..
      · exact deliver_status fault w.files accepted
      · by_contra hno
        rcases hrejects.mpr hno with ⟨msg, h⟩
        rw [hread] at h
        simp only [reduceCtorEq] at h

end Handler

end Server

end SendingSystem
