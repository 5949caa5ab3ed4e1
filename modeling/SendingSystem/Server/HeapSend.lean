import SendingSystem.Lib.HeapArray
import SendingSystem.Server.ApiSend

/-!
# The text handler on the heap

`api_send_handler` and the functions of `http_json.c` as they are in C: the body is read
into a block of its own, cJSON's tree is another, from which the text and the path are
read where they are used, and the answer is built on the heap, saved and sent from
there. It refines the handler that works on values. However a request ends, all that was
allocated for it is released, once, and nothing is read after that.

## Main definitions

* `SendBlock`: What a block holds.
* `httpBuildJsonAt`, `httpSendBuiltJsonAt`, `httpSendErrorAt`: The functions of
  `http_json.c`.
* `answerSendAt`, `apiSendHandlerAt`: The handler.

## Theorems

* `triple_httpBuildJsonAt`: The body is the one of `httpBuildJson`.
* `apiSendHandlerAt_run`: The handler does what `apiSendHandler` does, and leaves the heap
  as it was.
-/

namespace SendingSystem

namespace Server

open CString CJson Heaps Heaps.Assertion

/-- What a block holds: bytes that are not a string yet, a string, an object that is
    being built, or a tree that was parsed. -/
inductive SendBlock where
  | buffer (bytes : List UInt8)
  | text (s : CStr)
  | built (members : List (List UInt8 × List UInt8))
  | parsed (item : CJson)

namespace SendBlock

/-- `char*`. -/
def stringKind : Kind SendBlock CStr where
  put := .text
  get
    | .text s => some s
    | _ => none
  get_put _ := rfl

/-- `cJSON*`, an object that is being built. -/
def objectKind : Kind SendBlock (List (List UInt8 × List UInt8)) where
  put := .built
  get
    | .built members => some members
    | _ => none
  get_put _ := rfl

/-- `cJSON*`, a tree that was parsed. -/
def treeKind : Kind SendBlock CJson where
  put := .parsed
  get
    | .parsed item => some item
    | _ => none
  get_put _ := rfl

end SendBlock

open SendBlock

section Programs

variable (placement : Placement SendBlock)

/-- `cJSON_AddStringToObject`, which takes a null object in its stride. -/
def addStringAt (fails : Bool) (root : Option Addr) (name : List UInt8) (value : CStr) :
    Prog SendBlock Unit :=
  match root with
  | none => pure ()
  | some _ => do
    let members ← loadAs objectKind root
    store root (.built (members ++ if fails then [] else [(name, value.bytes)]))

/-- `cJSON_PrintUnformatted`. -/
def printAt (fails : Bool) (root : Option Addr) : Prog SendBlock (Option Addr) :=
  match root with
  | none => pure none
  | some _ => do
    let members ← loadAs objectKind root
    malloc placement fails (.text (heapString (printObject members)))

/-- `http_build_json`. -/
def httpBuildJsonAt (fault : BuildFault) (type data : CStr) : Prog SendBlock (Option Addr) := do
  let root ← malloc placement fault.object (.built [])
  addStringAt fault.type root (ascii "type") type
  addStringAt fault.data root (ascii "data") data
  let json ← printAt placement fault.print root
  free root
  pure json

/-- The string a pointer points to, if it is not null. -/
def stringAt (p : Option Addr) : Prog SendBlock (Option CStr) :=
  match p with
  | none => pure none
  | some _ => do
    let s ← loadAs stringKind p
    pure (some s)

/-- `http_send_built_json`. -/
def httpSendBuiltJsonAt (status : Int) (json : Option Addr) : Prog SendBlock Response := do
  let text ← stringAt json
  pure (httpSendBuiltJson status text)

/-- `http_send_json`. -/
def httpSendJsonAt (fault : BuildFault) (status : Int) (type data : CStr) :
    Prog SendBlock Response := do
  let json ← httpBuildJsonAt placement fault type data
  let r ← httpSendBuiltJsonAt status json
  free json
  pure r

/-- `http_send_error`. -/
def httpSendErrorAt (fault : BuildFault) (status : Int) (msg : CStr) : Prog SendBlock Response :=
  httpSendJsonAt placement fault status (.lit "error") msg

/-- The end of a request that is refused. -/
def refuseAt (fault : SendFault) (w : World) (status : Int) (msg : CStr) :
    Prog SendBlock World := do
  let r ← httpSendErrorAt placement fault.build status msg
  pure (w.send r)

/-- The end of a request that passed the checks. The text and the path are read from the
    tree, the request from its body. -/
def answerSendAt (fault : SendFault) (w : World) (connectionId : Int) (body root : Option Addr) :
    Prog SendBlock World := do
  let item ← loadAs treeKind root
  let data ← ofOption (stringValue (getObjectItem item (ascii "data")))
  let path := stringValue (getObjectItem item (ascii "saveToPath"))
  let text ← loadAs stringKind body
  let delivered := deliver fault w.files ⟨text, data, path⟩
  let responseJson ← httpBuildJsonAt placement fault.build delivered.2.2.1 delivered.2.2.2
  let request ← loadAs stringKind body
  let response ← stringAt responseJson
  let db :=
    if connectionId ≠ -1 then
      (saveMessage fault.message w.db ⟨connectionId, statusId delivered.2.1,
        MessageTypeId.rawData.id, MessageDirectionId.inbound.id, response,
        some fault.sendingTime, some request⟩).2
    else w.db
  let r ← httpSendBuiltJsonAt delivered.2.1 responseJson
  free responseJson
  free body
  free root
  pure (World.send { w with db := db, files := delivered.1 } r)

/-- `api_send_handler` once the body was read into its block. -/
def parseSendAt (parse : CStr → Option CJson) (fault : SendFault) (w : World)
    (connectionId : Int) (body : Option Addr) : Prog SendBlock World := do
  let text ← loadAs stringKind body
  match parse text with
  | none => do
    free body
    refuseAt placement fault w 400 (.lit "JSON parse error")
  | some item => do
    let root ← malloc placement false (.parsed item)
    let item ← loadAs treeKind root
    match stringValue (getObjectItem item (ascii "data")) with
    | none => do
      free root
      free body
      refuseAt placement fault w 400 (.lit "Missing 'data'")
    | some _ => answerSendAt placement fault w connectionId body root

/-- `api_send_handler`. -/
def apiSendHandlerAt (parse : CStr → Option CJson) (fault : SendFault) (req : SendRequest)
    (w : World) : Prog SendBlock World :=
  if req.method ≠ .lit "POST" then refuseAt placement fault w 405 (.lit "POST required")
  else
    let connection := saveConnection fault.connection w.db req.remoteAddr
    let w := { w with db := connection.2 }
    let contentLength := contentLength req
    if contentLength ≤ 0 ∨ maxMessageSize < contentLength then
      refuseAt placement fault w 400 (.lit "Invalid Content-Length")
    else do
      let body ← malloc placement fault.malloc (.buffer [])
      match body with
      | none => refuseAt placement fault w 500 (.lit "Memory error")
      | some _ => do
        let read := mgRead req.body contentLength
        store body (.buffer read.2)
        if read.1 ≠ contentLength then do
          free body
          refuseAt placement fault w 400 (.lit "Incomplete body")
        else do
          store body (.text (heapString read.2))
          parseSendAt placement parse fault w connection.1 body

end Programs

/-- A pointer to a string of its own, or a null pointer for none. -/
def ownsString (p : Option Addr) (text : Option CStr) : Assertion SendBlock :=
  owns p (text.map SendBlock.text)

section Triples

variable {placement : Placement SendBlock}

theorem triple_loadText {p : Option Addr} {text : CStr} :
    Triple (owns p (some (SendBlock.text text))) (loadAs stringKind p)
      (fun x => fact (x = text) * owns p (some (.text text))) := by
  have hload : Triple (owns p (some (stringKind.put text))) (loadAs stringKind p)
      (fun x => fact (x = text) * owns p (some (stringKind.put text))) := triple_loadAs
  exact hload

theorem triple_loadBuilt {p : Option Addr} {members : List (List UInt8 × List UInt8)} :
    Triple (owns p (some (SendBlock.built members))) (loadAs objectKind p)
      (fun x => fact (x = members) * owns p (some (.built members))) := by
  have hload : Triple (owns p (some (objectKind.put members))) (loadAs objectKind p)
      (fun x => fact (x = members) * owns p (some (objectKind.put members))) := triple_loadAs
  exact hload

theorem triple_loadParsed {p : Option Addr} {item : CJson} :
    Triple (owns p (some (SendBlock.parsed item))) (loadAs treeKind p)
      (fun x => fact (x = item) * owns p (some (.parsed item))) := by
  have hload : Triple (owns p (some (treeKind.put item))) (loadAs treeKind p)
      (fun x => fact (x = item) * owns p (some (treeKind.put item))) := triple_loadAs
  exact hload

/-- A member is added to the object, unless it cannot be allocated. -/
theorem triple_addStringAt (fails : Bool) {a : Addr} (members : List (List UInt8 × List UInt8))
    (name : List UInt8) (value : CStr) :
    Triple (owns (some a) (some (SendBlock.built members))) (addStringAt fails (some a) name value)
      (fun _ => owns (some a)
        (some (.built (members ++ if fails then [] else [(name, value.bytes)])))) := by
  refine triple_loadBuilt.bind fun l => Triple.at_fact fun hl => ?_
  rw [hl]
  exact triple_store (some a)

/-- The object is printed into a new block, unless there is no memory for it. -/
theorem triple_printAt (fails : Bool) {a : Addr} (members : List (List UInt8 × List UInt8)) :
    Triple (owns (some a) (some (SendBlock.built members))) (printAt placement fails (some a))
      (fun p => owns p (if fails then none else some (.text (heapString (printObject members)))) *
        owns (some a) (some (.built members))) := by
  refine triple_loadBuilt.bind fun l => Triple.at_fact fun hl => ?_
  rw [hl]
  exact ((triple_malloc fails).frame _).weaken (one_mul _).ge fun _ => le_rfl

/-- The body is the one of `httpBuildJson`, in a block of its own. -/
theorem triple_httpBuildJsonAt (fault : BuildFault) (type data : CStr) :
    Triple 1 (httpBuildJsonAt placement fault type data)
      (fun p => ownsString p (httpBuildJson fault type data)) := by
  refine (triple_malloc fault.object).bind fun root => ?_
  unfold httpBuildJson ownsString
  cases hobject : fault.object with
  | true =>
      cases root with
      | none => exact (triple_free none none).bind fun _ => Triple.pure owns_null.ge
      | some a => exact Triple.at_bot
  | false =>
      cases root with
      | none => exact Triple.at_bot
      | some a =>
          refine (triple_addStringAt fault.type [] _ type).bind fun _ =>
            (triple_addStringAt fault.data _ _ data).bind fun _ =>
            (triple_printAt fault.print _).bind fun json => ?_
          rw [mul_comm]
          refine (triple_free (some a) _).bind_frame fun _ => Triple.pure (le_of_eq ?_)
          rw [one_mul]
          cases fault.print <;> rfl

/-- The string is read. -/
theorem triple_stringAt (p : Option Addr) (text : Option CStr) :
    Triple (ownsString p text) (stringAt p) (fun x => fact (x = text) * ownsString p text) := by
  unfold ownsString
  cases p with
  | none =>
      cases text with
      | none =>
          refine Triple.pure (le_of_eq ?_)
          rw [fact_of rfl, one_mul]
      | some s => exact Triple.at_bot
  | some a =>
      cases text with
      | none => exact Triple.at_bot
      | some s =>
          refine triple_loadText.bind fun x => Triple.at_fact fun hx => Triple.pure (le_of_eq ?_)
          rw [hx, fact_of rfl, one_mul]
          rfl

/-- A body that was built is sent. -/
theorem triple_httpSendBuiltJsonAt (status : Int) (p : Option Addr) (text : Option CStr) :
    Triple (ownsString p text) (httpSendBuiltJsonAt status p)
      (fun r => fact (r = httpSendBuiltJson status text) * ownsString p text) := by
  refine (triple_stringAt p text).bind fun x => Triple.at_fact fun hx => Triple.pure (le_of_eq ?_)
  rw [hx, fact_of rfl, one_mul]

/-- A request that is refused is answered, and what the answer was built in released. -/
theorem triple_refuseAt (fault : SendFault) (w : World) (status : Int) (msg : CStr) :
    Triple 1 (refuseAt placement fault w status msg)
      (fun w' => fact (w' = w.send (httpSendError fault.build status msg))) := by
  have hsend : Triple 1 (httpSendErrorAt placement fault.build status msg)
      (fun r => fact (r = httpSendError fault.build status msg)) := by
    refine (triple_httpBuildJsonAt fault.build _ msg).bind fun json =>
      (triple_httpSendBuiltJsonAt status json _).bind fun r => Triple.at_fact fun hr =>
      (triple_free json _).bind fun _ => Triple.pure (fact_of hr).ge
  refine hsend.bind fun r => ?_
  rw [← mul_one (fact (r = _))]
  refine Triple.at_fact fun hr => Triple.pure (fact_of ?_).ge
  rw [hr]

/-- A request that passed the checks is answered, and all of it released. -/
theorem triple_answerSendAt (fault : SendFault) (w : World) (connectionId : Int)
    {body root : Option Addr} (text : CStr) (item : CJson) {data : List UInt8}
    (hdata : stringValue (getObjectItem item (ascii "data")) = some data) :
    Triple (owns body (some (SendBlock.text text)) * owns root (some (.parsed item)))
      (answerSendAt placement fault w connectionId body root)
      (fun w' => fact (w' = answerSend fault w connectionId
        ⟨text, data, stringValue (getObjectItem item (ascii "saveToPath"))⟩)) := by
  rw [mul_comm]
  refine triple_loadParsed.bind_frame fun item' => ?_
  rw [mul_assoc]
  refine Triple.at_fact fun hitem => ?_
  rw [hitem, hdata]
  refine (triple_ofOption data).bind_one fun data' => Triple.at_fact fun hdata' => ?_
  rw [hdata', mul_comm]
  refine triple_loadText.bind_frame fun request => ?_
  rw [mul_assoc]
  refine Triple.at_fact fun hrequest => ?_
  rw [hrequest]
  refine (triple_httpBuildJsonAt fault.build _ _).bind_one fun json => ?_
  -- The row is written from the body and from what was built.
  rw [mul_comm, mul_assoc]
  refine triple_loadText.bind_frame fun request' => ?_
  rw [mul_assoc]
  refine Triple.at_fact fun hrequest' => ?_
  rw [hrequest', ← mul_assoc, mul_comm]
  refine (triple_stringAt json _).bind_frame fun response => ?_
  rw [mul_assoc]
  refine Triple.at_fact fun hresponse => ?_
  rw [hresponse]
  refine (triple_httpSendBuiltJsonAt _ json _).bind_frame fun r => ?_
  rw [mul_assoc]
  refine Triple.at_fact fun hr => ?_
  -- What is left are three blocks.
  refine (triple_free json _).bind_frame fun _ => ?_
  rw [one_mul]
  refine (triple_free body _).bind_frame fun _ => ?_
  rw [one_mul]
  refine (triple_free root _).bind fun _ => Triple.pure (fact_of ?_).ge
  rw [hr]
  rfl

/-- The body is parsed, and the tree released with it. -/
theorem triple_parseSendAt {parse : CStr → Option CJson} {fault : SendFault} {req : SendRequest}
    (w : World) (connectionId : Int) (body : Option Addr)
    (hlength : ¬ (contentLength req ≤ 0 ∨ maxMessageSize < contentLength req))
    (hmalloc : fault.malloc = false)
    (hread : (mgRead req.body (contentLength req)).1 = contentLength req) :
    Triple (owns body (some (SendBlock.text (heapString (mgRead req.body (contentLength req)).2))))
      (parseSendAt placement parse fault w connectionId body)
      (fun w' => fact (w' = match readRequest parse fault.malloc req with
        | .error (status, msg) => w.send (httpSendError fault.build status msg)
        | .ok accepted => answerSend fault w connectionId accepted)) := by
  unfold readRequest
  simp only [if_neg hlength, hmalloc, Bool.false_eq_true, if_false, if_neg (not_not_intro hread)]
  refine triple_loadText.bind fun text => Triple.at_fact fun htext => ?_
  rw [htext]
  cases hparse : parse (heapString (mgRead req.body (contentLength req)).2) with
  | none => exact (triple_free body _).bind fun _ => triple_refuseAt fault w _ _
  | some item =>
      simp only
      refine (triple_malloc false).bind_one fun root => ?_
      refine triple_loadParsed.bind_frame fun item' => ?_
      rw [mul_assoc]
      refine Triple.at_fact fun hitem => ?_
      rw [hitem]
      cases hdata : stringValue (getObjectItem item (ascii "data")) with
      | none =>
          refine (triple_free root _).bind_frame fun _ => ?_
          rw [one_mul]
          exact (triple_free body _).bind fun _ => triple_refuseAt fault w _ _
      | some data =>
          rw [mul_comm]
          exact triple_answerSendAt fault w connectionId _ item hdata

/-- The handler is the one that works on values. -/
theorem triple_apiSendHandlerAt (parse : CStr → Option CJson) (fault : SendFault)
    (req : SendRequest) (w : World) :
    Triple 1 (apiSendHandlerAt placement parse fault req w)
      (fun w' => fact (w' = apiSendHandler parse fault req w)) := by
  unfold apiSendHandlerAt apiSendHandler
  by_cases hmethod : req.method ≠ .lit "POST"
  · rw [if_pos hmethod, if_pos hmethod]
    exact triple_refuseAt fault w _ _
  · rw [if_neg hmethod, if_neg hmethod]
    simp only
    by_cases hlength : contentLength req ≤ 0 ∨ maxMessageSize < contentLength req
    · unfold readRequest
      simp only [if_pos hlength]
      exact triple_refuseAt fault _ _ _
    · rw [if_neg hlength]
      refine (triple_malloc fault.malloc).bind fun body => ?_
      cases hmalloc : fault.malloc with
      | true =>
          cases body with
          | some a => exact Triple.at_bot
          | none =>
              unfold readRequest
              simp only [if_neg hlength, if_true]
              exact triple_refuseAt fault _ _ _
      | false =>
          cases body with
          | none => exact Triple.at_bot
          | some a =>
              refine (triple_store (some a)).bind fun _ => ?_
              by_cases hread : (mgRead req.body (contentLength req)).1 ≠ contentLength req
              · unfold readRequest
                simp only [if_neg hlength, if_pos hread, Bool.false_eq_true, if_false]
                exact (triple_free (some a) _).bind fun _ => triple_refuseAt fault _ _ _
              · rw [if_neg hread]
                refine (triple_store (some a)).bind fun _ => ?_
                rw [← hmalloc]
                exact triple_parseSendAt _ _ _ hlength hmalloc (not_not.mp hread)

end Triples

end Server

end SendingSystem
