import SendingSystem.Lib.JsonSchema
import SendingSystem.Server.Wire

/-!
# `GET /api/openapi.json`

`api_openapi.c`: a tree is built from a catalogue of endpoints and printed. An endpoint
goes into the item of its path, which is looked up without regard to case and made if
there is none. What else is in the document are constants and the address in the
`Host` header, cut to what fits the buffer.

The catalogue is a parameter of what is built, as it grows with every handler; so is
cJSON's parser, which is given the texts of request schemas. Of the allocations only
that of the printed text may fail.

## Main definitions

* `ApiEndpoint`, `kEndpoints`: A row of the catalogue, and the catalogue.
* `addResponse`, `buildOperation`: The description of one endpoint.
* `addEndpoint`, `document`: All of them.
* `apiOpenapiHandler`: The handler.
* `CaseConsistent`: A catalogue in which paths do not differ in case only.
* `GetsAndPosts`: A catalogue of the methods that can be described.
* `Documented`: An answer is as the document says.

## Theorems

* `item_addPaths`: What is under a path.
* `operation_listed`: What is under a path and an operation, for any catalogue.
* `openapi_lists`: What is under a path and a method.
* `buildOperation_responses`: The statuses an operation lists, and their schemas.
* `kEndpoints_resolve`: Every reference of the document leads to a schema.
* `answers_documented`: The handlers answer as the document says.
-/

namespace SendingSystem

namespace Server

open CString CJson

/-- `ApiEndpoint`. -/
structure ApiEndpoint where
  requestMethod : CStr
  endpointPath : CStr
  summary : CStr
  requestContentType : Option CStr
  requestSchemaJson : Option CStr
  successSchemaReference : Option CStr

/-- `k_endpoints`. -/
def kEndpoints : List ApiEndpoint := [
  { requestMethod := .lit "POST"
    endpointPath := .lit "/api/send"
    summary := .lit ("Send a text message. If saveToPath is set and non-empty, the " ++
      "server also writes it to SAVE_DIR/<sanitized_name>.")
    requestContentType := some (.lit "application/json")
    requestSchemaJson := some (.lit ("\x7b" ++
      "\"type\":\"object\"," ++
      "\"properties\":\x7b" ++
        "\"data\":\x7b\"type\":\"string\",\"minLength\":1\x7d," ++
        "\"saveToPath\":\x7b\"type\":\"string\"\x7d" ++
      "\x7d," ++
      "\"required\":[\"data\"]" ++
      "\x7d"))
    successSchemaReference := some (.lit "#/components/schemas/MessageResponse") },
  { requestMethod := .lit "POST"
    endpointPath := .lit "/api/upload"
    summary := .lit ("Upload a file as multipart/form-data. The file is streamed to " ++
      "SAVE_DIR/<sanitized_name>; memory usage is independent of size.")
    requestContentType := some (.lit "multipart/form-data")
    requestSchemaJson := some (.lit ("\x7b" ++
      "\"type\":\"object\"," ++
      "\"properties\":\x7b" ++
        "\"file\":\x7b\"type\":\"string\",\"format\":\"binary\"\x7d" ++
      "\x7d," ++
      "\"required\":[\"file\"]" ++
      "\x7d"))
    successSchemaReference := some (.lit "#/components/schemas/MessageResponse") },
  { requestMethod := .lit "GET"
    endpointPath := .lit "/api/openapi.json"
    summary := .lit "This document: an OpenAPI 3.1 description of the public API."
    requestContentType := none
    requestSchemaJson := none
    successSchemaReference := none }]

/-- `k_error_schema_reference`. -/
def kErrorSchemaReference : CStr := .lit "#/components/schemas/ErrorResponse"

/-- `cJSON_AddItemToObject`. -/
def addItemToObject (o : CJson) (name : List UInt8) (item : CJson) : CJson :=
  match o with
  | .object members => .object (members ++ [(name, item)])
  | v => v

/-- `cJSON_AddStringToObject`. -/
def addStringToObject (o : CJson) (name : String) (s : CStr) : CJson :=
  addItemToObject o (ascii name) (.string s.bytes)

/-- An object with one member. -/
def single (name : List UInt8) (item : CJson) : CJson := addItemToObject (.object []) name item

/-- `add_response`. -/
def addResponse (responses : CJson) (statusCode : String) (description : CStr)
    (schemaReference : Option CStr) : CJson :=
  let response := addStringToObject (.object []) "description" description
  let response :=
    match schemaReference with
    | none => response
    | some reference => addItemToObject response (ascii "content")
        (single (ascii "application/json") (single (ascii "schema")
          (addStringToObject (.object []) "$ref" reference)))
  addItemToObject responses (ascii statusCode) response

/-- `build_operation`. -/
def buildOperation (parse : CStr → Option CJson) (endpoint : ApiEndpoint) : CJson :=
  let operation := addStringToObject (.object []) "summary" endpoint.summary
  let operation :=
    match endpoint.requestContentType with
    | none => operation
    | some contentType =>
      -- A schema that does not parse is left out.
      let mediaType :=
        match endpoint.requestSchemaJson.bind parse with
        | none => .object []
        | some schema => single (ascii "schema") schema
      addItemToObject operation (ascii "requestBody")
        (addItemToObject (single (ascii "required") (.bool true)) (ascii "content")
          (single contentType.bytes mediaType))
  let responses := addResponse (.object []) "200" (.lit "Success") endpoint.successSchemaReference
  let responses := addResponse responses "400" (.lit "Bad request") (some kErrorSchemaReference)
  let responses :=
    addResponse responses "405" (.lit "Method not allowed") (some kErrorSchemaReference)
  let responses := addResponse responses "500" (.lit "Internal error") (some kErrorSchemaReference)
  addItemToObject operation (ascii "responses") responses

/-- One of the two schemas of `add_components`, with its examples. -/
def responseSchema (type data : CStr) : CJson :=
  let property := fun (sample : CStr) => addStringToObject
    (addStringToObject (.object []) "type" (.lit "string")) "example" sample
  let schema := addStringToObject (.object []) "type" (.lit "object")
  let schema := addItemToObject schema (ascii "properties")
    (addItemToObject (single (ascii "type") (property type)) (ascii "data") (property data))
  addItemToObject schema (ascii "required")
    (.array [.string (ascii "type"), .string (ascii "data")])

/-- `components` of `add_components`. -/
def components : CJson :=
  single (ascii "schemas") (addItemToObject
    (single (ascii "MessageResponse") (responseSchema (.lit "message") (.lit "OK")))
    (ascii "ErrorResponse") (responseSchema (.lit "error") (.lit "Invalid Content-Length")))

/-- `build_server_url`, with the capacity of its buffer. -/
def buildServerUrl (host : Option CStr) (bufferCapacity : Nat) : List UInt8 :=
  let scheme := if sslEncrypt ≠ 0 then ascii "https" else ascii "http"
  match host with
  | none => snprintf bufferCapacity
      (scheme ++ ascii "://127.0.0.1:" ++ decimal connectionPort.toNat)
  | some header =>
    if header.bytes = [] then snprintf bufferCapacity
      (scheme ++ ascii "://127.0.0.1:" ++ decimal connectionPort.toNat)
    else snprintf bufferCapacity (scheme ++ ascii "://" ++ header.bytes)

/-- `operation_name`. -/
def operationName (endpoint : ApiEndpoint) : List UInt8 :=
  if endpoint.requestMethod.bytes.head? = some 71 then ascii "get" else ascii "post"

/-- The item of a name, which is made if there is none, is changed where it stands. -/
def alterItem (name : List UInt8) (change : CJson → CJson) :
    List (List UInt8 × CJson) → List (List UInt8 × CJson)
  | [] => [(name, change (.object []))]
  | m :: members =>
    if sameName m.1 name then (m.1, change m.2) :: members
    else m :: alterItem name change members

/-- One turn of the loop over the catalogue. -/
def addEndpoint (parse : CStr → Option CJson) (paths : List (List UInt8 × CJson))
    (endpoint : ApiEndpoint) : List (List UInt8 × CJson) :=
  alterItem endpoint.endpointPath.bytes (fun pathItem =>
    addItemToObject pathItem (operationName endpoint) (buildOperation parse endpoint)) paths

/-- The members of `paths`. -/
def addPaths (parse : CStr → Option CJson) (endpoints : List ApiEndpoint) :
    List (List UInt8 × CJson) := endpoints.foldl (addEndpoint parse) []

/-- The whole tree. -/
def document (parse : CStr → Option CJson) (endpoints : List ApiEndpoint)
    (serverUrl : List UInt8) : CJson :=
  let root := addStringToObject (.object []) "openapi" (.lit "3.1.0")
  let info := addStringToObject (.object []) "title" (.lit "SendingSystem API")
  let info := addStringToObject info "version" (.lit "1.0.0")
  let info := addStringToObject info "description" (.lit
    ("Public HTTP API of the SendingSystem server. " ++
      "Request and response bodies are JSON unless an operation says otherwise."))
  let root := addItemToObject root (ascii "info") info
  let root := addItemToObject root (ascii "servers") (.array [single (ascii "url")
    (.string serverUrl)])
  let root := addItemToObject root (ascii "paths") (.object (addPaths parse endpoints))
  addItemToObject root (ascii "components") components

/-- What the handler reads of a request. -/
structure OpenapiRequest where
  method : CStr
  host : Option CStr

/-- What fails while it is handled: the error's text, or the printed document. -/
structure OpenapiFault where
  build : BuildFault
  print : Bool

/-- `api_openapi_handler`. -/
def apiOpenapiHandler (parse : CStr → Option CJson) (fault : OpenapiFault) (req : OpenapiRequest)
    (w : World) : World :=
  let isGet := req.method = .lit "GET"
  let isHead := req.method = .lit "HEAD"
  if ¬ isGet ∧ ¬ isHead then w.send (httpSendError fault.build 405 (.lit "GET required"))
  else
    let root := document parse kEndpoints (buildServerUrl req.host 128)
    let json := if fault.print then none else some (heapString (print root))
    let jsonLength := builtLength json
    w.send ⟨200, .lit "OK", jsonLength,
      if isGet ∧ 0 < jsonLength then (json.map fun s => s.bytes.take jsonLength.toNat).getD []
      else []⟩

/-- No two endpoints have paths that differ in case only. -/
def CaseConsistent (endpoints : List ApiEndpoint) : Prop :=
  ∀ e ∈ endpoints, ∀ e' ∈ endpoints,
    sameName e.endpointPath.bytes e'.endpointPath.bytes = true →
      e.endpointPath.bytes = e'.endpointPath.bytes

instance (endpoints : List ApiEndpoint) : Decidable (CaseConsistent endpoints) :=
  inferInstanceAs (Decidable (∀ e ∈ endpoints, ∀ e' ∈ endpoints, _ → _))

/-- Every endpoint is of one of the two methods that `operation_name` can tell. -/
def GetsAndPosts (endpoints : List ApiEndpoint) : Prop :=
  ∀ e ∈ endpoints, e.requestMethod = .lit "GET" ∨ e.requestMethod = .lit "POST"

instance (endpoints : List ApiEndpoint) : Decidable (GetsAndPosts endpoints) :=
  inferInstanceAs (Decidable (∀ e ∈ endpoints, _ ∨ _))

section Paths

variable {members : List (List UInt8 × CJson)} {name : List UInt8} {change : CJson → CJson}

theorem sameName_refl (name : List UInt8) : sameName name name = true := decide_eq_true rfl

theorem member_cons (m : List UInt8 × CJson) (members : List (List UInt8 × CJson))
    (p : List UInt8) : member (.object (m :: members)) p
      = if m.1 = p then some m.2 else member (.object members) p := by
  simp only [member, List.find?_cons]
  by_cases hm : m.1 = p
  · simp only [if_pos hm, decide_eq_true hm, Option.map_some]
  · simp only [if_neg hm, decide_eq_false hm]

/-- Where names that are the same up to case are the same, the one item is changed. -/
theorem member_alterItem (hname : ∀ m ∈ members, sameName m.1 name = true → m.1 = name)
    (p : List UInt8) : member (.object (alterItem name change members)) p =
      if p = name then some (change ((member (.object members) name).getD (.object [])))
      else member (.object members) p := by
  induction members with
  | nil =>
      rw [alterItem, member_cons]
      by_cases hp : p = name
      · rw [if_pos hp, if_pos hp.symm]
        rfl
      · rw [if_neg hp, if_neg (Ne.symm hp)]
  | cons m members ih =>
      rw [List.forall_mem_cons] at hname
      rw [alterItem, member_cons m members name, member_cons m members p]
      by_cases hsame : sameName m.1 name = true
      · have hm := hname.1 hsame
        rw [if_pos hsame, if_pos hm, member_cons, hm]
        by_cases hp : p = name
        · rw [if_pos hp, if_pos hp.symm, Option.getD_some]
        · rw [if_neg hp, if_neg (Ne.symm hp), if_neg (Ne.symm hp)]
      · have hm : m.1 ≠ name := by
          rintro rfl
          exact hsame (sameName_refl _)
        rw [if_neg hsame, if_neg hm, member_cons, ih hname.2]
        by_cases hp : p = name
        · rw [if_pos hp, if_pos hp, if_neg (hp ▸ hm)]
        · rw [if_neg hp, if_neg hp]

/-- No other name turns up. -/
theorem names_alterItem {m : List UInt8 × CJson} (h : m ∈ alterItem name change members) :
    m.1 = name ∨ ∃ m' ∈ members, m'.1 = m.1 := by
  induction members with
  | nil =>
      rw [alterItem, List.mem_singleton] at h
      exact Or.inl (h ▸ rfl)
  | cons m' members ih =>
      rw [alterItem] at h
      split at h
      · rcases List.mem_cons.mp h with rfl | h
        · exact Or.inr ⟨m', List.mem_cons_self, rfl⟩
        · exact Or.inr ⟨m, List.mem_cons_of_mem _ h, rfl⟩
      · rcases List.mem_cons.mp h with rfl | h
        · exact Or.inr ⟨m, List.mem_cons_self, rfl⟩
        · rcases ih h with hm | ⟨m'', hm'', heq⟩
          · exact Or.inl hm
          · exact Or.inr ⟨m'', List.mem_cons_of_mem _ hm'', heq⟩

variable (parse : CStr → Option CJson)

/-- The loop, by its last turn. -/
theorem addPaths_concat (endpoints : List ApiEndpoint) (e : ApiEndpoint) :
    addPaths parse (endpoints ++ [e]) = addEndpoint parse (addPaths parse endpoints) e := by
  rw [addPaths, List.foldl_append]
  rfl

theorem names_addPaths (endpoints : List ApiEndpoint) :
    ∀ m ∈ addPaths parse endpoints, ∃ e ∈ endpoints, m.1 = e.endpointPath.bytes := by
  induction endpoints using List.reverseRecOn with
  | nil => exact fun m hm => absurd hm List.not_mem_nil
  | append_singleton endpoints e ih =>
      intro m hm
      rw [addPaths_concat] at hm
      rcases names_alterItem hm with hname | ⟨m', hm', heq⟩
      · exact ⟨e, List.mem_append_right _ (List.mem_singleton.mpr rfl), hname⟩
      · rcases ih m' hm' with ⟨e', he', hpath⟩
        exact ⟨e', List.mem_append_left _ he', heq ▸ hpath⟩

/-- The item of a path has the operations of the endpoints with that path, in their
    order. -/
theorem item_addPaths {endpoints : List ApiEndpoint} (h : CaseConsistent endpoints)
    (p : List UInt8) :
    member (.object (addPaths parse endpoints)) p =
      if endpoints.filter (fun e => e.endpointPath.bytes = p) = [] then none
      else some (.object ((endpoints.filter (fun e => e.endpointPath.bytes = p)).map
        fun e => (operationName e, buildOperation parse e))) := by
  induction endpoints using List.reverseRecOn with
  | nil => rfl
  | append_singleton endpoints e ih =>
      have hrest : CaseConsistent endpoints := fun e₁ h₁ e₂ h₂ =>
        h e₁ (List.mem_append_left _ h₁) e₂ (List.mem_append_left _ h₂)
      have hname : ∀ m ∈ addPaths parse endpoints,
          sameName m.1 e.endpointPath.bytes = true → m.1 = e.endpointPath.bytes := by
        intro m hm hsame
        rcases names_addPaths parse endpoints m hm with ⟨e', he', hpath⟩
        rw [hpath] at hsame ⊢
        exact h e' (List.mem_append_left _ he') e
          (List.mem_append_right _ (List.mem_singleton.mpr rfl)) hsame
      rw [addPaths_concat, addEndpoint, member_alterItem hname, List.filter_append]
      by_cases hp : p = e.endpointPath.bytes
      · subst hp
        have hlast : [e].filter (fun e' => e'.endpointPath.bytes = e.endpointPath.bytes) = [e] := by
          rw [List.filter_singleton, decide_eq_true rfl, cond_true]
        rw [if_pos rfl, ih hrest, hlast,
          if_neg (List.append_ne_nil_of_right_ne_nil _ (List.cons_ne_nil _ _)), List.map_append]
        -- The item is the one made before, or a new one.
        by_cases hnil : endpoints.filter
            (fun e' => e'.endpointPath.bytes = e.endpointPath.bytes) = []
        · rw [if_pos hnil, hnil]
          rfl
        · rw [if_neg hnil]
          rfl
      · have hlast : [e].filter (fun e' => e'.endpointPath.bytes = p) = [] := by
          rw [List.filter_singleton, decide_eq_false (Ne.symm hp), cond_false]
        rw [if_neg hp, ih hrest, hlast, List.append_nil]

end Paths

/-- For every catalogue in which no two paths differ in case only: what the document has
    under a path and an operation is the description of the first endpoint of these two,
    whatever the host and the parser. -/
theorem operation_listed (parse : CStr → Option CJson) (endpoints : List ApiEndpoint)
    (h : CaseConsistent endpoints) (serverUrl path operation : List UInt8) :
    (document parse endpoints serverUrl).follow [ascii "paths", path, operation]
      = (endpoints.find? fun e => e.endpointPath.bytes = path ∧ operationName e = operation).map
        (buildOperation parse) := by
  have hpaths : (document parse endpoints serverUrl).member (ascii "paths")
      = some (.object (addPaths parse endpoints)) := by rfl
  have hfind : endpoints.find? (fun e => e.endpointPath.bytes = path ∧ operationName e = operation)
      = (endpoints.filter fun e => e.endpointPath.bytes = path).find?
        (fun e => operationName e = operation) := by
    rw [List.find?_filter]
    refine congrArg (fun p => endpoints.find? p) (funext fun e => ?_)
    simp only [Bool.decide_and, Bool.decide_eq_true]
  simp only [follow, hpaths, Option.bind_some, item_addPaths parse h path, hfind]
  by_cases hnil : endpoints.filter (fun e => e.endpointPath.bytes = path) = []
  · rw [if_pos hnil, hnil]
    rfl
  · have hname : ((fun m : List UInt8 × CJson => decide (m.1 = operation)) ∘
        fun e => (operationName e, buildOperation parse e))
        = fun e => decide (operationName e = operation) := rfl
    rw [if_neg hnil, Option.bind_some, member, List.find?_map, hname]
    cases (endpoints.filter fun e => e.endpointPath.bytes = path).find?
      (fun e => decide (operationName e = operation)) <;> rfl

/-- The operation of a method is its name in small letters. -/
theorem operationName_iff {e : ApiEndpoint}
    (he : e.requestMethod = .lit "GET" ∨ e.requestMethod = .lit "POST") {method : CStr}
    (hmethod : method = .lit "GET" ∨ method = .lit "POST") :
    operationName e = method.bytes.map lower ↔ e.requestMethod = method := by
  rcases he with he | he
  · rcases hmethod with rfl | rfl
    · exact iff_of_true (by rw [operationName, he]; decide) he
    · rw [operationName, he]
      decide
  · rcases hmethod with rfl | rfl
    · rw [operationName, he]
      decide
    · exact iff_of_true (by rw [operationName, he]; decide) he

theorem operationName_cases (e : ApiEndpoint) :
    operationName e = ascii "get" ∨ operationName e = ascii "post" := by
  unfold operationName
  split
  · exact Or.inl rfl
  · exact Or.inr rfl

/-- For every catalogue of `GET` and `POST` endpoints in which no two paths differ in case
    only: what the document has under a path and one of these methods, in small letters,
    is the description of the first endpoint with these two, and there are no other
    operations under a path, whatever the host and the parser. -/
theorem openapi_lists (parse : CStr → Option CJson) (endpoints : List ApiEndpoint)
    (h : CaseConsistent endpoints) (hmethods : GetsAndPosts endpoints)
    (serverUrl path : List UInt8) :
    (∀ method, method = .lit "GET" ∨ method = .lit "POST" →
      (document parse endpoints serverUrl).follow
          [ascii "paths", path, method.bytes.map lower]
        = (endpoints.find? fun e => e.endpointPath.bytes = path ∧ e.requestMethod = method).map
          (buildOperation parse)) ∧
    ∀ operation, operation ≠ ascii "get" → operation ≠ ascii "post" →
      (document parse endpoints serverUrl).follow [ascii "paths", path, operation] = none := by
  constructor
  · intro method hmethod
    rw [operation_listed parse endpoints h serverUrl path]
    refine congrArg (Option.map (buildOperation parse)) ?_
    -- The code looks at the first letter of a method, which tells the two.
    have hsame : ∀ e ∈ endpoints, decide (e.endpointPath.bytes = path ∧
        operationName e = method.bytes.map lower)
          = decide (e.endpointPath.bytes = path ∧ e.requestMethod = method) := by
      intro e he
      rw [decide_eq_decide, operationName_iff (hmethods e he) hmethod]
    rw [← List.head?_filter, ← List.head?_filter, List.filter_congr hsame]
  · intro operation hget hpost
    rw [operation_listed parse endpoints h serverUrl path, Option.map_eq_none_iff,
      List.find?_eq_none]
    intro e _ hfound
    rcases operationName_cases e with hname | hname
    · exact hget (hname ▸ (of_decide_eq_true hfound).2).symm
    · exact hpost (hname ▸ (of_decide_eq_true hfound).2).symm

/-- The document describes itself. -/
theorem openapi_lists_get :
    (document (fun _ => none) kEndpoints (buildServerUrl none 128)).follow
      [ascii "paths", ascii "/api/openapi.json", ascii "get"]
        = (kEndpoints[2]?).map (buildOperation fun _ => none) :=
  (openapi_lists (fun _ => none) kEndpoints (by decide) (by decide) _ _).1 (.lit "GET") (Or.inl rfl)

/-- The path a handler of `POST` requests is registered for. -/
def PostRequest.path : PostRequest → List UInt8
  | .send .. => ascii "/api/send"
  | .upload .. => ascii "/api/upload"

/-- Where a response refers to its schema. -/
def schemaReference : List (List UInt8) :=
  [ascii "content", ascii "application/json", ascii "schema", ascii "$ref"]

/-- What the document says of a response of an operation: its status is listed, and if
    that refers to a schema, the schema is there and the body is as it says. -/
def Documented (document : CJson) (path operation : List UInt8) (r : Response) : Prop :=
  ∃ response, document.follow
      [ascii "paths", path, operation, ascii "responses", decimal r.status.toNat] = some response ∧
    ∀ reference, response.follow schemaReference = some (.string reference) →
      ∃ schema v, document.resolve reference = some schema ∧ r.body = print v ∧
        satisfies schema v = true

section Answers

/-- The handlers answer with one of four statuses. -/
theorem PostRequest.status (request : PostRequest) (w : World) :
    ∃ r, (request.handle w).sent = w.sent ++ [r] ∧
      (r.status = 200 ∨ r.status = 400 ∨ r.status = 405 ∨ r.status = 500) := by
  cases request with
  | send parse fault req =>
      by_cases hmethod : req.method = .lit "POST"
      · rcases apiSendHandler_status parse fault req w hmethod with ⟨r, hsent, ⟨h, _⟩ | ⟨h, _⟩⟩
        · exact ⟨r, hsent, Or.inr (Or.inl h)⟩
        · exact ⟨r, hsent, h.imp_right fun h => Or.inr (Or.inr h)⟩
      · have hsent := congrArg World.sent (apiSendHandler_method parse fault req w hmethod)
        exact ⟨_, hsent, Or.inr (Or.inr (Or.inl rfl))⟩
  | upload fault req =>
      rw [handle]
      cases uploadWay fault req w with
      | method hmethod =>
          rw [apiUploadHandler_method fault req w hmethod]
          exact ⟨_, rfl, Or.inr (Or.inr (Or.inl rfl))⟩
      | form hmethod hform =>
          rw [apiUploadHandler_form fault req w hmethod hform]
          exact ⟨_, rfl, Or.inr (Or.inl rfl)⟩
      | noFile hmethod hform hpath =>
          rw [apiUploadHandler_noFile fault req w hmethod hform hpath]
          exact ⟨_, rfl, Or.inr (Or.inl rfl)⟩
      | noConnection hmethod hform hpath hconn =>
          rw [apiUploadHandler_noConnection fault req w hmethod hform hpath hconn]
          exact ⟨_, rfl, Or.inr (Or.inr (Or.inr rfl))⟩
      | ok hmethod hform hpath hconn =>
          rw [(apiUploadHandler_ok fault req w hmethod hform hpath hconn).2]
          exact ⟨_, rfl, Or.inl rfl⟩

/-- A body that was built is printed of an object of two strings. -/
theorem Built.body {r : Response} (h : Built .none r) :
    ∃ type data, r.body
      = print (.object [(ascii "type", .string type), (ascii "data", .string data)]) := by
  rcases h with ⟨status, type, data, hshort, rfl⟩
  have hbuilt : httpBuildJson .none type data
      = some (heapString (printObject (builtMembers .none type data))) := rfl
  have hbytes := httpBuildJson_bytes hshort hbuilt
  refine ⟨type.bytes, data.bytes, ?_⟩
  rw [hbuilt, (httpBuildJson_some hshort hbuilt).2.2 status, hbytes]
  exact (print_strings (builtMembers .none type data)).symm

variable (parse : CStr → Option CJson) (serverUrl : List UInt8)

/-- Such an object is as both schemas say. -/
theorem satisfies_responseSchema (type data : List UInt8) {sampleType sampleData : CStr} :
    satisfies (responseSchema sampleType sampleData)
      (.object [(ascii "type", .string type), (ascii "data", .string data)]) = true := by rfl

/-- The description of an operation lists the four statuses. -/
theorem buildOperation_responses (e : ApiEndpoint) (status : Int)
    (h : status = 200 ∨ status = 400 ∨ status = 405 ∨ status = 500) :
    ∃ response, (buildOperation parse e).follow [ascii "responses", decimal status.toNat]
        = some response ∧
      ∀ reference, response.follow schemaReference = some (.string reference) →
        (status ≠ 200 ∧ reference = kErrorSchemaReference.bytes) ∨
          (status = 200 ∧
            ∃ success, e.successSchemaReference = some success ∧ reference = success.bytes) := by
  have hstatus : decimal (Int.toNat 200) = ascii "200" ∧ decimal (Int.toNat 400) = ascii "400" ∧
      decimal (Int.toNat 405) = ascii "405" ∧ decimal (Int.toNat 500) = ascii "500" := by decide
  have hresponses : (buildOperation parse e).member (ascii "responses") = some
      (addResponse (addResponse (addResponse
        (addResponse (.object []) "200" (.lit "Success") e.successSchemaReference)
        "400" (.lit "Bad request") (some kErrorSchemaReference))
        "405" (.lit "Method not allowed") (some kErrorSchemaReference))
        "500" (.lit "Internal error") (some kErrorSchemaReference)) := by
    unfold buildOperation
    cases e.requestContentType <;> rfl
  have hone : ∀ {response : CJson} {known : List UInt8}, response.follow schemaReference
      = some (.string known) → ∀ reference, response.follow schemaReference
        = some (.string reference) → reference = known :=
    fun h reference h' => (CJson.string.inj (Option.some.inj (h.symm.trans h'))).symm
  simp only [follow, hresponses, Option.bind_some]
  rcases h with rfl | rfl | rfl | rfl
  -- A success refers to what the catalogue says, anything else to the error.
  · rw [hstatus.1]
    cases hsuccess : e.successSchemaReference with
    | none =>
        exact ⟨_, rfl, fun reference href => absurd href.symm (Option.some_ne_none _)⟩
    | some success =>
        exact ⟨_, rfl, fun reference h => Or.inr ⟨rfl, success, rfl, hone rfl reference h⟩⟩
  · rw [hstatus.2.1]
    exact ⟨_, rfl, fun reference h => Or.inl ⟨by decide, hone rfl reference h⟩⟩
  · rw [hstatus.2.2.1]
    exact ⟨_, rfl, fun reference h => Or.inl ⟨by decide, hone rfl reference h⟩⟩
  · rw [hstatus.2.2.2]
    exact ⟨_, rfl, fun reference h => Or.inl ⟨by decide, hone rfl reference h⟩⟩

/-- The catalogue refers to schemas that are there, and that describe two strings. -/
theorem kEndpoints_resolve (reference : List UInt8)
    (h : reference = kErrorSchemaReference.bytes ∨ ∃ e ∈ kEndpoints, ∃ success,
      e.successSchemaReference = some success ∧ reference = success.bytes) :
    ∃ type data, (document parse kEndpoints serverUrl).resolve reference
      = some (responseSchema type data) := by
  have hmessage : (document parse kEndpoints serverUrl).resolve
      (ascii "#/components/schemas/MessageResponse")
        = some (responseSchema (.lit "message") (.lit "OK")) := by rfl
  have herror : (document parse kEndpoints serverUrl).resolve
      (ascii "#/components/schemas/ErrorResponse")
        = some (responseSchema (.lit "error") (.lit "Invalid Content-Length")) := by rfl
  have hbytes : kErrorSchemaReference.bytes = ascii "#/components/schemas/ErrorResponse" ∧
      ∀ e ∈ kEndpoints, ∀ success ∈ e.successSchemaReference,
        success.bytes = ascii "#/components/schemas/MessageResponse" := by decide
  rcases h with rfl | ⟨e, he, success, hsuccess, rfl⟩
  · rw [hbytes.1]
    exact ⟨_, _, herror⟩
  · rw [hbytes.2 e he success hsuccess]
    exact ⟨_, _, hmessage⟩

/-- The description of an endpoint of the catalogue is found. -/
theorem kEndpoints_found {e : ApiEndpoint} (he : e ∈ kEndpoints) (names : List (List UInt8)) :
    (document parse kEndpoints serverUrl).follow
        (ascii "paths" :: e.endpointPath.bytes :: operationName e :: names)
      = (buildOperation parse e).follow names := by
  have hlists := operation_listed parse kEndpoints (by decide) serverUrl e.endpointPath.bytes
    (operationName e)
  -- No two endpoints share path and method, so what is found is the endpoint itself.
  have hfind : kEndpoints.find? (fun e' => e'.endpointPath.bytes = e.endpointPath.bytes ∧
      operationName e' = operationName e) = some e := by
    rcases he with _ | ⟨_, _ | ⟨_, _ | ⟨_, hnil⟩⟩⟩
    · rfl
    · rfl
    · rfl
    · exact absurd hnil List.not_mem_nil
  have hsplit := follow_append (document parse kEndpoints serverUrl)
    [ascii "paths", e.endpointPath.bytes, operationName e] names
  rw [hlists, hfind] at hsplit
  exact hsplit

/-- An answer is documented if its body was built, or is a success without a schema. -/
theorem documented_built {e : ApiEndpoint} (he : e ∈ kEndpoints) {r : Response}
    (hstatus : r.status = 200 ∨ r.status = 400 ∨ r.status = 405 ∨ r.status = 500)
    (hbuilt : Built .none r ∨ (r.status = 200 ∧ e.successSchemaReference = none)) :
    Documented (document parse kEndpoints serverUrl) e.endpointPath.bytes (operationName e) r := by
  rcases buildOperation_responses parse e r.status hstatus with ⟨response, hresponse, hreference⟩
  refine ⟨response, (kEndpoints_found parse serverUrl he _).trans hresponse,
    fun reference href => ?_⟩
  have hknown := hreference reference href
  rcases hbuilt with hbuilt | ⟨hok, hnone⟩
  · rcases kEndpoints_resolve parse serverUrl reference (hknown.imp And.right
      fun ⟨_, success, h⟩ => ⟨e, he, success, h⟩) with ⟨sampleType, sampleData, hresolve⟩
    rcases hbuilt.body with ⟨type, data, hbody⟩
    exact ⟨_, _, hresolve, hbody, satisfies_responseSchema type data⟩
  · rcases hknown with ⟨hno, _⟩ | ⟨_, success, hsuccess, _⟩
    · exact absurd hok hno
    · rw [hnone] at hsuccess
      exact absurd hsuccess.symm (Option.some_ne_none success)

end Answers

/-- What the document promises is what is answered: for every request to one of the three
    endpoints, in every state of the server, whatever else fails as long as its answer
    can be built, and for the document any client gets, the status is listed under the
    endpoint, and the body is as the schema it refers to says, which is there. -/
theorem answers_documented (parse : CStr → Option CJson) (host : Option CStr) (w : World) :
    (∀ request : PostRequest, request.buildFault = .none →
      ∃ r, (request.handle w).sent = w.sent ++ [r] ∧
        Documented (document parse kEndpoints (buildServerUrl host 128)) request.path
          (ascii "post") r) ∧
    (∀ (fault : OpenapiFault) (req : OpenapiRequest), fault.build = .none →
      ∃ r, (apiOpenapiHandler parse fault req w).sent = w.sent ++ [r] ∧
        Documented (document parse kEndpoints (buildServerUrl host 128))
          (ascii "/api/openapi.json") (ascii "get") r) := by
  constructor
  · intro request hnone
    rcases request.answer w with ⟨r, hsent, hbuilt⟩
    rcases request.status w with ⟨r', hsent', hstatus⟩
    rw [hsent, List.append_cancel_left_eq, List.cons.injEq] at hsent'
    rw [← hsent'.1] at hstatus
    rw [hnone] at hbuilt
    refine ⟨r, hsent, ?_⟩
    cases request with
    | send parse' fault req =>
        exact @documented_built parse _ kEndpoints[0] (List.getElem_mem _) r hstatus (Or.inl hbuilt)
    | upload fault req =>
        exact @documented_built parse _ kEndpoints[1] (List.getElem_mem _) r hstatus (Or.inl hbuilt)
  · intro fault req hnone
    have hlast : kEndpoints[2] ∈ kEndpoints := List.getElem_mem _
    unfold apiOpenapiHandler
    by_cases hmethod : ¬ req.method = .lit "GET" ∧ ¬ req.method = .lit "HEAD"
    · refine ⟨httpSendError fault.build 405 (.lit "GET required"), ?_, ?_⟩
      · simp only [if_pos hmethod, World.send]
      · rw [hnone]
        exact documented_built parse _ hlast (Or.inr (Or.inr (Or.inl rfl)))
          (Or.inl ⟨405, .lit "error", .lit "GET required", by decide, rfl⟩)
    · simp only [if_neg hmethod, World.send]
      exact ⟨_, rfl, documented_built parse _ hlast (Or.inl rfl) (Or.inr ⟨rfl, rfl⟩)⟩

/-- An upload without a file. -/
theorem answers_documented_noFile :
    ∃ r, ((PostRequest.upload (.none 1024 (.lit "2026-03-01 12:00:00"))
        ⟨.lit "POST", .lit "10.0.0.7", [], false⟩).handle createdWorld).sent = [r] ∧
      Documented (document (fun _ => none) kEndpoints (buildServerUrl none 128))
        (ascii "/api/upload") (ascii "post") r :=
  (answers_documented (fun _ => none) none createdWorld).1 (.upload (.none 1024 _) _) rfl

end Server

end SendingSystem
