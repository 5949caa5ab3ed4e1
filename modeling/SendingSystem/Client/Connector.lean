import SendingSystem.Client.Filename

/-!
# The client's connector

`Connector.java`: one object holding the server's address, the payload of the
next request, the TLS policy and the HTTP client built last. Methods are
functions from the object to its next state, with what they return or throw
beside it; a method that throws leaves behind what it assigned before.

What comes from Android, OkHttp and org.json is a `Platform`: types whose values
are only handed on, and the functions that are called with them. What the network
does in one call is a `Network`. A Java reference that may be null is an option,
also where nothing ever assigns null to it.

## Main definitions

* `Platform`, `Network`: What is outside of the code.
* `Connector`: The object.
* `Connector.client`: The HTTP client, from the cache or built anew.
* `Connector.jsonRequest`, `Connector.uploadRequest`: The two requests.
* `Connector.execute`: Send a request and read the answer.
* `Connector.sendData`: One send operation.
* `Connector.Receives`: A send operation gets a response.

## Theorems

* `readReply_cases`: What a response becomes.
* `sendData_request`: A send operation executes its request.
* `sendData_received`: What a send operation makes of a response it gets.
-/

namespace SendingSystem

namespace Client

open Utf16

/-- `IPVersion`. -/
inductive IPVersion where
  | ipv4
  | ipv6
  deriving DecidableEq

/-- `SendingType`. -/
inductive SendingType where
  | rawData
  | file
  deriving DecidableEq

/-- `SendingType.index()`. -/
def SendingType.index : SendingType → Int
  | .rawData => 1
  | .file => 2

/-- `Connector.TrustMode`. -/
inductive TrustMode where
  | trustAll
  | systemCa
  | pinned
  deriving DecidableEq

/-- What a method throws itself, or lets through from a library call. -/
inductive Failure where
  | exception (message : JString)
  | illegalArgumentException (message : JString)
  | numberFormatException (message : JString)
  | ioException (message : JString)
  | nullPointerException
  | thrown
  deriving DecidableEq

/-- What the code takes from its libraries. `certificatePinner` is a pinner with
    one pin added and `httpUrl` says whether a text is a URL; nothing and `false`
    mean that the call throws. `jsonObject` is the text of a `JSONObject` in which
    these members were put. -/
structure Platform where
  ContentResolver : Type
  Uri : Type
  ProgressListener : Type
  CertificatePinner : Type
  certificatePinner : Option JString → JString → Option CertificatePinner
  httpUrl : JString → Bool
  jsonObject : List (JString × JString) → JString

/-- What an `OkHttpClient` was built with. The timeouts are constants; a trust
    manager that accepts all comes with a hostname verifier that does. -/
structure OkHttpClient (P : Platform) where
  trustAll : Bool
  certificatePinner : Option P.CertificatePinner

/-- Where the content of a file comes from. -/
inductive FileSource (P : Platform) where
  | bytes (data : List UInt8)
  | uri (contentResolver : Option P.ContentResolver) (uri : Option P.Uri)

/-- The body of a request. -/
inductive RequestBody (P : Platform) where
  | json (bytes : List UInt8)
  | multipart (name filename : JString) (source : FileSource P)

/-- A `POST` request. -/
structure Request (P : Platform) where
  url : JString
  body : RequestBody P

/-- What the code reads of a response. -/
structure HttpReply where
  code : Int
  message : JString
  body : Option JString

/-- `resp.isSuccessful()`. -/
def HttpReply.isSuccessful (r : HttpReply) : Bool := 200 ≤ r.code && r.code < 300

/-- What happens in one call: whether the TLS context can be had, and what comes
    of a request. Nothing means that the call, or reading its body, throws. -/
structure Network (P : Platform) where
  sslContext : Bool
  call : OkHttpClient P → Request P → Option HttpReply

/-- The object. -/
structure Connector (P : Platform) where
  ipVersion : IPVersion
  serverIp : Option JString
  serverPort : Int
  isSSLEncryptEnabled : Bool
  sendingData : Option JString
  sendingType : SendingType
  saveToPath : Option JString
  fileBytes : Option (List UInt8)
  fileUri : Option P.Uri
  contentResolver : Option P.ContentResolver
  fileName : Option JString
  progressListener : Option P.ProgressListener
  trustMode : TrustMode
  pinnedSha256 : Option JString
  isSending : Bool
  cachedSsl : Bool
  cachedTrust : Option TrustMode
  cachedPin : Option JString
  cachedClient : Option (OkHttpClient P)

namespace Connector

variable {P : Platform}

/-- `new Connector()`. -/
def new : Connector P where
  ipVersion := .ipv4
  serverIp := some (lit "127.0.0.1")
  serverPort := 5000
  isSSLEncryptEnabled := false
  sendingData := some []
  sendingType := .rawData
  saveToPath := none
  fileBytes := none
  fileUri := none
  contentResolver := none
  fileName := none
  progressListener := none
  trustMode := .trustAll
  pinnedSha256 := none
  isSending := false
  cachedSsl := false
  cachedTrust := none
  cachedPin := none
  cachedClient := none

/-- `setSaveToPath`. -/
def setSaveToPath (c : Connector P) (saveToPath : Option JString) : Connector P :=
  { c with saveToPath := some (sanitizeFilename saveToPath) }

/-- `setFileBytes`. -/
def setFileBytes (c : Connector P) (data : Option (List UInt8)) (name : Option JString) :
    Connector P :=
  { c with fileBytes := data, fileUri := none, fileName := name }

/-- `setFileUri`. -/
def setFileUri (c : Connector P) (cr : P.ContentResolver) (uri : P.Uri) (name : Option JString) :
    Connector P :=
  { c with contentResolver := some cr, fileUri := some uri, fileBytes := none, fileName := name }

/-- `clearFile`. -/
def clearFile (c : Connector P) : Connector P :=
  { c with fileBytes := none, fileUri := none, fileName := none }

/-- A Java reference in a concatenation. -/
def concat (s : Option JString) : JString := s.getD (lit "null")

/-- A Java `int` in a concatenation. -/
def decimal (n : Int) : JString := lit (toString n)

/-- `baseUrl`. -/
def baseUrl (c : Connector P) (path : JString) : JString :=
  (if c.isSSLEncryptEnabled then lit "https" else lit "http") ++ lit "://" ++ concat c.serverIp
    ++ lit ":" ++ decimal c.serverPort ++ path

/-- A fresh `OkHttpClient` for the current TLS configuration. -/
def build (sslContext : Bool) (c : Connector P) : Except Failure (OkHttpClient P) :=
  if c.isSSLEncryptEnabled then
    match c.trustMode with
    | .trustAll => if sslContext then .ok ⟨true, none⟩ else .error .thrown
    | .pinned =>
      let pin := c.pinnedSha256.getD []
      if pin = [] then
        .error (.illegalArgumentException
          (lit "PINNED requires a SHA-256 pin via setPinnedSha256()"))
      else if sslContext then
        match P.certificatePinner c.serverIp (lit "sha256/" ++ pin) with
        | none => .error .thrown
        | some pinner => .ok ⟨true, some pinner⟩
      else .error .thrown
    | .systemCa => .ok ⟨false, none⟩
  else .ok ⟨false, none⟩

/-- `client()`. -/
def client (sslContext : Bool) (c : Connector P) :
    Except Failure (OkHttpClient P) × Connector P :=
  let rebuilt : Except Failure (OkHttpClient P) × Connector P :=
    -- A build that throws leaves the cache as it was.
    match c.build sslContext with
    | .error e => (.error e, c)
    | .ok client =>
      (.ok client, { c with
        cachedClient := some client
        cachedSsl := c.isSSLEncryptEnabled
        cachedTrust := some c.trustMode
        cachedPin := c.pinnedSha256 })
  match c.cachedClient with
  | none => rebuilt
  | some cached =>
    if c.cachedSsl = c.isSSLEncryptEnabled ∧ c.cachedTrust = some c.trustMode ∧
        c.cachedPin = c.pinnedSha256 then (.ok cached, c)
    else rebuilt

/-- What `execute` makes of a response. -/
def readReply (resp : HttpReply) : Except Failure JString :=
  -- Only a failure without any text is thrown.
  let text := resp.body.getD []
  if resp.isSuccessful = false ∧ text = [] then
    .error (.ioException (lit "HTTP " ++ decimal resp.code ++ lit " " ++ resp.message))
  else .ok text

/-- `execute`. -/
def execute (net : Network P) (c : Connector P) (req : Request P) :
    Except Failure JString × Connector P :=
  match c.client net.sslContext with
  | (.error e, c) => (.error e, c)
  | (.ok client, c) =>
    match net.call client req with
    | none => (.error .thrown, c)
    | some resp => (readReply resp, c)

/-- `saveToPath`, when it is neither null nor empty. -/
def savedName (c : Connector P) : Option JString := c.saveToPath.filter (fun s => s ≠ [])

/-- The members of the JSON body. Putting null removes a member. -/
def jsonMembers (c : Connector P) : List (JString × JString) :=
  (c.sendingData.map (fun s => (lit "data", s))).toList ++
    (c.savedName.map (fun s => (lit "saveToPath", s))).toList

/-- The request of `sendJsonMessage`. -/
def jsonRequest (c : Connector P) : Except Failure (Request P) :=
  let url := c.baseUrl (lit "/api/send")
  if P.httpUrl url then .ok ⟨url, .json (utf8 (P.jsonObject c.jsonMembers))⟩ else .error .thrown

/-- `sendJsonMessage`. -/
def sendJsonMessage (net : Network P) (c : Connector P) : Except Failure JString × Connector P :=
  match c.jsonRequest with
  | .error e => (.error e, c)
  | .ok req => execute net c req

/-- The name of the file part. -/
def multipartName (c : Connector P) : JString :=
  match c.savedName with
  | some name => name
  | none => c.fileName.getD (lit "unnamed.dat")

/-- `buildFileBody`: what the body streams when it is asked to. -/
def fileSource (c : Connector P) : FileSource P :=
  match c.fileBytes with
  | some data => .bytes data
  | none => .uri c.contentResolver c.fileUri

/-- The request of `uploadFile`. -/
def uploadRequest (c : Connector P) : Except Failure (Request P) :=
  if c.fileBytes.isNone ∧ c.fileUri.isNone then .error (.ioException (lit "No file to send"))
  else
    let url := c.baseUrl (lit "/api/upload")
    if P.httpUrl url then .ok ⟨url, .multipart (lit "file") c.multipartName c.fileSource⟩
    else .error .thrown

/-- `uploadFile`. -/
def uploadFile (net : Network P) (c : Connector P) : Except Failure JString × Connector P :=
  match c.uploadRequest with
  | .error e => (.error e, c)
  | .ok req => execute net c req

/-- `sendData`. -/
def sendData (net : Network P) (c : Connector P) : Except Failure (Option JString) × Connector P :=
  let c := { c with isSending := true }
  let sent := if c.sendingType = .file then c.uploadFile net else c.sendJsonMessage net
  -- The `finally` block, which runs also when the request throws.
  (sent.1.map some, { sent.2 with isSending := false, progressListener := none })

/-- The request a send operation makes. -/
def request (c : Connector P) : Except Failure (Request P) :=
  if c.sendingType = .file then c.uploadRequest else c.jsonRequest

/-- A send operation gets as far as this response. -/
def Receives (net : Network P) (c : Connector P) (resp : HttpReply) : Prop :=
  ∃ req client, c.request = .ok req ∧ (c.client net.sslContext).1 = .ok client ∧
    net.call client req = some resp

/-- A reply is a text unless it is a failure without one. -/
theorem readReply_cases (resp : HttpReply) :
    (readReply resp = .ok (resp.body.getD []) ∧
      (resp.isSuccessful = true ∨ resp.body.getD [] ≠ [])) ∨
    (∃ message, readReply resp = .error (.ioException message) ∧
      resp.isSuccessful = false ∧ resp.body.getD [] = []) := by
  unfold readReply
  simp only
  -- Only a failure without a body is an error.
  by_cases h : resp.isSuccessful = false ∧ resp.body.getD [] = []
  · rw [if_pos h]
    exact Or.inr ⟨_, rfl, h⟩
  · rw [if_neg h]
    rw [not_and_or, Bool.not_eq_false] at h
    exact Or.inl ⟨rfl, h⟩

/-- A send operation makes its request, then executes it. -/
theorem sent_eq (net : Network P) (c : Connector P) :
    (if c.sendingType = .file then c.uploadFile net else c.sendJsonMessage net)
      = match c.request with
        | .error e => (.error e, c)
        | .ok req => execute net c req := by
  unfold request uploadFile sendJsonMessage
  by_cases hfile : c.sendingType = .file
  · simp only [if_pos hfile]
  · simp only [if_neg hfile]

/-- What a send operation returns is what executing its request gives. -/
theorem sendData_request (net : Network P) (c : Connector P) :
    (c.sendData net).1 = c.request.bind fun req =>
      (execute net { c with isSending := true } req).1.map some := by
  have hsent := sent_eq net { c with isSending := true }
  have hrequest : { c with isSending := true }.request = c.request := rfl
  rw [hrequest] at hsent
  simp only [sendData, hsent]
  cases c.request with
  | error e => rfl
  | ok req => rfl

/-- The client in use does not depend on whether a send is going on. -/
theorem client_isSending (sslContext : Bool) (c : Connector P) :
    ({ c with isSending := true }.client sslContext).1 = (c.client sslContext).1 := by
  have hbuild : { c with isSending := true }.build sslContext = c.build sslContext := rfl
  unfold client
  simp only [hbuild]
  cases c.cachedClient with
  | none =>
      simp only
      cases c.build sslContext with
      | error e => rfl
      | ok client => rfl
  | some cached =>
      simp only
      split
      · rfl
      · cases c.build sslContext with
        | error e => rfl
        | ok client => rfl

/-- A response received is what the send operation returns or fails with. -/
theorem sendData_received {net : Network P} {c : Connector P} {resp : HttpReply}
    (h : Receives net c resp) : (c.sendData net).1 = (readReply resp).map some := by
  rcases h with ⟨req, cl, hreq, hclient, hcall⟩
  -- The flag set at the start is read by none of the steps.
  have hreq' : { c with isSending := true }.request = .ok req := hreq
  have hclient' := (client_isSending net.sslContext c).trans hclient
  have hexec : (execute net { c with isSending := true } req).1 = readReply resp := by
    unfold execute
    generalize { c with isSending := true }.client net.sslContext = result at hclient'
    rcases result with ⟨r, c'⟩
    simp only at hclient'
    simp only [hclient', hcall]
  have hsent := sent_eq net { c with isSending := true }
  rw [hreq'] at hsent
  exact (congrArg (fun r => r.1.map some) hsent).trans (congrArg (fun r => r.map some) hexec)

end Connector

end Client

end SendingSystem
