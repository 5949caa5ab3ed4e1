import SendingSystem.Client.SendData
import SendingSystem.Client.TlsClient

/-!
# What a send carries over

The connector is shared by all send operations, and its payload is set by setters
that clear each other's fields in part: a file given as bytes leaves the resolver
of an earlier one behind, and so does clearing the file. None of what stays is
read. `Config.request` is the request a configuration describes, written without
a connector, and it is the request that is built from every state of one.

## Main definitions

* `Config.source`: The content a configuration refers to.
* `Config.request`: The request a configuration describes.
* `ViewModel.builtRequest`: The request a call of `SendData` builds.

## Theorems

* `configured_request`: Every state of the connector gives the described request.
* `sendData_builtRequest`: The request that is built is the one that is sent.
* `send_carries_nothing_over`: Two calls with one configuration build one request.
-/

namespace SendingSystem

namespace Client

open Utf16 Connector

variable {P : Platform}

/-- The name the server is asked to save under, if the configuration has one. -/
def Config.savedName (cfg : Config P) : Option JString :=
  (some (sanitizeFilename cfg.saveToPath)).filter (fun s => s ≠ [])

/-- The file: a `Uri` with its resolver before an array of bytes. -/
def Config.source (cfg : Config P) : Option (FileSource P) :=
  match cfg.fileUri, cfg.contentResolver with
  | some uri, some cr => some (.uri (some cr) (some uri))
  | _, _ => cfg.fileBytes.map .bytes

/-- The file's own name goes with the file. -/
def Config.partName (cfg : Config P) : JString :=
  cfg.savedName.getD (cfg.fileName.getD (lit "unnamed.dat"))

/-- The address of an endpoint. -/
def Config.url (cfg : Config P) (serverPort : Int) (path : JString) : JString :=
  (if cfg.isSSLEncryptEnabled then lit "https" else lit "http") ++ lit "://" ++ concat cfg.serverIp
    ++ lit ":" ++ decimal serverPort ++ path

/-- The request a configuration describes. -/
def Config.request (cfg : Config P) (serverPort : Int) : Except Failure (Request P) :=
  match cfg.sendingType with
  | .rawData =>
    let members := (cfg.sendingData.map (fun s => (lit "data", s))).toList ++
      (cfg.savedName.map (fun s => (lit "saveToPath", s))).toList
    if P.httpUrl (cfg.url serverPort (lit "/api/send")) then
      .ok ⟨cfg.url serverPort (lit "/api/send"), .json (utf8 (P.jsonObject members))⟩
    else .error .thrown
  | .file =>
    match cfg.source with
    | none => .error (.ioException (lit "No file to send"))
    | some source =>
      if P.httpUrl (cfg.url serverPort (lit "/api/upload")) then
        .ok ⟨cfg.url serverPort (lit "/api/upload"), .multipart (lit "file") cfg.partName source⟩
      else .error .thrown

/-- The request a call of `SendData` builds, if it gets as far as building one. -/
def ViewModel.builtRequest (env : SendEnv P) (vm : ViewModel P) (cfg : Config P) :
    Option (Except Failure (Request P)) :=
  if vm.getIsSending then none
  else
    match validate env cfg with
    | .error _ => none
    | .ok serverPort =>
      match ensureConnection env vm.db cfg serverPort with
      | (.ok (some _), _) => some (configured vm.connector cfg serverPort).request
      | _ => none

/-- The port of a call that passes the checks is that of the configuration. -/
theorem validate_port {env : SendEnv P} {cfg : Config P} {serverPort : Int}
    (h : validate env cfg = .ok serverPort) : parseInt cfg.portString = some serverPort := by
  unfold validate at h
  -- The port is parsed before anything else is checked.
  cases hport : parseInt cfg.portString with
  | none => simp only [hport, reduceCtorEq] at h
  | some port =>
      simp only [hport] at h
      split at h
      · simp only [reduceCtorEq] at h
      · split at h
        · rw [Except.ok.injEq] at h
          rw [h]
        · simp only [reduceCtorEq] at h

/-- The address and the TLS flag are handed over as they are. -/
theorem configured_baseUrl (c : Connector P) (cfg : Config P) (serverPort : Int) (path : JString) :
    (configured c cfg serverPort).baseUrl path = cfg.url serverPort path := by
  unfold configured chooseFile
  split
  · rfl
  · split <;> rfl

theorem configured_sendingType (c : Connector P) (cfg : Config P) (serverPort : Int) :
    (configured c cfg serverPort).sendingType = cfg.sendingType := by
  unfold configured chooseFile
  split
  · rfl
  · split <;> rfl

theorem configured_savedName (c : Connector P) (cfg : Config P) (serverPort : Int) :
    (configured c cfg serverPort).savedName = cfg.savedName := by
  rw [Connector.savedName, configured_saveToPath, Config.savedName]

/-- What the connector holds of a file after the setters. With no file at all both
    fields are cleared, and the rest is not read. -/
theorem configured_file (c : Connector P) (cfg : Config P) (serverPort : Int) :
    (cfg.source = none ∧ (configured c cfg serverPort).fileBytes = none ∧
        (configured c cfg serverPort).fileUri = none) ∨
      (∃ source, cfg.source = some source ∧ (configured c cfg serverPort).fileSource = source ∧
        (configured c cfg serverPort).fileName = cfg.fileName ∧
        ¬ ((configured c cfg serverPort).fileBytes.isNone ∧
          (configured c cfg serverPort).fileUri.isNone)) := by
  unfold configured chooseFile Config.source
  cases huri : cfg.fileUri with
  | none =>
      cases hbytes : cfg.fileBytes with
      | none => exact Or.inl ⟨rfl, rfl, rfl⟩
      | some data => exact Or.inr ⟨_, rfl, rfl, rfl, fun h => Bool.false_ne_true h.1⟩
  | some uri =>
      cases hcr : cfg.contentResolver with
      | none =>
          -- A `Uri` without its resolver counts as none.
          cases hbytes : cfg.fileBytes with
          | none => exact Or.inl ⟨rfl, rfl, rfl⟩
          | some data => exact Or.inr ⟨_, rfl, rfl, rfl, fun h => Bool.false_ne_true h.1⟩
      | some cr => exact Or.inr ⟨_, rfl, rfl, rfl, fun h => Bool.false_ne_true h.2⟩

/-- Every state of the connector gives the request the configuration describes. -/
theorem configured_request (c : Connector P) (cfg : Config P) (serverPort : Int) :
    (configured c cfg serverPort).request = cfg.request serverPort := by
  have htype := configured_sendingType c cfg serverPort
  have hname := configured_savedName c cfg serverPort
  have hurl := configured_baseUrl c cfg serverPort
  have hdata := configured_sendingData c cfg serverPort
  unfold Connector.request Config.request
  -- The file is sent for one type only, so the other needs no source.
  cases hsending : cfg.sendingType with
  | rawData =>
      rw [hsending] at htype
      simp only [htype, reduceCtorEq, if_false, jsonRequest, jsonMembers, hname, hurl, hdata]
  | file =>
      rw [hsending] at htype
      simp only [htype, if_true, uploadRequest, hurl]
      rcases configured_file c cfg serverPort with
        ⟨hsource, hbytes, huri⟩ | ⟨source, hsource, hfile, hfileName, hsome⟩
      · simp only [hsource, hbytes, huri, Option.isNone_none, and_self, if_true]
      · have hpart : (configured c cfg serverPort).multipartName = cfg.partName := by
          rw [multipartName, hname, hfileName, Config.partName]
          cases cfg.savedName <;> rfl
        simp only [hsource, if_neg hsome, hpart, hfile]

/-- A call that builds a request has a port and a row of the server. -/
theorem builtRequest_eq_some {env : SendEnv P} {vm : ViewModel P} {cfg : Config P}
    {request : Except Failure (Request P)} (h : vm.builtRequest env cfg = some request) :
    ∃ serverPort conn, vm.getIsSending = false ∧ validate env cfg = .ok serverPort ∧
      (ensureConnection env vm.db cfg serverPort).1 = .ok (some conn) ∧
      request = cfg.request serverPort := by
  unfold ViewModel.builtRequest at h
  by_cases hsending : vm.getIsSending = true
  · simp only [hsending, if_true, reduceCtorEq] at h
  · simp only [hsending] at h
    cases hvalid : validate env cfg with
    | error e => simp only [hvalid, Bool.false_eq_true, if_false, reduceCtorEq] at h
    | ok serverPort =>
        simp only [hvalid, Bool.false_eq_true, if_false, configured_request] at h
        -- The request is built when the row of the server is there.
        generalize hensure : ensureConnection env vm.db cfg serverPort = result at h
        rcases result with ⟨_ | ⟨_ | conn⟩, db⟩
        · simp only [reduceCtorEq] at h
        · simp only [reduceCtorEq] at h
        · rw [Option.some.injEq] at h
          exact ⟨serverPort, conn, Bool.not_eq_true _ ▸ hsending, rfl, by rw [hensure], h.symm⟩

/-- The request a call builds is the one it sends: what the call returns is what
    executing that request gives, unless the message cannot be stored. -/
theorem sendData_builtRequest {env : SendEnv P} {vm : ViewModel P} {cfg : Config P}
    {request : Except Failure (Request P)} (h : vm.builtRequest env cfg = some request) :
    (vm.sendData env cfg).1 = .error .thrown ∨
      ∃ c : Connector P, (vm.sendData env cfg).1 = request.bind fun req =>
        (execute env.network c req).1.map some := by
  rcases builtRequest_eq_some h with ⟨serverPort, conn, hsending, hvalid, hensure, rfl⟩
  -- The operation makes its request from the configured connector.
  have hsent := Connector.sendData_request env.network (configured vm.connector cfg serverPort)
  rw [configured_request] at hsent
  have hfound : ensureConnection env vm.db cfg serverPort
      = (.ok (some conn), (ensureConnection env vm.db cfg serverPort).2) := by
    rw [← hensure]
  rw [sendData_found hsending hvalid hfound]
  split
  · exact Or.inl rfl
  · exact Or.inr ⟨_, hsent⟩

/-- Whatever the two view models and their connectors have been through, two calls
    with one configuration build one request, the one the configuration
    describes. -/
theorem send_carries_nothing_over {env env' : SendEnv P} {vm vm' : ViewModel P} {cfg : Config P}
    {request request' : Except Failure (Request P)} (h : vm.builtRequest env cfg = some request)
    (h' : vm'.builtRequest env' cfg = some request') :
    request = request' ∧ ∃ serverPort, parseInt cfg.portString = some serverPort ∧
      request = cfg.request serverPort := by
  rcases builtRequest_eq_some h with ⟨serverPort, _, _, hvalid, _, rfl⟩
  rcases builtRequest_eq_some h' with ⟨serverPort', _, _, hvalid', _, rfl⟩
  have hport := validate_port hvalid
  rw [validate_port hvalid', Option.some.injEq] at hport
  subst hport
  exact ⟨rfl, serverPort', validate_port hvalid, rfl⟩

/-- A network on which every request is answered. -/
def plainEnv : SendEnv pinningPlatform where
  address := some .ipv4
  network := ⟨true, fun _ _ => some ⟨200, lit "OK", none⟩⟩
  find := false
  insert := false
  findAgain := false
  record := false
  sendingTime := lit "2026-03-01 12:00:00"

/-- A text without a file name. -/
def plainText : Config pinningPlatform where
  ipVersion := .ipv4
  serverIp := some (lit "10.0.0.1")
  portString := some (lit "5000")
  sendingType := .rawData
  sendingData := some (lit "hi")
  isSSLEncryptEnabled := false
  saveToPath := none
  fileBytes := none
  fileName := none
  fileUri := none
  contentResolver := none
  progressListener := none
  trustMode := .trustAll
  pinnedSha256 := none

/-- A file to be saved under another name. -/
def plainFile : Config pinningPlatform :=
  { plainText with
    sendingType := .file
    saveToPath := some (lit "b.txt")
    fileUri := some ()
    contentResolver := some ()
    fileName := some (lit "a.txt") }

/-- The view model at the start, and after a file was sent. -/
def freshViewModel : ViewModel pinningPlatform := ⟨.new, false, createdDatabase⟩

def usedViewModel : ViewModel pinningPlatform := (freshViewModel.sendData plainEnv plainFile).2

/-- A text sent first, and the same text sent after a file. -/
theorem send_carries_nothing_over_file :
    ∃ request request', freshViewModel.builtRequest plainEnv plainText = some request ∧
      usedViewModel.builtRequest plainEnv plainText = some request' ∧ request = request' := by
  have hfresh : (freshViewModel.builtRequest plainEnv plainText).isSome = true := by rfl
  have hused : (usedViewModel.builtRequest plainEnv plainText).isSome = true := by rfl
  rcases Option.isSome_iff_exists.mp hfresh with ⟨request, h⟩
  rcases Option.isSome_iff_exists.mp hused with ⟨request', h'⟩
  exact ⟨request, request', h, h', (send_carries_nothing_over h h').1⟩

end Client

end SendingSystem
