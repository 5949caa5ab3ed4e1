import SendingSystem.Client.Database

/-!
# One send operation of the client

`SendDataViewModel.SendData`: check the port and the address, find or insert the
row of the server, hand the configuration to the shared connector, send, and
record the outcome. The message is created as failed and turned into a success
when `sendData` returns; a `finally` block inserts it either way.

What the system does in one call is a `SendEnv`: the address the host resolves
to, the network, the clock, and which database statement throws.

## Main definitions

* `Config`: The parameters of a send operation.
* `ViewModel`: The view model and the database behind it.
* `parseInt`, `validate`: The checks.
* `ensureConnection`: The row of the server.
* `configured`: The connector when `sendData` is called on it.
* `newMessage`, `finished`: The message before and after sending.
* `ViewModel.sendData`: The operation.

## Theorems

* `sendData_rejected`, `sendData_found`: What a call does.
* `configured_saveToPath`, `configured_sendingData`: What is handed to the connector.
* `ensureConnection_db`, `messages_ensureConnection`: What finding the server changes.
* `sendData_recorded`: What a call that records a message records.
-/

namespace SendingSystem

namespace Client

open Utf16 Connector

/-- Where the blocks of decimal digits start that `Character.digit` knows. -/
def digitBlocks : List Nat := [0x30, 0x660, 0x6F0, 0x7C0, 0x966, 0x9E6, 0xA66, 0xAE6, 0xB66, 0xBE6,
  0xC66, 0xCE6, 0xD66, 0xDE6, 0xE50, 0xED0, 0xF20, 0x1040, 0x1090, 0x17E0, 0x1810, 0x1946, 0x19D0,
  0x1A80, 0x1A90, 0x1B50, 0x1BB0, 0x1C40, 0x1C50, 0xA620, 0xA8D0, 0xA900, 0xA9D0, 0xA9F0, 0xAA50,
  0xABF0, 0xFF10]

/-- `Character.digit(u, 10)`. -/
def digit (u : UInt16) : Option Nat :=
  (digitBlocks.find? (fun b => b ≤ u.toNat && u.toNat < b + 10)).map (fun b => u.toNat - b)

/-- The digits of a number, without its sign. -/
def parseDigits (negative : Bool) (s : JString) : Option Int :=
  if s = [] then none
  else
    (s.mapM digit).bind (fun digits =>
      let magnitude : Int := digits.foldl (fun n d => 10 * n + d) 0
      let value := if negative then -magnitude else magnitude
      if -2147483648 ≤ value ∧ value ≤ 2147483647 then some value else none)

/-- `Integer.parseInt`, nothing when it throws. -/
def parseInt (s : Option JString) : Option Int :=
  match s with
  | none => none
  | some (45 :: s) => parseDigits true s
  | some (43 :: s) => parseDigits false s
  | some s => parseDigits false s

/-- `SendDataViewModel.Config`. -/
structure Config (P : Platform) where
  ipVersion : IPVersion
  serverIp : Option JString
  portString : Option JString
  sendingType : SendingType
  sendingData : Option JString
  isSSLEncryptEnabled : Bool
  saveToPath : Option JString
  fileBytes : Option (List UInt8)
  fileName : Option JString
  fileUri : Option P.Uri
  contentResolver : Option P.ContentResolver
  progressListener : Option P.ProgressListener
  trustMode : TrustMode
  pinnedSha256 : Option JString

/-- The view model, and the database behind it. -/
structure ViewModel (P : Platform) where
  connector : Connector P
  isSending : Bool
  db : Database

/-- What the system does in one call: the family of the address the host resolves
    to, if it does; the network; the database statements that throw; the time. -/
structure SendEnv (P : Platform) where
  address : Option IPVersion
  network : Network P
  find : Bool
  insert : Bool
  findAgain : Bool
  record : Bool
  sendingTime : JString

variable {P : Platform}

/-- `getIsSending`. -/
def ViewModel.getIsSending (vm : ViewModel P) : Bool := vm.isSending || vm.connector.isSending

/-- `Connector.isValidInetAddress`, on what the host resolves to. -/
def isValidInetAddress (address : Option IPVersion) (version : IPVersion) : Bool :=
  address = some version

/-- The checks, with the port they read. -/
def validate (env : SendEnv P) (cfg : Config P) : Except Failure Int :=
  match parseInt cfg.portString with
  | none => .error (.numberFormatException (lit "Wrong port"))
  | some serverPort =>
    if serverPort < 1 ∨ 65535 < serverPort then
      .error (.exception (lit "The port must be between 1 and 65535"))
    else if isValidInetAddress env.address cfg.ipVersion then .ok serverPort
    else .error (.exception (lit "Wrong IP-address: " ++ concat cfg.serverIp))

/-- The row of the server, inserted if there is none. A null address is inserted
    and then not found. -/
def ensureConnection (env : SendEnv P) (db : Database) (cfg : Config P) (serverPort : Int) :
    Except Failure (Option (Int × Connection)) × Database :=
  let find := fun db =>
    findConnection db cfg.serverIp serverPort cfg.isSSLEncryptEnabled ConnectionRole.server.index
  if env.find then (.error .thrown, db)
  else
    -- A row there already is used as it is.
    match find db with
    | some conn => (.ok (some conn), db)
    | none =>
      match (if env.insert then none else insertConnection db
        ⟨cfg.serverIp, serverPort, cfg.isSSLEncryptEnabled, ConnectionRole.server.index⟩) with
      | none => (.error .thrown, db)
      | some db => if env.findAgain then (.error .thrown, db) else (.ok (find db), db)

/-- `connector.setSaveToPath` as the operation calls it. -/
def chooseSaveToPath (c : Connector P) (cfg : Config P) : Connector P :=
  match cfg.saveToPath with
  | none => c.setSaveToPath none
  | some s =>
    if s = [] then c.setSaveToPath none
    else c.setSaveToPath (some (sanitizeFilename (some s)))

/-- The file the operation hands to the connector. -/
def chooseFile (c : Connector P) (cfg : Config P) : Connector P :=
  match cfg.fileUri, cfg.contentResolver with
  | some uri, some cr => c.setFileUri cr uri cfg.fileName
  | _, _ => if cfg.fileBytes.isSome then c.setFileBytes cfg.fileBytes cfg.fileName else c.clearFile

/-- The connector when `sendData` is called on it. -/
def configured (c : Connector P) (cfg : Config P) (serverPort : Int) : Connector P :=
  chooseFile { chooseSaveToPath c cfg with
    serverIp := cfg.serverIp
    serverPort := serverPort
    sendingType := cfg.sendingType
    sendingData := cfg.sendingData
    ipVersion := cfg.ipVersion
    isSSLEncryptEnabled := cfg.isSSLEncryptEnabled
    trustMode := cfg.trustMode
    pinnedSha256 := cfg.pinnedSha256
    progressListener := cfg.progressListener } cfg

/-- The message before sending. -/
def newMessage (env : SendEnv P) (cfg : Config P) (connectionId : Int) : Message where
  connectionId := connectionId
  messageStatusId := MessageStatus.failed.index
  messageTypeId := cfg.sendingType.index
  directionId := MessageDirection.outbound.index
  response := some []
  sendingTime := some env.sendingTime
  request := if cfg.sendingType = .file then cfg.saveToPath else cfg.sendingData

/-- The message after sending. -/
def finished (message : Message) (sent : Except Failure (Option JString)) : Message :=
  match sent with
  | .ok response =>
    { message with
      response := some (response.getD [])
      messageStatusId := MessageStatus.success.index }
  | .error _ => message

/-- `SendData`. -/
def ViewModel.sendData (env : SendEnv P) (vm : ViewModel P) (cfg : Config P) :
    Except Failure (Option JString) × ViewModel P :=
  if vm.getIsSending then
    (.error (.exception (lit "Data sending right now. Please, wait.")), vm)
  else
    match validate env cfg with
    | .error e => (.error e, vm)
    | .ok serverPort =>
      match ensureConnection env vm.db cfg serverPort with
      | (.error e, db) => (.error e, { vm with db := db })
      | (.ok none, db) =>
        (.error .nullPointerException,
          { vm with db := db, connector := chooseSaveToPath vm.connector cfg })
      | (.ok (some conn), db) =>
        -- From here on `finally` records the message, whatever comes of the request.
        let sent := (configured vm.connector cfg serverPort).sendData env.network
        let message := finished (newMessage env cfg conn.1) sent.1
        match (if env.record then none else insertMessage db message) with
        | none => (.error .thrown, ⟨sent.2, false, db⟩)
        | some db => (sent.1, ⟨sent.2, false, db⟩)

/-- A call that fails a check has done nothing. -/
theorem sendData_rejected {env : SendEnv P} {vm : ViewModel P} {cfg : Config P} {e : Failure}
    (hsending : vm.getIsSending = false) (hvalid : validate env cfg = .error e) :
    vm.sendData env cfg = (.error e, vm) := by
  simp only [ViewModel.sendData, hsending, Bool.false_eq_true, if_false, hvalid]

/-- A call with a row of the server sends, and records the outcome. -/
theorem sendData_found {env : SendEnv P} {vm : ViewModel P} {cfg : Config P} {serverPort : Int}
    {conn : Int × Connection} {db : Database} (hsending : vm.getIsSending = false)
    (hvalid : validate env cfg = .ok serverPort)
    (hensure : ensureConnection env vm.db cfg serverPort = (.ok (some conn), db)) :
    vm.sendData env cfg =
      match (if env.record then none else insertMessage db (finished (newMessage env cfg conn.1)
        ((configured vm.connector cfg serverPort).sendData env.network).1)) with
      | none => (.error .thrown,
          ⟨((configured vm.connector cfg serverPort).sendData env.network).2, false, db⟩)
      | some db => (((configured vm.connector cfg serverPort).sendData env.network).1,
          ⟨((configured vm.connector cfg serverPort).sendData env.network).2, false, db⟩) := by
  simp only [ViewModel.sendData, hsending, Bool.false_eq_true, if_false, hvalid, hensure]

/-- The name the connector gets: that of the configuration, sanitised once. -/
theorem configured_saveToPath (c : Connector P) (cfg : Config P) (serverPort : Int) :
    (configured c cfg serverPort).saveToPath = some (sanitizeFilename cfg.saveToPath) := by
  -- Choosing the file comes last and leaves the name alone.
  have hfile : ∀ c : Connector P, (chooseFile c cfg).saveToPath = c.saveToPath := by
    intro c
    unfold chooseFile
    split
    · rfl
    · split <;> rfl
  rw [configured, hfile]
  simp only [chooseSaveToPath]
  cases cfg.saveToPath with
  | none => rfl
  | some s =>
      simp only
      by_cases hs : s = []
      · rw [if_pos hs, hs]
        rfl
      -- The name is sanitised here and once more by the setter.
      · rw [if_neg hs, setSaveToPath, sanitizeFilename_idem]

/-- The text the connector gets is that of the configuration. -/
theorem configured_sendingData (c : Connector P) (cfg : Config P) (serverPort : Int) :
    (configured c cfg serverPort).sendingData = cfg.sendingData := by
  unfold configured chooseFile
  split
  · rfl
  · split <;> rfl

/-- The database is left as it is, or has the row of the server inserted. -/
theorem ensureConnection_db (env : SendEnv P) (db : Database) (cfg : Config P) (serverPort : Int) :
    (ensureConnection env db cfg serverPort).2 = db ∨
      insertConnection db
        ⟨cfg.serverIp, serverPort, cfg.isSSLEncryptEnabled, ConnectionRole.server.index⟩
        = some (ensureConnection env db cfg serverPort).2 := by
  unfold ensureConnection
  simp only
  split
  · exact Or.inl rfl
  · split
    · exact Or.inl rfl
    · split
      · exact Or.inl rfl
      · next h =>
          -- The second look-up, which may throw, comes after the insertion.
          right
          split at h
          · simp only [reduceCtorEq] at h
          · rw [h]
            split <;> rfl

/-- Finding or inserting the server's row adds no message. -/
theorem messages_ensureConnection (env : SendEnv P) (db : Database) (cfg : Config P)
    (serverPort : Int) : messages (ensureConnection env db cfg serverPort).2 = messages db := by
  rcases ensureConnection_db env db cfg serverPort with h | h
  · rw [h]
  · exact messages_insertConnection h

/-- A call that adds a message passed the checks, had a row of the server, and
    recorded what `sendData` gave. -/
theorem sendData_recorded {env : SendEnv P} {vm : ViewModel P} {cfg : Config P} {id : Int}
    {message : Message}
    (h : messages (vm.sendData env cfg).2.db = messages vm.db ++ [(id, message)]) :
    ∃ serverPort conn, vm.getIsSending = false ∧ validate env cfg = .ok serverPort ∧
      (ensureConnection env vm.db cfg serverPort).1 = .ok (some conn) ∧
      message = finished (newMessage env cfg conn.1)
        ((configured vm.connector cfg serverPort).sendData env.network).1 := by
  have hsame : ∀ db, messages db = messages vm.db →
      messages db ≠ messages vm.db ++ [(id, message)] := by
    intro db hdb
    rw [hdb, ne_eq, List.self_eq_append_right]
    exact List.cons_ne_nil _ []
  unfold ViewModel.sendData at h
  by_cases hsending : vm.getIsSending = true
  · rw [if_pos hsending] at h
    exact absurd h (hsame _ rfl)
  · rw [if_neg hsending] at h
    rw [Bool.not_eq_true] at hsending
    -- Every way out before the message is inserted adds none.
    cases hvalid : validate env cfg with
    | error e =>
        simp only [hvalid] at h
        exact absurd h (hsame _ rfl)
    | ok serverPort =>
        simp only [hvalid] at h
        have hensure := messages_ensureConnection env vm.db cfg serverPort
        generalize hresult : ensureConnection env vm.db cfg serverPort = result at h hensure
        rcases result with ⟨_ | ⟨_ | conn⟩, db⟩
        · exact absurd h (hsame _ hensure)
        · exact absurd h (hsame _ hensure)
        · simp only at h hensure
          refine ⟨serverPort, conn, hsending, rfl, by rw [hresult], ?_⟩
          split at h
          · exact absurd h (hsame _ hensure)
          · next hinsert =>
              split at hinsert
              · simp only [reduceCtorEq] at hinsert
              · rcases messages_insertMessage hinsert with ⟨id', hrows⟩
                rw [hrows, hensure, List.append_cancel_left_eq, List.cons.injEq] at h
                exact (Prod.mk.injEq _ _ _ _ ▸ h.1).2.symm

end Client

end SendingSystem
