import SendingSystem.Client.SendData
import SendingSystem.Client.TlsClient
import SendingSystem.Server.History

/-!
# The two histories

Each side of an exchange records a message on its own: the server by the status
it answers with, the client by whether `sendData` returns. Between them is
`execute`, which returns the body of a response that is not successful as long
as there is one. So the answer 500 to a text that could not be saved is a failure
in the server's history and a success in the client's. And a body the server
could not build is `NULL` in its row and the empty text in the client's, and one it
could not bind is `NULL` in its row and the text that was sent in the client's.

The two rows of an exchange are compared for every outcome on both sides; how
OkHttp decodes a body is a parameter, with what it does to ASCII as hypothesis.

## Main definitions

* `replyOf`: What the client reads of a response of the server.
* `Agree`: The rows have the same status and the same response.

## Theorems

* `finished_agree_iff`: When what the client makes of a response agrees.
* `histories_agree_iff`: When the rows of an exchange agree.
-/

namespace SendingSystem

open CString Utf16 CJson Server Client.Connector

/-- What the client reads of a response, `decode` turning the body into a text. -/
def replyOf (decode : List UInt8 → JString) (r : Response) : Client.HttpReply :=
  ⟨r.status, ofBytes r.reason.bytes, some (decode r.body)⟩

/-- The rows have the same status and the same response. -/
def Agree (message : Client.Message) (row : MessageRow) : Prop :=
  message.messageStatusId = row.messageStatusId ∧
    message.response = row.response.map (fun s => ofBytes s.bytes)

/-- The client never records a null response. -/
theorem finished_response_ne {message : Client.Message} (hmessage : message.response = some [])
    (sent : Except Client.Failure (Option JString)) :
    (Client.finished message sent).response ≠ none := by
  cases sent with
  | error e =>
      rw [Client.finished, hmessage]
      exact Option.some_ne_none _
  | ok response => exact Option.some_ne_none _

/-- What the client makes of a built response agrees with the server's row
    exactly if the status is 200, there is a body, and the row has it. -/
theorem finished_agree_iff {decode : List UInt8 → JString}
    (hdecode : ∀ l, (∀ b ∈ l, b.toNat < 128) → decode l = ofBytes l) {fault : BuildFault}
    {insert : StmtFault} {type data : CStr} (hshort : ShortAscii type data) {status : Int}
    {message : Client.Message} (hmessage : message.response = some []) {row : MessageRow}
    (hid : row.messageStatusId = statusId status)
    (hresponse : row.response = dbBindTextOrNull insert 5 (httpBuildJson fault type data)) :
    Agree (Client.finished message ((readReply (replyOf decode
        (httpSendBuiltJson status (httpBuildJson fault type data)))).map some)) row ↔
      status = 200 ∧ fault.object = false ∧ fault.print = false ∧ insert.bind 5 = false := by
  -- There is a body unless the object or its text could not be allocated.
  have hbuilt : (fault.object = false ∧ fault.print = false) ↔
      httpBuildJson fault type data ≠ none := by
    rw [ne_eq, httpBuildJson_eq_none, not_or, Bool.not_eq_true, Bool.not_eq_true]
  rw [← and_assoc (a := fault.object = false), hbuilt]
  have hnull : row.response = none → ∀ sent, ¬ Agree (Client.finished message sent) row := by
    rintro hnone sent ⟨_, h⟩
    rw [hnone] at h
    exact absurd h (finished_response_ne hmessage sent)
  cases hbind : insert.bind 5 with
  | true =>
      rw [dbBindTextOrNull_of_failed _ hbind] at hresponse
      exact iff_of_false (hnull hresponse _) fun h => Bool.noConfusion h.2.2
  | false =>
      rw [dbBindTextOrNull_of_bound _ hbind] at hresponse
      cases hjson : httpBuildJson fault type data with
      | none =>
          rw [hjson] at hresponse
          exact iff_of_false (hnull hresponse _) fun h => absurd rfl h.2.1
      | some s =>
          rw [hjson] at hresponse
          rcases httpBuildJson_some hshort hjson with ⟨hne, hascii, hbody⟩
          have htext : (replyOf decode (httpSendBuiltJson status (some s))).body
              = some (ofBytes s.bytes) := by
            rw [replyOf, hbody status, hdecode s.bytes hascii]
          -- A body there is is returned, whatever the status.
          have hok : readReply (replyOf decode (httpSendBuiltJson status (some s)))
              = .ok (ofBytes s.bytes) := by
            rcases readReply_cases (replyOf decode (httpSendBuiltJson status (some s))) with
              ⟨h, _⟩ | ⟨_, _, _, h⟩
            · rw [h, htext]
              rfl
            · rw [htext, Option.getD_some, ofBytes_eq_nil] at h
              exact absurd h hne
          rw [hok, Agree, hid, hresponse]
          simp only [Except.map, Client.finished, Client.MessageStatus.index, Option.getD_some,
            Option.map_some, and_true, ne_eq, reduceCtorEq, not_false_eq_true, statusId,
            MessageStatusId.id]
          split
          · next h => simp only [h]
          · next h => simp only [h, iff_false]; omega

section Exchange

variable {P : Client.Platform} {decode : List UInt8 → JString} {env : Client.SendEnv P}
  {vm : Client.ViewModel P} {cfg : Client.Config P} {message : Client.Message}

/-- What a client that got a response recorded. -/
theorem recorded_received {id : Int} {resp : Client.HttpReply}
    (hclient : Client.messages (vm.sendData env cfg).2.db
      = Client.messages vm.db ++ [(id, message)])
    (hreceives : ∀ port, Client.validate env cfg = .ok port →
      Receives env.network (Client.configured vm.connector cfg port) resp) :
    ∃ conn, message = Client.finished (Client.newMessage env cfg conn)
      ((readReply resp).map some) := by
  rcases Client.sendData_recorded hclient with ⟨port, conn, _, hvalid, _, hmessage⟩
  rw [sendData_received (hreceives port hvalid)] at hmessage
  exact ⟨conn.1, hmessage⟩

end Exchange

/-- For every exchange in which the client records a message and gets the
    response that the server wrote when it recorded a row: the two agree exactly
    if the server could build the body of its response, bind it to the row and,
    for a text to be saved, open the file. -/
theorem histories_agree_iff (P : Client.Platform) (decode : List UInt8 → JString)
    (hdecode : ∀ l, (∀ b ∈ l, b.toNat < 128) → decode l = ofBytes l) (env : Client.SendEnv P)
    (vm : Client.ViewModel P) (cfg : Client.Config P) (id : Int) (message : Client.Message)
    (hclient : Client.messages (vm.sendData env cfg).2.db
      = Client.messages vm.db ++ [(id, message)]) :
    (∀ (parse : CStr → Option CJson) (fault : SendFault) (req : SendRequest) (w : World)
      (r : Response) (rowId : Int) (row : MessageRow),
      messages (apiSendHandler parse fault req w).db = messages w.db ++ [(rowId, row)] →
      (apiSendHandler parse fault req w).sent = w.sent ++ [r] →
      (∀ port, Client.validate env cfg = .ok port →
        Receives env.network (Client.configured vm.connector cfg port) (replyOf decode r)) →
      (Agree message row ↔ fault.build.object = false ∧ fault.build.print = false ∧
        fault.message.insert.bind 5 = false ∧
        (fault.file.fopen = false ∨ ¬ AsksToSave parse req))) ∧
    (∀ (fault : UploadFault) (req : UploadRequest) (w : World) (r : Response) (rowId : Int)
      (row : MessageRow),
      messages (apiUploadHandler fault req w).db = messages w.db ++ [(rowId, row)] →
      (apiUploadHandler fault req w).sent = w.sent ++ [r] →
      (∀ port, Client.validate env cfg = .ok port →
        Receives env.network (Client.configured vm.connector cfg port) (replyOf decode r)) →
      (Agree message row ↔ fault.build.object = false ∧ fault.build.print = false ∧
        fault.message.insert.bind 5 = false)) := by
  constructor
  · intro parse fault req w r rowId row hrow hsent hreceives
    rcases apiSendHandler_recorded hrow with ⟨accepted, hread, hid, hresponse, hsent'⟩
    rw [hsent', List.append_cancel_left_eq, List.cons.injEq] at hsent
    rw [← hsent.1] at hreceives
    rcases recorded_received hclient hreceives with ⟨conn, hmessage⟩
    -- Status and body are those of one delivery, so the two sides are compared on it.
    have hshort := deliver_texts fault w.files accepted
    rw [hmessage, finished_agree_iff hdecode hshort rfl hid hresponse, deliver_ok_iff,
      ← needSave_iff hread]
    cases needSave accepted with
    | none =>
        simp only [true_or, true_and, reduceCtorEq, exists_false, not_false_eq_true, or_true,
          and_true]
    | some path =>
        simp only [reduceCtorEq, false_or, Option.some.injEq, exists_eq', not_true_eq_false,
          or_false]
        exact ⟨fun h => ⟨h.2.1, h.2.2.1, h.2.2.2, h.1⟩, fun h => ⟨h.2.2.2, h.1, h.2.1, h.2.2.1⟩⟩
  · intro fault req w r rowId row hrow hsent hreceives
    rcases apiUploadHandler_recorded hrow with ⟨hid, hresponse, hsent'⟩
    rw [hsent', List.append_cancel_left_eq, List.cons.injEq] at hsent
    rw [← hsent.1] at hreceives
    rcases recorded_received hclient hreceives with ⟨conn, hmessage⟩
    -- An upload is only recorded on its way to 200.
    have hstatus : row.messageStatusId = statusId 200 := hid
    rw [hmessage, finished_agree_iff hdecode (by decide) rfl hstatus hresponse]
    exact ⟨fun h => h.2, fun h => ⟨rfl, h⟩⟩

/-- The body of a request to save the text `hi` under `a.txt`. -/
def sampleBody : List UInt8 :=
  printObject [(ascii "data", ascii "hi"), (ascii "saveToPath", ascii "a.txt")]

/-- A parser that knows this body. -/
def sampleParse (s : CStr) : Option CJson :=
  if s.bytes = sampleBody then
    some (.object [(ascii "data", .string (ascii "hi")),
      (ascii "saveToPath", .string (ascii "a.txt"))])
  else none

/-- The request with this body. -/
def sampleRequest : SendRequest :=
  ⟨.lit "POST", .lit "10.0.0.7", some (.lit "34"), some sampleBody⟩

/-- Nothing fails, except perhaps opening the file. -/
def sampleFault (fopen : Bool) : SendFault :=
  { SendFault.none (.lit "2026-03-01 12:00:00") with file := ⟨fopen, none, none⟩ }

/-- The server's state after the request. -/
def sampleAnswered (fopen : Bool) : World :=
  apiSendHandler sampleParse (sampleFault fopen) sampleRequest createdWorld

/-- A client whose requests reach that server. -/
def sampleEnv (fopen : Bool) : Client.SendEnv Client.pinningPlatform where
  address := some .ipv4
  network := {
    sslContext := true
    call := fun _ req =>
      match req.body with
      | .json bytes =>
        if bytes = sampleBody then (sampleAnswered fopen).sent.head?.map (replyOf ofBytes) else none
      | .multipart .. => none }
  find := false
  insert := false
  findAgain := false
  record := false
  sendingTime := lit "2026-03-01 12:00:01"

/-- What the user filled in. -/
def sampleConfig : Client.Config Client.pinningPlatform where
  ipVersion := .ipv4
  serverIp := some (lit "192.168.0.2")
  portString := some (lit "5000")
  sendingType := .rawData
  sendingData := some (lit "hi")
  isSSLEncryptEnabled := false
  saveToPath := some (lit "a.txt")
  fileBytes := none
  fileName := none
  fileUri := none
  contentResolver := none
  progressListener := none
  trustMode := .trustAll
  pinnedSha256 := none

/-- A new view model on the seeded database. -/
def sampleViewModel : Client.ViewModel Client.pinningPlatform :=
  ⟨.new, false, Client.createdDatabase⟩

/-- The message the client records when it gets this text. -/
def sampleMessage (response : JString) : Client.Message where
  connectionId := 1
  messageStatusId := 1
  messageTypeId := 1
  directionId := 1
  response := some response
  sendingTime := some (lit "2026-03-01 12:00:01")
  request := some (lit "hi")

/-- The row the server records with this status and response. -/
def sampleRow (messageStatusId : Int) (response : Option CStr) : MessageRow where
  connectionId := 1
  messageStatusId := messageStatusId
  messageTypeId := 1
  directionId := 2
  response := response
  sendingTime := some (.lit "2026-03-01 12:00:00")
  request := some (heapString sampleBody)

theorem sample_received (fopen : Bool) (port : Int)
    (h : Client.validate (sampleEnv fopen) sampleConfig = .ok port) :
    Receives (sampleEnv fopen).network
      (Client.configured sampleViewModel.connector sampleConfig port)
      (replyOf ofBytes ((sampleAnswered fopen).sent.headD (httpSendBuiltJson 200 none))) := by
  have hport : Client.validate (sampleEnv fopen) sampleConfig = .ok 5000 := by
    cases fopen <;> rfl
  rw [hport, Except.ok.injEq] at h
  subst h
  cases fopen <;> exact ⟨_, _, rfl, rfl, rfl⟩

/-- When the file can be opened the two rows agree. -/
theorem histories_agree_iff_saved :
    Agree
      (sampleMessage (ofBytes (printObject
        [(ascii "type", ascii "message"), (ascii "data", ascii "File saved")])))
      (sampleRow 1 (httpBuildJson .none (.lit "message") (.lit "File saved"))) :=
  ((histories_agree_iff Client.pinningPlatform ofBytes (fun _ _ => rfl) (sampleEnv false)
    sampleViewModel sampleConfig 1 _ (by rfl)).1 sampleParse (sampleFault false) sampleRequest
    createdWorld (httpSendBuiltJson 200 (httpBuildJson .none (.lit "message") (.lit "File saved")))
    1 _ (by rfl) (by rfl) (fun port h => sample_received false port h)).mpr
    ⟨rfl, rfl, rfl, Or.inl rfl⟩

/-- When it cannot, the server records a failure and the client a success. -/
theorem unsaved_text_histories_differ :
    Client.messages (sampleViewModel.sendData (sampleEnv true) sampleConfig).2.db
        = Client.messages sampleViewModel.db ++ [(1, sampleMessage (ofBytes (printObject
            [(ascii "type", ascii "error"), (ascii "data", ascii "Cannot save file")])))] ∧
      messages (sampleAnswered true).db = messages createdWorld.db ++ [(1, sampleRow 2
        (httpBuildJson .none (.lit "error") (.lit "Cannot save file")))] ∧
      (sampleAnswered true).sent = createdWorld.sent ++
        [httpSendBuiltJson 500 (httpBuildJson .none (.lit "error") (.lit "Cannot save file"))] ∧
      (∀ port, Client.validate (sampleEnv true) sampleConfig = .ok port →
        Receives (sampleEnv true).network
          (Client.configured sampleViewModel.connector sampleConfig port)
          (replyOf ofBytes (httpSendBuiltJson 500
            (httpBuildJson .none (.lit "error") (.lit "Cannot save file"))))) ∧
      ¬ Agree
        (sampleMessage (ofBytes (printObject
          [(ascii "type", ascii "error"), (ascii "data", ascii "Cannot save file")])))
        (sampleRow 2 (httpBuildJson .none (.lit "error") (.lit "Cannot save file"))) := by
  refine ⟨by rfl, by rfl, by rfl, fun port h => sample_received true port h, ?_⟩
  rintro ⟨hstatus, _⟩
  exact absurd hstatus (by decide)

end SendingSystem
