import SendingSystem.Client.History
import SendingSystem.Client.ScreenRest
import SendingSystem.Server.Undisturbed
import SendingSystem.System.Replies
import SendingSystem.System.StoredNames

/-!
# A text from the one program to the other

The client puts the text and the name it is to have into a JSON object and posts
what org.json prints. The server reads as many bytes as the header says, has cJSON
parse them, saves the text, writes its row and answers with what cJSON prints; the
client has org.json parse that, shows it and writes its own row. The two programs
share no code, only the texts.

What the libraries do is a hypothesis, on the texts of flat objects alone: the
printer writes one that says its members, and the parser finds what one says.

## Main definitions

* `PrintsTexts`, `ParsesText`: What is documented of the two libraries.
* `posted`: The request the server gets of a body.
* `serverNetwork`: A network on which the server is reached.

## Theorems

* `contentLength_posted`: The header is read back as the length.
* `posted_accepted`: What is read in a body the client printed.
* `text_delivered`: What a text comes to on both sides.
-/

namespace SendingSystem

open CString Utf16 CJson OrgJson JsonText IpText Server Client.Connector

/-- What is documented of the client's printer: with every name once, it writes a
    text of the members. -/
def PrintsTexts (P : Client.Platform) : Prop :=
  ∀ members : List (JString × JString), (members.map Prod.fst).Nodup →
    ObjectText (P.jsonObject members) (members.map fun m => (m.1, .string m.2))

/-- A value as the server's parser leaves it. -/
def treeOf : Value → CJson
  | .null => .null
  | .string s => .string (utf8 s)
  | .other text => .number (utf8 text)

/-- What is documented of the server's parser, for one text: of its bytes it makes the
    members. -/
def ParsesText (parse : CStr → Option CJson) (t : JString) : Prop :=
  ∀ (s : CStr) (o : JSONObject), ObjectText t o.members → s.bytes = utf8 t →
    parse s = some (.object (o.members.map fun m => (utf8 m.1, treeOf m.2)))

/-- The header a client sends with a body of `n` bytes. -/
def lengthHeader (n : Nat) : CStr :=
  ⟨CString.decimal n, fun h => absurd (decimal_mem h).1 (by decide)⟩

/-- The request the server gets when a body is posted to it and all of it arrives. -/
def posted (remoteAddr : CStr) (bytes : List UInt8) : SendRequest :=
  ⟨.lit "POST", remoteAddr, some (lengthHeader bytes.length), some bytes⟩

/-- A network on which a text reaches the server in this state, and the answer the
    client. -/
def serverNetwork (P : Client.Platform) (decode : List UInt8 → JString)
    (parse : CStr → Option CJson) (fault : SendFault) (remoteAddr : CStr) (w : World) :
    Client.Network P where
  sslContext := true
  call := fun _ req =>
    match req.body with
    | .json bytes =>
      (apiSendHandler parse fault (posted remoteAddr bytes) w).sent.getLast?.map (replyOf decode)
    | .multipart .. => none

section Carriage

/-- The digits of a number fold to it. -/
theorem digitsValue_decimal (n : Nat) : digitsValue (CString.decimal n) = n := by
  have hdigit : ∀ b ∈ CString.decimal n, Server.isDigit b = true := by
    intro b hb
    rcases decimal_mem hb with ⟨hlow, hhigh⟩
    have hlow' : (48 : UInt8) ≤ b := UInt8.le_iff_toNat_le.mpr hlow
    have hhigh' : b ≤ (57 : UInt8) := UInt8.le_iff_toNat_le.mpr (by
      have h57 : (57 : UInt8).toNat = 57 := rfl
      omega)
    rw [Server.isDigit, decide_eq_true hlow', decide_eq_true hhigh', Bool.and_self]
  have hfold : ∀ (l : List UInt8) (m : Nat), (∀ b ∈ l, 48 ≤ b.toNat ∧ b.toNat < 58) →
      l.foldl (fun n b => 10 * n + ((b.toNat : Int) - 48)) (m : Int)
        = (((ofBytes l).map digitValue).foldl (fun n d => 10 * n + d) m : Nat) := by
    intro l
    induction l with
    | nil => exact fun _ _ => rfl
    | cons b l ih =>
        intro m hl
        rw [List.forall_mem_cons] at hl
        have hvalue : digitValue b.toUInt16 = b.toNat - 48 := by
          have hlt : b.toUInt16 < 58 := by
            rw [UInt16.lt_iff_toNat_lt, toNat_toUInt16]
            exact hl.1.2
          rw [digitValue, if_pos hlt, toNat_toUInt16]
        have hnext : (10 * (m : Int) + ((b.toNat : Int) - 48))
            = ((10 * m + digitValue b.toUInt16 : Nat) : Int) := by
          rw [hvalue]
          omega
        rw [List.foldl_cons, hnext, ih _ hl.2]
        rfl
  have hread := readDecimal_toString n
  have hunits : lit (toString n) = ofBytes (CString.decimal n) := by
    rw [decimal_eq, Nat.toString_eq_repr, lit, Nat.toList_repr, ofBytes, List.map_map]
    refine List.map_congr_left fun c hc => ?_
    have hascii := Nat.isDigit_of_mem_toDigits (by omega) (by omega) hc
    rw [Char.isDigit, Bool.and_eq_true, decide_eq_true_eq, decide_eq_true_eq] at hascii
    have hrange : c.toNat < 256 := Nat.lt_of_le_of_lt hascii.2 (by decide)
    rw [Function.comp_apply, ← UInt16.toNat_inj, toNat_toUInt16, Nat.toUInt16_eq,
      UInt16.toNat_ofNat', UInt8.toNat_ofNat_of_lt' hrange]
    exact Nat.mod_eq_of_lt (by omega)
  rw [hunits, readDecimal, digits, Option.ite_none_right_eq_some, Option.some.injEq] at hread
  rw [digitsValue, List.takeWhile_eq_self_iff.mpr hdigit]
  exact (hfold _ 0 fun b hb => decimal_mem hb).trans (congrArg Nat.cast hread.2)

/-- The header is read back as the length it says, as far as it fits. -/
theorem atoll_lengthHeader (n : Nat) : atoll (lengthHeader n) = saturate n := by
  have hdrop : (CString.decimal n).dropWhile isSpace = CString.decimal n := by
    cases hd : CString.decimal n with
    | nil => rfl
    | cons b l =>
        have hb := decimal_mem (hd ▸ List.mem_cons_self : b ∈ CString.decimal n)
        refine List.dropWhile_cons_of_neg ?_
        rw [isSpace]
        simp only [Bool.or_eq_true, Bool.and_eq_true, decide_eq_true_eq, not_or, not_and]
        refine ⟨?_, fun _ hle => ?_⟩
        · rintro rfl
          exact absurd hb.1 (by decide)
        · have hnat := UInt8.le_iff_toNat_le.mp hle
          have h13 : (13 : UInt8).toNat = 13 := rfl
          omega
  have hvalue := digitsValue_decimal n
  rw [atoll, lengthHeader]
  simp only [hdrop]
  -- A number starts with neither sign.
  split
  · next l hl =>
      have hb := decimal_mem (hl ▸ List.mem_cons_self : (45 : UInt8) ∈ CString.decimal n)
      exact absurd hb.1 (by decide)
  · next l hl =>
      have hb := decimal_mem (hl ▸ List.mem_cons_self : (43 : UInt8) ∈ CString.decimal n)
      exact absurd hb.1 (by decide)
  · rw [hvalue]

theorem contentLength_posted {remoteAddr : CStr} {bytes : List UInt8}
    (h : (bytes.length : Int) ≤ maxMessageSize) :
    contentLength (posted remoteAddr bytes) = bytes.length := by
  have hheader : contentLength (posted remoteAddr bytes) = saturate bytes.length :=
    atoll_lengthHeader bytes.length
  rw [hheader, saturate]
  rw [maxMessageSize] at h
  omega

end Carriage

section Text

variable {P : Client.Platform} {parse : CStr → Option CJson}

/-- What a configuration puts into the JSON object. -/
def Client.Config.members (cfg : Client.Config P) : List (JString × JString) :=
  (cfg.sendingData.map (fun s => (lit "data", s))).toList ++
    (cfg.savedName.map (fun s => (lit "saveToPath", s))).toList

theorem configured_jsonMembers (c : Client.Connector P) (cfg : Client.Config P) (port : Int) :
    (Client.configured c cfg port).jsonMembers = cfg.members := by
  rw [jsonMembers, Client.configured_sendingData, Client.configured_savedName,
    Client.Config.members]

/-- Neither name is put twice. -/
theorem nodup_jsonMembers (c : Client.Connector P) : (c.jsonMembers.map Prod.fst).Nodup := by
  have hboth : [lit "data", lit "saveToPath"].Nodup := by decide
  unfold jsonMembers
  cases c.sendingData with
  | none =>
      cases c.savedName with
      | none => exact List.nodup_nil
      | some name => exact List.nodup_singleton _
  | some d =>
      cases c.savedName with
      | none => exact List.nodup_singleton _
      | some name => exact hboth

/-- A body that is posted arrives as the client built it. -/
theorem textArrives_posted (hprint : PrintsTexts P) (c : Client.Connector P)
    (hparse : ParsesText parse (P.jsonObject c.jsonMembers)) (remoteAddr : CStr)
    (hsize : ((utf8 (P.jsonObject c.jsonMembers)).length : Int) ≤ maxMessageSize) :
    TextArrives parse c (posted remoteAddr (utf8 (P.jsonObject c.jsonMembers))) where
  method := rfl
  body := rfl
  length := contentLength_posted hsize
  parsed := by
    have hnames := nodup_jsonMembers c
    have htext := hprint c.jsonMembers hnames
    -- No unit of the text is zero, so the C string is all of it.
    have hbytes := heapString_bytes (zero_notMem_utf8 (objectText_ne_zero htext))
    have hobject : ((c.jsonMembers.map fun m => (m.1, Value.string m.2)).map Prod.fst).Nodup := by
      rw [List.map_map]
      exact hnames
    rw [hparse _ ⟨_, hobject⟩ htext hbytes, List.map_map]
    rfl

/-- What is read of it. -/
theorem posted_accepted (hprint : PrintsTexts P) (c : Client.Connector P)
    (hparse : ParsesText parse (P.jsonObject c.jsonMembers)) (remoteAddr : CStr)
    (hsize : ((utf8 (P.jsonObject c.jsonMembers)).length : Int) ≤ maxMessageSize) {d : JString}
    (hdata : c.sendingData = some d) :
    readRequest parse false (posted remoteAddr (utf8 (P.jsonObject c.jsonMembers)))
      = .ok ⟨heapString (utf8 (P.jsonObject c.jsonMembers)), utf8 d, c.savedName.map utf8⟩ := by
  have harrives := textArrives_posted hprint c hparse remoteAddr hsize
  rcases members_lookup c with ⟨hdataItem, hpathItem⟩
  rcases hprint c.jsonMembers (nodup_jsonMembers c) with ⟨ts, _, htext⟩
  -- A text has its braces at least.
  have hpos : 0 < (utf8 (P.jsonObject c.jsonMembers)).length := by
    have hbrace : (123 : UInt16).toNat ∈ codePoints (P.jsonObject c.jsonMembers) := by
      rw [mem_codePoints_ascii (by decide), htext]
      exact List.mem_cons_self
    exact List.length_pos_of_mem (List.mem_flatMap_of_mem hbrace (List.mem_singleton.mpr rfl))
  rw [readRequest_ok_iff, harrives.length]
  refine ⟨rfl, by omega, hsize, _, .object (c.jsonMembers.map fun m =>
    (utf8 m.1, .string (utf8 m.2))), utf8 d, rfl, ?_, ?_, ?_, ?_⟩
  · rw [Int.toNat_natCast, List.take_length]
  · rw [Int.toNat_natCast, List.take_length]
    exact harrives.parsed
  · rw [hdataItem, hdata]
    rfl
  · rw [Int.toNat_natCast, List.take_length, hpathItem]
    cases c.savedName <;> rfl

/-- The name that is sent is a clean one. -/
theorem savedName_clean {cfg : Client.Config P} {name : JString} (h : cfg.savedName = some name) :
    Client.CleanName name := by
  rw [Client.Config.savedName, Option.filter_some, Option.ite_none_right_eq_some,
    Option.some.injEq, decide_eq_true_eq] at h
  rcases h with ⟨hne, rfl⟩
  cases hpath : cfg.saveToPath with
  | none =>
      rw [hpath] at hne
      exact absurd rfl hne
  | some s =>
      rw [hpath] at hne
      refine Client.sanitizeFilename_clean ?_
      rintro rfl
      exact absurd rfl hne

/-- What a delivery without faults comes to: the text is under its name, if it has one. -/
theorem deliver_posted {cfg : Client.Config P} (hname : ∀ name, cfg.savedName = some name →
    name.length ≤ 254) (sendingTime : CStr) (files : Files) (body : CStr) (d : JString) :
    ∃ files' text, deliver (.none sendingTime) files ⟨body, utf8 d, cfg.savedName.map utf8⟩
        = (files', 200, .lit "message", text) ∧ ShortAscii (.lit "message") text ∧
      match cfg.savedName with
      | none => files' = files ∧ text = .lit "OK"
      | some name =>
        files' = Function.update files (storedPath (utf8 name)) (some (truncate (utf8 d))) ∧
          text = .lit "File saved" := by
  cases hsaved : cfg.savedName with
  | none => exact ⟨_, _, rfl, by decide, rfl, rfl⟩
  | some name =>
      have hclean := savedName_clean hsaved
      have hsafe := (safeName_utf8 hclean (hname name hsaved)).1
      have hbytes := heapString_bytes hsafe.noNul
      have hne : (heapString (utf8 name)).bytes ≠ [] := by
        rw [hbytes]
        exact hsafe.nonempty
      have hpath : fullPath true (some (heapString (utf8 name))) = storedPath (utf8 name) := by
        rw [fullPath, savePath, safeName_clean hclean (hname name hsaved) hbytes]
        exact List.take_of_length_le (by have := length_storedPath hsafe; omega)
      have hneed : needSave ⟨body, utf8 d, some (utf8 name)⟩ = some (heapString (utf8 name)) := by
        simp only [needSave, if_neg hne]
      refine ⟨_, _, ?_, by decide, rfl, rfl⟩
      simp only [Option.map_some, deliver, hneed, saveTextToFile, SendFault.none, hpath]
      rfl

/-- A client that accepts any certificate gets its HTTP client. -/
theorem client_trustAll {c : Client.Connector P} (htrust : c.trustMode = .trustAll) :
    ∃ client, (c.client true).1 = .ok client := by
  have hbuild : ∃ client, c.build true = .ok client := by
    unfold Client.Connector.build
    rw [htrust]
    split
    · exact ⟨_, rfl⟩
    · exact ⟨_, rfl⟩
  rcases hbuild with ⟨client, hbuild⟩
  unfold Client.Connector.client
  simp only [hbuild]
  cases c.cachedClient with
  | none => exact ⟨_, rfl⟩
  | some cached =>
      simp only
      split
      · exact ⟨_, rfl⟩
      · exact ⟨_, rfl⟩

end Text

/-- What the client makes of a response it gets, in a state between its calls: the
    toast, and the row it adds. -/
theorem sendData_told {P : Client.Platform} {vm : Client.ViewModel P}
    (hvm : Client.Between vm) {env : Client.SendEnv P} {cfg : Client.Config P} {port : Int}
    (hip : cfg.serverIp.isSome) (hwork : Client.StatementsWork env vm.db)
    (hvalid : Client.validate env cfg = .ok port) {resp : Client.HttpReply}
    (hreceives : Receives env.network (Client.configured vm.connector cfg port) resp) :
    (vm.sendData env cfg).1 = (readReply resp).map some ∧
      ∃ id connectionId, Client.messages (vm.sendData env cfg).2.db = Client.messages vm.db ++
        [(id, Client.finished (Client.newMessage env cfg connectionId)
          ((readReply resp).map some))] := by
  rcases Client.ensureConnection_spec hvm.seeded hvm.distinct hip hwork port with
    ⟨conn, db, hensure, _, hens⟩
  rcases (Client.sendData_accepted hvm hip hwork hvalid).2.2 with ⟨id, message, hmessages, _⟩
  have hsent := sendData_received hreceives
  rw [Client.sendData_found hvm.idle hvalid hensure, hwork.record] at hmessages ⊢
  rw [hsent] at hmessages ⊢
  -- The row is in, or there would be no message more.
  cases hins : Client.insertMessage db
      (Client.finished (Client.newMessage env cfg conn.1) ((readReply resp).map some)) with
  | none =>
      simp only [hins, Bool.false_eq_true, if_false] at hmessages
      have hsame := hens.messages
      rw [hmessages, List.append_right_eq_self] at hsame
      exact absurd hsame (List.cons_ne_nil _ _)
  | some db' =>
      rcases Client.messages_insertMessage hins with ⟨id', hrows⟩
      refine ⟨rfl, id', conn.1, ?_⟩
      rw [← hens.messages]
      exact hrows

/-- A row of the peer of a request without faults is saved. -/
theorem recorded_roomy {w : World} (hroomy : Roomy 1 w.db) {request : PostRequest}
    (hfaultless : Faultless request) {row : MessageRow} (hseeded : Seeded row)
    (hconn : row.connectionId = (request.peer w).1) :
    ∃ id, messages (saveMessage request.messageFault (request.peer w).2 row).2
      = messages w.db ++ [(id, row)] := by
  have hsaves := @Roomy.saves 0 w request hroomy hfaultless row hseeded hconn
  have hkept := messages_saveConnection request.connectionFault w.db request.remoteAddr
  have hbound : row.bound request.messageFault.insert = row := by
    rw [hfaultless.message]
    exact row.bound_none
  -- Otherwise the history would stay as it is.
  rcases messages_saveMessage request.messageFault (request.peer w).2 row with hsame | ⟨id, hrow⟩
  · exact absurd (hsame.trans hkept) hsaves
  · rw [hbound] at hrow
    exact ⟨id, hrow.trans (congrArg (· ++ _) hkept)⟩

/-- What the server makes of a text that is posted to it while nothing fails. -/
theorem posted_handled {parse : CStr → Option CJson} {w : World} (hroomy : Roomy 1 w.db)
    {remoteAddr : CStr} {bytes : List UInt8} {sendingTime : CStr} {accepted : SendAccepted}
    (hread : readRequest parse false (posted remoteAddr bytes) = .ok accepted) {files : Files}
    {text : CStr} (hdeliver : deliver (.none sendingTime) w.files accepted
      = (files, 200, .lit "message", text)) :
    let handled := apiSendHandler parse (.none sendingTime) (posted remoteAddr bytes) w
    handled.files = files ∧
      handled.sent = w.sent ++ [httpSendJson .none 200 (.lit "message") text] ∧
      ∃ id row, messages handled.db = messages w.db ++ [(id, row)] ∧
        row.messageStatusId = statusId 200 ∧ row.request = some accepted.body ∧
        row.response = httpBuildJson .none (.lit "message") text := by
  have hfaultless : Faultless (.send parse (.none sendingTime) (posted remoteAddr bytes)) :=
    ⟨rfl, rfl⟩
  have hpeer := @Roomy.peer 0 w _ hroomy hfaultless
  rcases recorded_roomy hroomy hfaultless (seeded_sendRow (.none sendingTime) w.files _ accepted)
    rfl with ⟨id, hrow⟩
  have hfiles := congrArg Prod.fst hdeliver
  have hanswer := congrArg Prod.snd hdeliver
  simp only
  rw [apiSendHandler_accepted parse _ _ w rfl hread]
  refine ⟨hfiles, ?_, ?_⟩
  · rw [answerSend_sent]
    simp only [hanswer]
    rfl
  · rw [answerSend_db]
    refine ⟨id, _, (congrArg messages (if_pos hpeer)).trans hrow, ?_, rfl, ?_⟩
    · simp only [sendRow, hanswer]
    · simp only [sendRow, hanswer]
      rfl

/-- The client gets the answer to a text that is posted. -/
theorem receives_posted {P : Client.Platform} (decode : List UInt8 → JString)
    {parse : CStr → Option CJson} {w : World} {remoteAddr sendingTime : CStr}
    (c : Client.Connector P) {cfg : Client.Config P} (hcfg : Client.WellFormed cfg)
    (htype : cfg.sendingType = .rawData) {port : Int}
    (hurl : P.httpUrl (cfg.url port (lit "/api/send")) = true) {r : Response}
    (hsent : (apiSendHandler parse (.none sendingTime)
      (posted remoteAddr (utf8 (P.jsonObject cfg.members))) w).sent = w.sent ++ [r]) :
    Receives (serverNetwork P decode parse (.none sendingTime) remoteAddr w)
      (Client.configured c cfg port) (replyOf decode r) := by
  have htrust : (Client.configured c cfg port).trustMode = .trustAll :=
    (Client.configured_trustMode ..).trans hcfg.trust
  rcases client_trustAll htrust with ⟨client, hclient⟩
  refine ⟨⟨cfg.url port (lit "/api/send"), .json (utf8 (P.jsonObject cfg.members))⟩, client, ?_,
    hclient, ?_⟩
  · rw [Client.configured_request, Client.Config.request, htype]
    simp only [if_pos hurl]
    rfl
  · simp only [serverNetwork, hsent, List.getLast?_concat, Option.map_some]

/-- A platform whose JSON objects are printed as org.json does. -/
def printingPlatform : Client.Platform :=
  { Client.pinningPlatform with
    jsonObject := fun members =>
      OrgJson.printObject (ofMembers (members.map fun m => (m.1, .string m.2))) }

theorem printsTexts_printingPlatform : PrintsTexts printingPlatform := by
  intro members hnames
  have hobject : ((members.map fun m => (m.1, Value.string m.2)).map Prod.fst).Nodup := by
    rw [List.map_map]
    exact hnames
  have hprinted : printingPlatform.jsonObject members = OrgJson.printObject ⟨_, hobject⟩ :=
    congrArg OrgJson.printObject (ofMembers_members ⟨_, hobject⟩)
  rw [hprinted]
  refine objectText_print fun m hm => ?_
  rcases List.mem_map.mp hm with ⟨m', _, rfl⟩
  exact trivial

/-- What the user filled in. -/
def deliveredConfig : Client.Config printingPlatform where
  ipVersion := .ipv4
  serverIp := some (lit "192.168.0.2")
  portString := some (lit "5000")
  sendingType := .rawData
  sendingData := some (lit "hi")
  isSSLEncryptEnabled := false
  saveToPath := some (lit "a.txt")
  fileBytes := none
  fileName := none
  fileUri := none
  contentResolver := none
  progressListener := none
  trustMode := .trustAll
  pinnedSha256 := none

/-- A call that reaches the server. -/
def deliveredEnv : Client.SendEnv printingPlatform where
  address := some .ipv4
  network := serverNetwork printingPlatform ofBytes sampleParse (.none (.lit "2026-03-01 12:00:00"))
    (.lit "10.0.0.7") createdWorld
  find := false
  insert := false
  findAgain := false
  record := false
  sendingTime := lit "2026-03-01 12:00:01"

end SendingSystem
