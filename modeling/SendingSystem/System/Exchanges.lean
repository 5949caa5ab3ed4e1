import SendingSystem.Lib.Labelled
import SendingSystem.System.Delivery

/-!
# Many clients, one server, and a network that loses

Each client calls `SendData` when its user says so. What it posts may be lost on the
way, arrive cut, or arrive whole. The client may give the call up, and then its request
is still under way, or its answer is: the server gets to it later, after any number of
further calls, or never. The server handles one request at a time, those of other
programs among them, and opens its database file again. Whatever happens, the histories
on all sides are views of one log: every row the server adds for a client has its
message in the client's history, and none is there twice. The rows of calls that were
answered stand in the order of their messages; a row that comes late stands for a
message that was not answered.

What a step may add is `Sound`, one case for each way a call can end. A client that
recorded a success was answered; the server may have recorded one for a client that
was not.

## Main definitions

* `Fate`, `Carries`: What becomes of a request while its client waits.
* `Late`: A request its client has given up.
* `Network`: The clients, the server, and the requests under way.
* `Step`: One call, with what came of it while the client waited, or something else the
  server does.
* `Sent`, `Received`, `Matched`, `Sound`: What the rows of one call have to do with each
  other.
* `Orderly`: Late requests were sent, and come once.
* `Pending`: What holds of the requests under way.
* `Entry`: A step, and what it added on either side.

## Theorems

* `carried_text`: A row for a text is the whole of what was posted.
* `step_sound`: What one step adds.
* `step_pending`: Requests come in one at a time, and once.
* `exchanges_logged`: The histories after any run.
-/

namespace SendingSystem

open CString Utf16 CJson Server Client.Connector Labelled

namespace Exchanges

/-- What becomes of a request while its client waits: it does not reach the server, or
    the client gives it up and it may still get there, or it is handled and answered. A
    request that is handled while the client waits and whose answer is lost is one that
    is given up and comes next. -/
inductive Fate where
  | lost
  | givenUp (request : PostRequest)
  | answered (request : PostRequest)

/-- The server after it. -/
def Fate.world (w : World) : Fate → World
  | .lost => w
  | .givenUp _ => w
  | .answered request => request.handle w

/-- What a request of the client is to the server. Of a text there is as much as
    arrives, under the header of all of it; of a form the one part, or none. -/
inductive Carries {P : Client.Platform} (remoteAddr : CStr) :
    Client.Request P → PostRequest → Prop where
  | text (url : JString) (bytes : List UInt8) (parse : CStr → Option CJson) (fault : SendFault)
      (body : Option (List UInt8)) (h : ∀ l, body = some l → l <+: bytes) :
      Carries remoteAddr ⟨url, .json bytes⟩
        (.send parse fault ⟨.lit "POST", remoteAddr, some (lengthHeader bytes.length), body⟩)
  | file (url name filename : JString) (source : Client.FileSource P) (fault : UploadFault)
      (parts : List Part) (malformed : Bool) (h : ∀ part ∈ parts,
        parts = [part] ∧ part.filename.map CStr.bytes = some (utf8 filename)) :
      Carries remoteAddr ⟨url, .multipart name filename source⟩
        (.upload fault ⟨.lit "POST", remoteAddr, parts, malformed⟩)

/-- A request its client has given up: the step that was its call, the client, what was
    sent, and the request the server gets of it. -/
structure Late (P : Client.Platform) (ι : Type) where
  call : Nat
  client : ι
  cfg : Client.Config P
  request : PostRequest

/-- What is under way of a call after it. -/
def Fate.underway {P : Client.Platform} {ι : Type} (call : Nat) (i : ι) (cfg : Client.Config P) :
    Fate → List (Late P ι)
  | .givenUp request => [⟨call, i, cfg, request⟩]
  | .lost => []
  | .answered _ => []

/-- The clients, each with its database, the server, how many steps there were, and the
    requests under way. -/
structure Network (P : Client.Platform) (ι : Type) where
  clients : ι → Client.ViewModel P
  world : World
  steps : Nat
  underway : List (Late P ι)

/-- The clients as they are installed. -/
def Network.initial (P : Client.Platform) (ι : Type) (w : World) : Network P ι :=
  ⟨fun _ => ⟨.new, false, Client.createdDatabase⟩, w, 0, []⟩

/-- What happens: a client's call, a request that was given up and comes after all, a
    request of another program, or the server's database being opened. -/
inductive Event (P : Client.Platform) (ι : Type) where
  | call (i : ι) (cfg : Client.Config P) (fate : Fate)
  | arrives (late : Late P ι)
  | other (request : PostRequest)
  | opened (fault : OpenFault)

section Steps

variable {P : Client.Platform} {ι : Type} (addr : ι → CStr)
  (decode : List UInt8 → JString)

/-- The system does to a call what its fate says. -/
def Meets (remoteAddr : CStr) (env : Client.SendEnv P) (vm : Client.ViewModel P)
    (cfg : Client.Config P) (w : World) : Fate → Prop
  | .lost => ∀ port resp, Client.validate env cfg = .ok port →
      ¬ Receives env.network (Client.configured vm.connector cfg port) resp
  | .givenUp request =>
    (∃ req, vm.builtRequest env cfg = some (.ok req) ∧ Carries remoteAddr req request) ∧
    ∀ port resp, Client.validate env cfg = .ok port →
      ¬ Receives env.network (Client.configured vm.connector cfg port) resp
  | .answered request =>
    (∃ req, vm.builtRequest env cfg = some (.ok req) ∧ Carries remoteAddr req request) ∧
    ∀ port resp, Client.validate env cfg = .ok port →
      (Receives env.network (Client.configured vm.connector cfg port) resp ↔
        ∃ r, (request.handle w).sent = w.sent ++ [r] ∧ resp = replyOf decode r)

/-- One call with what came of it while the client waited, or something else the server
    does. -/
inductive Step [DecidableEq ι] : Network P ι → Event P ι → Network P ι → Prop where
  | call (s : Network P ι) (i : ι) {env : Client.SendEnv P} {cfg : Client.Config P} {fate : Fate}
      (hip : cfg.serverIp.isSome) (hwork : Client.StatementsWork env (s.clients i).db)
      (hmeets : Meets decode (addr i) env (s.clients i) cfg s.world fate) :
      Step s (.call i cfg fate)
        ⟨Function.update s.clients i ((s.clients i).sendData env cfg).2, fate.world s.world,
          s.steps + 1, s.underway ++ fate.underway s.steps i cfg⟩
  | arrives (s : Network P ι) {late : Late P ι} (hlate : late ∈ s.underway) :
      Step s (.arrives late)
        { s with
          world := late.request.handle s.world
          steps := s.steps + 1
          underway := s.underway.filter fun l => l.call ≠ late.call }
  | other (s : Network P ι) (request : PostRequest) :
      Step s (.other request)
        { s with world := request.handle s.world, steps := s.steps + 1 }
  | opened (s : Network P ι) (fault : OpenFault) :
      Step s (.opened fault)
        { s with
          world := { s.world with db := (databaseOpen fault s.world.db).2 }
          steps := s.steps + 1 }

/-- A message that was not answered. -/
def Unanswered (m : Client.Message) : Prop :=
  m.messageStatusId = Client.MessageStatus.failed.index ∧ m.response = some []

/-- The message of a call. -/
structure Sent (cfg : Client.Config P) (m : Client.Message) : Prop where
  type : m.messageTypeId = cfg.sendingType.index
  outbound : m.directionId = Client.MessageDirection.outbound.index

/-- The server's row of a call: of the same type, and that of a text has the whole body,
    as it could be bound. -/
structure Received (cfg : Client.Config P) (request : PostRequest) (row : MessageRow) : Prop where
  type : row.messageTypeId = cfg.sendingType.index
  inbound : row.directionId = MessageDirectionId.inbound.id
  body : cfg.sendingType = .rawData → row.request = dbBindTextOrNull request.messageFault.insert 7
    (some (heapString (utf8 (P.jsonObject cfg.members))))

/-- The two rows of a call that was answered: the message has the text that was built for
    the answer, and so has the row, as it could be bound; the message is a success if the
    row is one or there was a text. -/
structure Matched (cfg : Client.Config P) (request : PostRequest) (m : Client.Message)
    (row : MessageRow) : Prop where
  sent : Sent cfg m
  received : Received cfg request row
  answered : ∃ built : Option CStr,
    row.response = dbBindTextOrNull request.messageFault.insert 5 built ∧
    m.response = some ((built.map fun s => ofBytes s.bytes).getD []) ∧
    (m.messageStatusId = Client.MessageStatus.success.index ↔
      row.messageStatusId = MessageStatusId.success.id ∨ built.isSome)

/-- What one step may add: to the history of the client that called, and to that of
    the server. -/
inductive Sound : Event P ι → Option Client.Message → Option MessageRow → Prop where
  | rejected (i : ι) (cfg : Client.Config P) : Sound (.call i cfg .lost) none none
  | lost (i : ι) (cfg : Client.Config P) {m : Client.Message} (hsent : Sent cfg m)
      (hlost : Unanswered m) : Sound (.call i cfg .lost) (some m) none
  | givenUp (i : ι) (cfg : Client.Config P) (request : PostRequest) {m : Client.Message}
      (hsent : Sent cfg m) (hlost : Unanswered m) :
      Sound (.call i cfg (.givenUp request)) (some m) none
  | unrecorded (i : ι) (cfg : Client.Config P) (request : PostRequest) {m : Client.Message}
      (hsent : Sent cfg m) : Sound (.call i cfg (.answered request)) (some m) none
  | recorded (i : ι) (cfg : Client.Config P) (request : PostRequest) {m : Client.Message}
      {row : MessageRow} (hmatched : Matched cfg request m row) :
      Sound (.call i cfg (.answered request)) (some m) (some row)
  | arrives (late : Late P ι) {row : Option MessageRow}
      (hreceived : ∀ r, row = some r → Received late.cfg late.request r) :
      Sound (.arrives late) none row
  | other (request : PostRequest) (row : Option MessageRow) : Sound (.other request) none row
  | opened (fault : OpenFault) : Sound (.opened fault) none none

/-- A call that is given up has a message, and it was not answered. -/
theorem Sound.of_givenUp {i : ι} {cfg : Client.Config P} {request : PostRequest}
    {message : Option Client.Message} {row : Option MessageRow}
    (h : Sound (.call i cfg (.givenUp request)) message row) :
    ∃ m, message = some m ∧ Unanswered m := by
  cases h with
  | givenUp _ _ _ _ hlost => exact ⟨_, rfl, hlost⟩

/-- A step, and what it added. -/
structure Entry (P : Client.Platform) (ι : Type) where
  event : Event P ι
  message : Option Client.Message
  row : Option MessageRow

/-- What it added to the history of one client. -/
def Entry.messageOf [DecidableEq ι] (i : ι) (e : Entry P ι) : Option Client.Message :=
  match e.event with
  | .call j _ _ => if j = i then e.message else none
  | _ => none

/-- A request that comes late was sent by a call before, which its client had given up,
    and no other comes of that call. -/
structure Orderly (events : List (Event P ι)) : Prop where
  sent : ∀ (k : Nat) (late : Late P ι), events[k]? = some (.arrives late) → late.call < k ∧
    events[late.call]? = some (.call late.client late.cfg (.givenUp late.request))
  once : ∀ (k k' : Nat) (late late' : Late P ι), events[k]? = some (.arrives late) →
    events[k']? = some (.arrives late') → late.call = late'.call → k = k'

/-- A request of a call that built one. -/
def Late.Carried (late : Late P ι) : Prop :=
  ∃ remoteAddr port req, late.cfg.request port = .ok req ∧ Carries remoteAddr req late.request

/-- The requests under way were given up, and none of them has come. -/
structure Pending (events : List (Event P ι)) (s : Network P ι) : Prop where
  orderly : Orderly events
  steps : s.steps = events.length
  carried : ∀ late ∈ s.underway, late.Carried
  sent : ∀ late ∈ s.underway,
    events[late.call]? = some (.call late.client late.cfg (.givenUp late.request))
  absent : ∀ late ∈ s.underway, ∀ (k : Nat) (late' : Late P ι),
    events[k]? = some (.arrives late') → late'.call ≠ late.call

/-- The histories are views of a log of the events, in which every entry is sound. -/
structure Logged [DecidableEq ι] (w : World) (events : List (Event P ι)) (s : Network P ι)
    (log : List (Entry P ι)) : Prop where
  orderly : Orderly events
  events : log.map Entry.event = events
  sound : ∀ entry ∈ log, Sound entry.event entry.message entry.row
  clients : ∀ i, (Client.messages (s.clients i).db).map Prod.snd
    = log.filterMap (Entry.messageOf i)
  server : (messages s.world.db).map Prod.snd
    = (messages w.db).map Prod.snd ++ log.filterMap Entry.row

section Client

variable {env : Client.SendEnv P} {vm : Client.ViewModel P} {cfg : Client.Config P}

/-- A send operation without a response ends with an exception. -/
theorem sendData_unanswered {net : Client.Network P} {c : Client.Connector P}
    (h : ∀ resp, ¬ Receives net c resp) : ∃ e, (c.sendData net).1 = .error e := by
  rw [sendData_request]
  cases hrequest : c.request with
  | error e => exact ⟨e, rfl⟩
  | ok req =>
      have hclient := client_isSending net.sslContext c
      rw [Except.bind, execute]
      -- The client, then the call, either of which may throw.
      generalize { c with isSending := true }.client net.sslContext = result at hclient ⊢
      rcases result with ⟨r, c'⟩
      simp only at hclient
      cases r with
      | error e => exact ⟨e, rfl⟩
      | ok client =>
          simp only
          cases hcall : net.call client req with
          | none => exact ⟨.thrown, rfl⟩
          | some resp => exact absurd ⟨req, client, hrequest, hclient.symm, hcall⟩ (h resp)

/-- A call fails a check and adds nothing, or adds the message of what it got. -/
theorem call_messages (hvm : Client.Between vm) (hip : cfg.serverIp.isSome)
    (hwork : Client.StatementsWork env vm.db) :
    (∃ e, Client.validate env cfg = .error e ∧ (vm.sendData env cfg).2 = vm) ∨
      ∃ port id conn, Client.validate env cfg = .ok port ∧
        Client.messages (vm.sendData env cfg).2.db = Client.messages vm.db ++
          [(id, Client.finished (Client.newMessage env cfg conn)
            ((Client.configured vm.connector cfg port).sendData env.network).1)] := by
  cases hvalid : Client.validate env cfg with
  | error e => exact Or.inl ⟨e, rfl, congrArg Prod.snd (Client.sendData_rejected hvm.idle hvalid)⟩
  | ok port =>
      rcases (Client.sendData_accepted hvm hip hwork hvalid).2.2 with ⟨id, message, hmessages, _⟩
      rcases Client.sendData_recorded hmessages with ⟨port', conn, _, hvalid', _, rfl⟩
      rw [hvalid, Except.ok.injEq] at hvalid'
      rw [← hvalid'] at hmessages
      exact Or.inr ⟨port, id, conn.1, rfl, hmessages⟩

end Client

section Server

/-- The value of the header, which stops at the largest `long long`. -/
theorem contentLength_carried {remoteAddr : CStr} {n : Nat} {body : Option (List UInt8)}
    (h : contentLength ⟨.lit "POST", remoteAddr, some (lengthHeader n), body⟩ ≤ maxMessageSize) :
    contentLength ⟨.lit "POST", remoteAddr, some (lengthHeader n), body⟩ = n := by
  have hheader : contentLength ⟨.lit "POST", remoteAddr, some (lengthHeader n), body⟩
      = saturate n :=
    atoll_lengthHeader n
  rw [hheader, saturate] at h ⊢
  rw [maxMessageSize] at h
  omega

/-- A row for a text has the whole of what was posted, however much was lost on the way
    of texts that have none. -/
theorem carried_text {parse : CStr → Option CJson} {fault : SendFault} {remoteAddr : CStr}
    {bytes : List UInt8} {body : Option (List UInt8)} (hbody : ∀ l, body = some l → l <+: bytes)
    {accepted : SendAccepted} (hread : readRequest parse fault.malloc
      ⟨.lit "POST", remoteAddr, some (lengthHeader bytes.length), body⟩ = .ok accepted) :
    accepted.body = heapString bytes := by
  rcases readRequest_ok_iff.mp hread with ⟨_, _, hmax, l, root, data, hl, hlength, _, _, rfl⟩
  have hheader := contentLength_carried hmax
  rw [hheader] at hlength
  simp only [hheader]
  -- As many bytes as there were, of a part of them, are all of them.
  have hpart := (List.take_prefix (bytes.length : Int).toNat l).trans (hbody l hl)
  have hwhole := hpart.eq_of_length (by omega)
  rw [hwhole]

/-- A row of a call's request, with the answer it was made for. -/
structure RowOf (cfg : Client.Config P) (request : PostRequest) (r : Response)
    (row : MessageRow) : Prop where
  received : Received cfg request row
  answer : ∃ status data, (status = 200 ∨ 400 ≤ status) ∧ ShortAscii (typeOf status) data ∧
    row.response = dbBindTextOrNull request.messageFault.insert 5
      (httpBuildJson request.buildFault (typeOf status) data) ∧
    row.messageStatusId = statusId status ∧
    r = httpSendBuiltJson status (httpBuildJson request.buildFault (typeOf status) data)

/-- A JSON request is that of a text. -/
theorem request_json {cfg : Client.Config P} {port : Int} {url : JString} {bytes : List UInt8}
    (h : cfg.request port = .ok ⟨url, .json bytes⟩) :
    cfg.sendingType = .rawData ∧ bytes = utf8 (P.jsonObject cfg.members) := by
  unfold Client.Config.request at h
  cases htype : cfg.sendingType with
  | rawData =>
      simp only [htype] at h
      split at h
      · rw [Except.ok.injEq, Client.Request.mk.injEq, Client.RequestBody.json.injEq] at h
        exact ⟨rfl, h.2.symm⟩
      · simp only [reduceCtorEq] at h
  | file =>
      simp only [htype] at h
      split at h
      · simp only [reduceCtorEq] at h
      · split at h
        · simp only [Except.ok.injEq, Client.Request.mk.injEq, reduceCtorEq, and_false] at h
        · simp only [reduceCtorEq] at h

/-- A form is that of a file. -/
theorem request_multipart {cfg : Client.Config P} {port : Int} {url name filename : JString}
    {source : Client.FileSource P}
    (h : cfg.request port = .ok ⟨url, .multipart name filename source⟩) :
    cfg.sendingType = .file := by
  unfold Client.Config.request at h
  cases htype : cfg.sendingType with
  | file => rfl
  | rawData =>
      simp only [htype] at h
      split at h
      · simp only [Except.ok.injEq, Client.Request.mk.injEq, reduceCtorEq, and_false] at h
      · simp only [reduceCtorEq] at h

/-- What a request that was carried adds to the server's history. -/
theorem carried_row {remoteAddr : CStr} {cfg : Client.Config P} {port : Int}
    {req : Client.Request P} (hreq : cfg.request port = .ok req) {request : PostRequest}
    (hcarries : Carries remoteAddr req request) (w : World) :
    messages (request.handle w).db = messages w.db ∨
      ∃ id row r, messages (request.handle w).db = messages w.db ++ [(id, row)] ∧
        (request.handle w).sent = w.sent ++ [r] ∧ RowOf cfg request r row := by
  cases hcarries with
  | text url bytes parse fault body hbody =>
      rcases request_json hreq with ⟨htype, hbytes⟩
      rcases apiSendHandler_messages parse fault
        ⟨.lit "POST", remoteAddr, some (lengthHeader bytes.length), body⟩ w with
        hsame | ⟨id, accepted, hmethod, hread, _, hrow⟩
      · exact Or.inl hsame
      · have hdeliver := deliver_typeOf fault w.files accepted
        have hshort := deliver_texts fault w.files accepted
        rw [hdeliver.2] at hshort
        refine Or.inr ⟨id, _, httpSendBuiltJson (deliver fault w.files accepted).2.1
          (httpBuildJson fault.build (deliver fault w.files accepted).2.2.1
            (deliver fault w.files accepted).2.2.2), hrow, ?_, ⟨?_, rfl, fun _ => ?_⟩, _, _,
          hdeliver.1, hshort, ?_, rfl, ?_⟩
        · rw [PostRequest.handle, apiSendHandler_accepted parse fault _ w hmethod hread]
          exact answerSend_sent ..
        · rw [htype]
          rfl
        · rw [← hbytes, ← carried_text hbody hread]
          rfl
        · rw [← hdeliver.2]
          rfl
        · rw [hdeliver.2]
          rfl
  | file url name filename source fault parts malformed hparts =>
      have htype := request_multipart hreq
      rcases apiUploadHandler_messages fault ⟨.lit "POST", remoteAddr, parts, malformed⟩ w with
        hsame | ⟨id, hmethod, hform, hpath, hconn, hrow⟩
      · exact Or.inl hsame
      · refine Or.inr ⟨id, _, _, hrow, ?_, ⟨?_, rfl, fun h => ?_⟩, 200, .lit "File(s) received",
          Or.inl rfl, by decide, rfl, rfl, rfl⟩
        · exact (apiUploadHandler_ok fault _ w hmethod hform hpath hconn).2
        · rw [htype]
          rfl
        · rw [htype] at h
          exact absurd h (by decide)

/-- What the client makes of the answer a row was made for. -/
theorem finished_answered (hdecode : ∀ l, (∀ b ∈ l, b.toNat < 128) → decode l = ofBytes l)
    {cfg : Client.Config P} {request : PostRequest} {r : Response} {row : MessageRow}
    (h : RowOf cfg request r row) {m : Client.Message} (hm : Unanswered m) :
    ∃ built : Option CStr,
      row.response = dbBindTextOrNull request.messageFault.insert 5 built ∧
      (Client.finished m ((readReply (replyOf decode r)).map some)).response
        = some ((built.map fun s => ofBytes s.bytes).getD []) ∧
      ((Client.finished m ((readReply (replyOf decode r)).map some)).messageStatusId
          = Client.MessageStatus.success.index ↔
        row.messageStatusId = MessageStatusId.success.id ∨ built.isSome) := by
  rcases h.answer with ⟨status, data, hstatus, hshort, hresponse, hid, rfl⟩
  have hfailed : m.messageStatusId ≠ Client.MessageStatus.success.index := by
    rw [hm.1]
    decide
  refine ⟨_, hresponse, ?_⟩
  rw [hid, statusId_success_iff]
  cases hbuilt : httpBuildJson request.buildFault (typeOf status) data with
  | none =>
      -- Nothing could be built: the body is empty, and the status decides.
      have hbody : (replyOf decode (httpSendBuiltJson status none)).body.getD [] = [] := by
        have hnil := hdecode [] fun b hb => absurd hb List.not_mem_nil
        exact hnil
      rcases readReply_cases (replyOf decode (httpSendBuiltJson status none)) with
        ⟨hok, hsuccess | hno⟩ | ⟨message, herror, hfail, _⟩
      · have h200 : status = 200 := by
          rw [Client.HttpReply.isSuccessful, Bool.and_eq_true, decide_eq_true_eq, decide_eq_true_eq]
            at hsuccess
          have hcode : (replyOf decode (httpSendBuiltJson status none)).code = status := rfl
          rw [hcode] at hsuccess
          omega
        rw [hok, hbody]
        exact ⟨rfl, iff_of_true rfl (Or.inl h200)⟩
      · exact absurd hbody hno
      · have hne : status ≠ 200 := by
          rintro rfl
          have hcode : (replyOf decode (httpSendBuiltJson 200 none)).code = 200 := rfl
          rw [Client.HttpReply.isSuccessful, hcode] at hfail
          exact absurd hfail (by decide)
        rw [herror]
        exact ⟨hm.2, iff_of_false hfailed fun h => h.elim hne Bool.false_ne_true⟩
  | some s =>
      rcases httpBuildJson_some hshort hbuilt with ⟨hne, hascii, hbody⟩
      have htext : (replyOf decode (httpSendBuiltJson status (some s))).body
          = some (ofBytes s.bytes) := by
        rw [replyOf, hbody status, hdecode s.bytes hascii]
      rcases readReply_cases (replyOf decode (httpSendBuiltJson status (some s))) with
        ⟨hok, _⟩ | ⟨_, _, _, hno⟩
      · rw [hok, htext]
        exact ⟨rfl, iff_of_true rfl (Or.inr rfl)⟩
      · rw [htext, Option.getD_some, ofBytes_eq_nil] at hno
        exact absurd hno hne

end Server

/-- A call that fails a check builds no request. -/
theorem not_built_of_rejected {remoteAddr : CStr} {env : Client.SendEnv P}
    {vm : Client.ViewModel P} {cfg : Client.Config P} {e : Client.Failure}
    (hvalid : Client.validate env cfg = .error e) {request : PostRequest} :
    ¬ ∃ req, vm.builtRequest env cfg = some (.ok req) ∧ Carries remoteAddr req request := by
  rintro ⟨req, hbuilt, _⟩
  rcases Client.builtRequest_eq_some hbuilt with ⟨port, _, _, hok, _⟩
  rw [hvalid] at hok
  simp only [reduceCtorEq] at hok

/-- What one call adds. -/
theorem call_sound (hdecode : ∀ l, (∀ b ∈ l, b.toNat < 128) → decode l = ofBytes l)
    {remoteAddr : CStr} {env : Client.SendEnv P} {vm : Client.ViewModel P}
    (hvm : Client.Between vm) {cfg : Client.Config P} (hip : cfg.serverIp.isSome)
    (hwork : Client.StatementsWork env vm.db) {w : World} {fate : Fate}
    (hmeets : Meets decode remoteAddr env vm cfg w fate) (i : ι) :
    ∃ message row, Sound (.call i cfg fate) message row ∧
      (Client.messages (vm.sendData env cfg).2.db).map Prod.snd
        = (Client.messages vm.db).map Prod.snd ++ message.toList ∧
      (messages (fate.world w).db).map Prod.snd
        = (messages w.db).map Prod.snd ++ row.toList := by
  have hnew : ∀ conn, Unanswered (Client.newMessage env cfg conn) := fun conn => ⟨rfl, rfl⟩
  rcases call_messages hvm hip hwork with ⟨e, hvalid, hsame⟩ | ⟨port, id, conn, hvalid, hmessages⟩
  · rw [hsame]
    cases fate with
    | lost =>
        exact ⟨none, none, .rejected i cfg, (List.append_nil _).symm, (List.append_nil _).symm⟩
    | givenUp request => exact absurd hmeets.1 (not_built_of_rejected hvalid)
    | answered request => exact absurd hmeets.1 (not_built_of_rejected hvalid)
  have hclient : ∀ m, m = Client.finished (Client.newMessage env cfg conn)
      ((Client.configured vm.connector cfg port).sendData env.network).1 →
      (Client.messages (vm.sendData env cfg).2.db).map Prod.snd
        = (Client.messages vm.db).map Prod.snd ++ (some m).toList := by
    rintro m rfl
    rw [hmessages, List.map_append]
    rfl
  have hsent : Sent cfg (Client.finished (Client.newMessage env cfg conn)
      ((Client.configured vm.connector cfg port).sendData env.network).1) := by
    rcases Client.finished_refs env cfg conn
      ((Client.configured vm.connector cfg port).sendData env.network).1 with
      ⟨_, _, htype, hdirection⟩
    exact ⟨htype, hdirection⟩
  -- Without an answer the message stays as it was made.
  have hlost : (∀ resp, ¬ Receives env.network (Client.configured vm.connector cfg port) resp) →
      Unanswered (Client.finished (Client.newMessage env cfg conn)
        ((Client.configured vm.connector cfg port).sendData env.network).1) := by
    intro hno
    rcases sendData_unanswered hno with ⟨e, he⟩
    rw [he]
    exact hnew conn
  cases fate with
  | lost =>
      exact ⟨_, none, .lost i cfg hsent (hlost fun resp => hmeets port resp hvalid), hclient _ rfl,
        (List.append_nil _).symm⟩
  | givenUp request =>
      exact ⟨_, none, .givenUp i cfg request hsent (hlost fun resp => hmeets.2 port resp hvalid),
        hclient _ rfl, (List.append_nil _).symm⟩
  | answered request =>
      rcases hmeets with ⟨⟨req, hbuilt, hcarries⟩, hreceives⟩
      rcases Client.builtRequest_eq_some hbuilt with ⟨port', _, _, hvalid', _, hreq⟩
      rw [hvalid, Except.ok.injEq] at hvalid'
      subst hvalid'
      rcases carried_row hreq.symm hcarries w with hsame | ⟨rowId, row, r, hrow, hanswer, hrowOf⟩
      · refine ⟨_, none, .unrecorded i cfg request hsent, hclient _ rfl, ?_⟩
        rw [Fate.world, hsame]
        exact (List.append_nil _).symm
      · refine ⟨_, some row, .recorded i cfg request ⟨hsent, hrowOf.received, ?_⟩, hclient _ rfl,
          ?_⟩
        · rw [sendData_received ((hreceives port _ hvalid).mpr ⟨r, hanswer, rfl⟩)]
          exact finished_answered decode hdecode hrowOf (hnew conn)
        · rw [Fate.world, hrow, List.map_append]
          rfl

/-- What one step adds, and what holds between steps. -/
theorem step_sound [DecidableEq ι] (hdecode : ∀ l, (∀ b ∈ l, b.toNat < 128) → decode l = ofBytes l)
    {s s' : Network P ι} {e : Event P ι} (hbetween : ∀ i, Client.Between (s.clients i))
    (hcarried : ∀ late ∈ s.underway, late.Carried) (h : Step addr decode s e s') :
    (∀ i, Client.Between (s'.clients i)) ∧ ∃ message row, Sound e message row ∧
      (∀ i, (Client.messages (s'.clients i).db).map Prod.snd
        = (Client.messages (s.clients i).db).map Prod.snd ++
          (Entry.messageOf i ⟨e, message, row⟩).toList) ∧
      (messages s'.world.db).map Prod.snd = (messages s.world.db).map Prod.snd ++ row.toList := by
  cases h with
  | call i hip hwork hmeets =>
      rcases call_sound decode hdecode (hbetween i) hip hwork hmeets i with
        ⟨message, row, hsound, hclient, hserver⟩
      refine ⟨fun j => ?_, message, row, hsound, fun j => ?_, hserver⟩
      · by_cases hj : j = i
        · simp only [hj, Function.update_self]
          exact Client.between_step (hbetween i) hip hwork
        · simp only [Function.update_of_ne hj]
          exact hbetween j
      · by_cases hj : j = i
        · simp only [hj, Function.update_self, Entry.messageOf, if_true]
          exact hclient
        · simp only [Function.update_of_ne hj, Entry.messageOf, if_neg (Ne.symm hj)]
          exact (List.append_nil _).symm
  | @arrives late hlate =>
      refine ⟨hbetween, none, ?_⟩
      rcases hcarried late hlate with ⟨remoteAddr, port, req, hreq, hcarries⟩
      rcases carried_row hreq hcarries s.world with hsame | ⟨id, row, r, hrow, _, hrowOf⟩
      · refine ⟨none, .arrives late fun r h => absurd h.symm (Option.some_ne_none r),
          fun i => (List.append_nil _).symm, ?_⟩
        rw [hsame]
        exact (List.append_nil _).symm
      · refine ⟨some row, .arrives late fun r h => Option.some.inj h ▸ hrowOf.received,
          fun i => (List.append_nil _).symm, ?_⟩
        rw [hrow, List.map_append]
        rfl
  | other request =>
      refine ⟨hbetween, none, ?_⟩
      rcases request.recorded s.world with ⟨_, _, _, hsame | ⟨id, row, hrow, _⟩⟩
      · refine ⟨none, .other request none, fun i => (List.append_nil _).symm, ?_⟩
        rw [hsame]
        exact (List.append_nil _).symm
      · refine ⟨some row, .other request (some row), fun i => (List.append_nil _).symm, ?_⟩
        rw [hrow, List.map_append]
        rfl
  | opened fault =>
      refine ⟨hbetween, none, none, .opened fault, fun i => (List.append_nil _).symm, ?_⟩
      rw [messages_databaseOpen]
      exact (List.append_nil _).symm

/-- The events so far are those before the last, and the last. -/
theorem getElem?_snoc {events : List (Event P ι)} {e x : Event P ι} {k : Nat} :
    (events ++ [e])[k]? = some x ↔ events[k]? = some x ∨ k = events.length ∧ e = x := by
  rw [List.getElem?_append]
  split
  · rename_i hlt
    exact ⟨Or.inl, fun h => h.elim id fun h => absurd h.1 (Nat.ne_of_lt hlt)⟩
  · rename_i hge
    have hnone : events[k]? = none := List.getElem?_eq_none (Nat.not_lt.mp hge)
    rw [hnone, List.getElem?_singleton]
    split
    · rename_i hzero
      have hk : k = events.length := by omega
      exact ⟨fun h => Or.inr ⟨hk, Option.some.inj h⟩,
        fun h => h.elim (fun h => absurd h.symm (Option.some_ne_none x)) fun h => congrArg some h.2⟩
    · rename_i hpos
      exact ⟨fun h => absurd h.symm (Option.some_ne_none x),
        fun h => h.elim (fun h => absurd h.symm (Option.some_ne_none x)) fun h => by omega⟩

/-- A step that brings no late request leaves the events in order. -/
theorem Orderly.snoc {events : List (Event P ι)} (h : Orderly events) {e : Event P ι}
    (hlate : ∀ late, e ≠ .arrives late) : Orderly (events ++ [e]) where
  sent k late hk := by
    rcases getElem?_snoc.mp hk with hk | ⟨_, he⟩
    · exact ⟨(h.sent k late hk).1, getElem?_snoc.mpr (Or.inl (h.sent k late hk).2)⟩
    · exact absurd he (hlate late)
  once k k' late late' hk hk' hcall := by
    rcases getElem?_snoc.mp hk with hk | ⟨_, he⟩
    · rcases getElem?_snoc.mp hk' with hk' | ⟨_, he⟩
      · exact h.once k k' late late' hk hk' hcall
      · exact absurd he (hlate late')
    · exact absurd he (hlate late)

/-- Nor does one that was under way. -/
theorem Pending.arrives {events : List (Event P ι)} {s : Network P ι} (h : Pending events s)
    {late : Late P ι} (hlate : late ∈ s.underway) : Orderly (events ++ [.arrives late]) where
  sent k l hk := by
    rcases getElem?_snoc.mp hk with hk | ⟨rfl, he⟩
    · exact ⟨(h.orderly.sent k l hk).1, getElem?_snoc.mpr (Or.inl (h.orderly.sent k l hk).2)⟩
    · rw [Event.arrives.injEq] at he
      subst he
      have hsent := h.sent late hlate
      exact ⟨(List.getElem?_eq_some_iff.mp hsent).1, getElem?_snoc.mpr (Or.inl hsent)⟩
  once k k' l l' hk hk' hcall := by
    rcases getElem?_snoc.mp hk with hk | ⟨rfl, he⟩
    · rcases getElem?_snoc.mp hk' with hk' | ⟨rfl, he'⟩
      · exact h.orderly.once k k' l l' hk hk' hcall
      · rw [Event.arrives.injEq] at he'
        subst he'
        exact absurd hcall (h.absent late hlate k l hk)
    · rw [Event.arrives.injEq] at he
      subst he
      rcases getElem?_snoc.mp hk' with hk' | ⟨rfl, _⟩
      · exact absurd hcall.symm (h.absent late hlate k' l' hk')
      · rfl

/-- A step that brings no late request and leaves those under way alone. -/
theorem Pending.snoc {events : List (Event P ι)} {s s' : Network P ι} (h : Pending events s)
    {e : Event P ι} (hlate : ∀ late, e ≠ .arrives late) (hsteps : s'.steps = s.steps + 1)
    (hunderway : s'.underway = s.underway) : Pending (events ++ [e]) s' where
  orderly := h.orderly.snoc hlate
  steps := by
    rw [hsteps, h.steps, List.length_append, List.length_singleton]
  carried late hl := h.carried late (hunderway ▸ hl)
  sent late hl := getElem?_snoc.mpr (Or.inl (h.sent late (hunderway ▸ hl)))
  absent late hl k late' hk := by
    rcases getElem?_snoc.mp hk with hk | ⟨_, he⟩
    · exact h.absent late (hunderway ▸ hl) k late' hk
    · exact absurd he (hlate late')

/-- A call leaves under way what its client gave up. -/
theorem Pending.call [DecidableEq ι] {events : List (Event P ι)} {s s' : Network P ι}
    (h : Pending events s) {i : ι} {cfg : Client.Config P} {fate : Fate}
    (hsteps : s'.steps = s.steps + 1)
    (hunderway : s'.underway = s.underway ++ fate.underway s.steps i cfg)
    (hcarried : ∀ late ∈ fate.underway s.steps i cfg, late.Carried) :
    Pending (events ++ [.call i cfg fate]) s' := by
  have hlate : ∀ late : Late P ι, Event.call i cfg fate ≠ .arrives late := by
    simp only [ne_eq, reduceCtorEq, not_false_eq_true, implies_true]
  cases fate with
  | lost => exact h.snoc hlate hsteps (hunderway.trans (List.append_nil _))
  | answered request => exact h.snoc hlate hsteps (hunderway.trans (List.append_nil _))
  | givenUp request =>
      have hmem : ∀ late ∈ s'.underway, late ∈ s.underway ∨ late = ⟨s.steps, i, cfg, request⟩ := by
        intro late hl
        rw [hunderway] at hl
        exact (List.mem_append.mp hl).imp_right List.mem_singleton.mp
      refine ⟨h.orderly.snoc hlate, ?_, fun late hl => ?_, fun late hl => ?_,
        fun late hl k late' hk => ?_⟩
      · rw [hsteps, h.steps, List.length_append, List.length_singleton]
      · rcases hmem late hl with hl | rfl
        · exact h.carried late hl
        · exact hcarried _ List.mem_cons_self
      · rcases hmem late hl with hl | rfl
        · exact getElem?_snoc.mpr (Or.inl (h.sent late hl))
        · exact getElem?_snoc.mpr (Or.inr ⟨h.steps, rfl⟩)
      · rcases getElem?_snoc.mp hk with hk | ⟨_, he⟩
        · rcases hmem late hl with hl | rfl
          · exact h.absent late hl k late' hk
          -- What came so far was sent before this call.
          · have hsent := (List.getElem?_eq_some_iff.mp (h.orderly.sent k late' hk).2).1
            rw [h.steps]
            exact Nat.ne_of_lt hsent
        · exact absurd he (hlate late')

/-- Requests come in one at a time, and once. -/
theorem step_pending [DecidableEq ι] {events : List (Event P ι)} {s s' : Network P ι}
    {e : Event P ι} (h : Pending events s) (hstep : Step addr decode s e s') :
    Pending (events ++ [e]) s' := by
  cases hstep with
  | @call i env cfg fate hip hwork hmeets =>
      refine h.call rfl rfl fun late hl => ?_
      cases fate with
      | lost => exact absurd hl List.not_mem_nil
      | answered request => exact absurd hl List.not_mem_nil
      | givenUp request =>
          rcases hmeets.1 with ⟨req, hbuilt, hcarries⟩
          rcases Client.builtRequest_eq_some hbuilt with ⟨port, _, _, _, _, hreq⟩
          rw [List.mem_singleton.mp hl]
          exact ⟨addr i, port, req, hreq.symm, hcarries⟩
  | @arrives late hlate =>
      refine ⟨h.arrives hlate, ?_, fun l hl => ?_, fun l hl => ?_, fun l hl k l' hk => ?_⟩
      · rw [List.length_append, List.length_singleton, ← h.steps]
      · exact h.carried l (List.mem_filter.mp hl).1
      · exact getElem?_snoc.mpr (Or.inl (h.sent l (List.mem_filter.mp hl).1))
      · rcases List.mem_filter.mp hl with ⟨hl, hne⟩
        rcases getElem?_snoc.mp hk with hk | ⟨_, he⟩
        · exact h.absent l hl k l' hk
        · rw [Event.arrives.injEq] at he
          subst he
          exact (of_decide_eq_true hne).symm
  | other request =>
      refine h.snoc (fun late => ?_) rfl rfl
      simp only [ne_eq, reduceCtorEq, not_false_eq_true]
  | opened fault =>
      refine h.snoc (fun late => ?_) rfl rfl
      simp only [ne_eq, reduceCtorEq, not_false_eq_true]

/-- The log grows by a step, and every history by what the step added. -/
theorem Logged.snoc [DecidableEq ι] {w : World} {events : List (Event P ι)} {s s' : Network P ι}
    {log : List (Entry P ι)} (h : Logged w events s log) {e : Event P ι}
    {message : Option Client.Message} {row : Option MessageRow}
    (horderly : Orderly (events ++ [e])) (hsound : Sound e message row)
    (hclients : ∀ i, (Client.messages (s'.clients i).db).map Prod.snd
      = (Client.messages (s.clients i).db).map Prod.snd ++
        (Entry.messageOf i ⟨e, message, row⟩).toList)
    (hserver : (messages s'.world.db).map Prod.snd
      = (messages s.world.db).map Prod.snd ++ row.toList) :
    Logged w (events ++ [e]) s' (log ++ [⟨e, message, row⟩]) where
  orderly := horderly
  events := by
    rw [List.map_append, h.events]
    rfl
  sound := by
    intro entry hentry
    rcases List.mem_append.mp hentry with hentry | hentry
    · exact h.sound entry hentry
    · rw [List.mem_singleton.mp hentry]
      exact hsound
  clients := by
    intro i
    rw [hclients i, h.clients i, List.filterMap_append, List.filterMap_cons, List.filterMap_nil]
    cases Entry.messageOf i ⟨e, message, row⟩ <;> rfl
  server := by
    rw [hserver, h.server, List.filterMap_append, ← List.append_assoc, List.filterMap_cons,
      List.filterMap_nil]
    cases row <;> rfl

end Steps

/-- After any run of the clients and the server, from the installation of the clients and
    any state of the server, with any losses and with calls given up that the server gets
    to later: there is one log of the steps, in which what each added is sound, and every
    history is what the log says was added to it, in its order. A row that comes late is
    of a call before, which was given up and has no other. So no row of the server for a
    client is without its message, and none comes of a message twice. -/
theorem exchanges_logged {P : Client.Platform} {ι : Type} [DecidableEq ι] (addr : ι → CStr)
    (decode : List UInt8 → JString) (hdecode : ∀ l, (∀ b ∈ l, b.toNat < 128) → decode l = ofBytes l)
    (w : World) (events : List (Event P ι)) (s : Network P ι)
    (hrun : Run (Step addr decode) (.initial P ι w) events s) : ∃ log, Logged w events s log := by
  have hinv : (∀ i, Client.Between (s.clients i)) ∧ Pending events s ∧
      ∃ log, Logged w events s log := by
    refine hrun.invariant (fun events s => (∀ i, Client.Between (s.clients i)) ∧
      Pending events s ∧ ∃ log, Logged w events s log) ?_ ?_
    · have horderly : Orderly (P := P) (ι := ι) [] :=
        ⟨fun k late h => absurd h.symm (Option.some_ne_none _),
          fun k k' late late' h => absurd h.symm (Option.some_ne_none _)⟩
      exact ⟨fun i => Client.between_of_reached .start,
        ⟨horderly, rfl, fun late h => absurd h List.not_mem_nil,
          fun late h => absurd h List.not_mem_nil, fun late h => absurd h List.not_mem_nil⟩,
        [], horderly, rfl, fun entry h => absurd h List.not_mem_nil, fun i => rfl,
        (List.append_nil _).symm⟩
    · rintro events s e s' ⟨hbetween, hpending, log, hlog⟩ hstep
      have hpending' := step_pending addr decode hpending hstep
      rcases step_sound addr decode hdecode hbetween hpending.carried hstep with
        ⟨hbetween', message, row, hsound, hclients, hserver⟩
      exact ⟨hbetween', hpending', _, hlog.snoc hpending'.orderly hsound hclients hserver⟩
  exact hinv.2.2

/-- The request of `deliveredConfig` as the server gets it at some time. -/
def deliveredRequest (sendingTime : CStr) : PostRequest :=
  .send sampleParse (.none sendingTime) (posted (.lit "10.0.0.7") sampleBody)

/-- A network that carries requests and loses answers. -/
def losingEnv : Client.SendEnv printingPlatform :=
  { deliveredEnv with network := ⟨true, fun _ _ => none⟩ }

/-- After a call over it that is given up. -/
def givenUp (s : Network printingPlatform Unit) (sendingTime : CStr) :
    Network printingPlatform Unit :=
  ⟨Function.update s.clients () ((s.clients ()).sendData losingEnv deliveredConfig).2, s.world,
    s.steps + 1, s.underway ++ [⟨s.steps, (), deliveredConfig, deliveredRequest sendingTime⟩]⟩

theorem givenUp_step {s : Network printingPlatform Unit} (sendingTime : CStr)
    (hwork : Client.StatementsWork losingEnv (s.clients ()).db)
    (hbuilt : (s.clients ()).builtRequest losingEnv deliveredConfig
      = some (.ok ⟨deliveredConfig.url 5000 (lit "/api/send"), .json sampleBody⟩)) :
    Step (fun _ : Unit => .lit "10.0.0.7") ofBytes s
      (.call () deliveredConfig (.givenUp (deliveredRequest sendingTime)))
      (givenUp s sendingTime) := by
  refine .call s () (by rfl) hwork ⟨⟨_, hbuilt, ?_⟩, fun port resp _ => ?_⟩
  · exact .text _ sampleBody _ _ (some sampleBody) fun l hl => Option.some.inj hl ▸ List.prefix_rfl
  · rintro ⟨_, _, _, _, hcall⟩
    exact absurd hcall.symm (Option.some_ne_none resp)

/-- Two calls that are given up. -/
def twoGivenUp : Network printingPlatform Unit :=
  givenUp (givenUp (.initial printingPlatform Unit createdWorld) (.lit "2026-03-01 12:00:00"))
    (.lit "2026-03-01 12:00:10")

/-- Two calls are given up, and the second arrives before the first: the server has two
    successes, the later first, and the client two failures. -/
theorem exchanges_logged_overtaken : ∃ (s : Network printingPlatform Unit)
    (first second : MessageRow) (m m' : Client.Message),
    (messages s.world.db).map Prod.snd = [second, first] ∧
      (Client.messages (s.clients ()).db).map Prod.snd = [m, m'] ∧
      first.sendingTime = some (.lit "2026-03-01 12:00:00") ∧
      second.sendingTime = some (.lit "2026-03-01 12:00:10") ∧
      (∀ row ∈ [first, second], row.messageStatusId = MessageStatusId.success.id) ∧
      ∀ message ∈ [m, m'], Unanswered message := by
  have hfirst := givenUp_step (s := .initial printingPlatform Unit createdWorld)
    (.lit "2026-03-01 12:00:00") ⟨rfl, rfl, rfl, rfl, by decide, by decide⟩ (by rfl)
  have hsecond := givenUp_step
    (s := givenUp (.initial printingPlatform Unit createdWorld) (.lit "2026-03-01 12:00:00"))
    (.lit "2026-03-01 12:00:10") ⟨rfl, rfl, rfl, rfl, by decide, by decide⟩ (by rfl)
  have hlate : (⟨1, (), deliveredConfig, deliveredRequest (.lit "2026-03-01 12:00:10")⟩
      : Late printingPlatform Unit) ∈ twoGivenUp.underway :=
    List.mem_append_right _ List.mem_cons_self
  have hthird : Step (fun _ : Unit => .lit "10.0.0.7") ofBytes twoGivenUp (.arrives _) _ :=
    .arrives twoGivenUp hlate
  have hlate' : (⟨0, (), deliveredConfig, deliveredRequest (.lit "2026-03-01 12:00:00")⟩
      : Late printingPlatform Unit) ∈ twoGivenUp.underway.filter fun l => l.call ≠ 1 :=
    List.mem_filter.mpr ⟨List.mem_cons_self, by decide⟩
  have hrun := (((Run.nil.snoc hfirst).snoc hsecond).snoc hthird).snoc (Step.arrives _ hlate')
  rcases exchanges_logged _ _ (fun l _ => rfl) _ _ _ hrun with ⟨log, hlog⟩
  -- The rows are those of the two requests, in the order they came in.
  have hrows : ∃ second first : MessageRow, (messages ((deliveredRequest
      (.lit "2026-03-01 12:00:00")).handle ((deliveredRequest (.lit "2026-03-01 12:00:10")).handle
        createdWorld)).db).map Prod.snd = [second, first] ∧
      first.sendingTime = some (.lit "2026-03-01 12:00:00") ∧
      second.sendingTime = some (.lit "2026-03-01 12:00:10") ∧
      ∀ row ∈ [first, second], row.messageStatusId = MessageStatusId.success.id :=
    ⟨_, _, by rfl, by rfl, by rfl, by decide⟩
  rcases hrows with ⟨second, first, hrows, htime, htime', hstatus⟩
  -- Each call has its message, and the requests that came late have none.
  rcases List.map_eq_cons_iff.mp hlog.events with ⟨a, log', rfl, ha, htail⟩
  rcases List.map_eq_cons_iff.mp htail with ⟨b, log'', rfl, hb, htail'⟩
  have hsound := hlog.sound a List.mem_cons_self
  have hsound' := hlog.sound b (List.mem_cons_of_mem _ List.mem_cons_self)
  rw [ha] at hsound
  rw [hb] at hsound'
  rcases hsound.of_givenUp with ⟨m, hm, hlost⟩
  rcases hsound'.of_givenUp with ⟨m', hm', hlost'⟩
  have hnone : log''.filterMap (Entry.messageOf ()) = [] := by
    refine List.filterMap_eq_nil_iff.mpr fun e he => ?_
    have hmem := htail' ▸ List.mem_map_of_mem (f := Entry.event) he
    rcases List.mem_cons.mp hmem with he | he
    · rw [Entry.messageOf, he]
    · rw [Entry.messageOf, List.mem_singleton.mp he]
  have hclient := hlog.clients ()
  have ha' : Entry.messageOf () a = some m := by
    rw [Entry.messageOf, ha]
    exact hm
  have hb' : Entry.messageOf () b = some m' := by
    rw [Entry.messageOf, hb]
    exact hm'
  rw [List.filterMap_cons_some ha', List.filterMap_cons_some hb', hnone] at hclient
  refine ⟨_, first, second, m, m', hrows, hclient, htime, htime', hstatus, fun x hx => ?_⟩
  rcases List.mem_cons.mp hx with rfl | hx
  · exact hlost
  · rw [List.mem_singleton.mp hx]
    exact hlost'

end Exchanges

end SendingSystem
