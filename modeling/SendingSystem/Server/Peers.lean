import Mathlib.Data.List.Dedup
import SendingSystem.Lib.Script
import SendingSystem.Server.SaveConnection
import SendingSystem.Server.Wire

/-!
# One peer, one connection

Runs of requests to the two handlers, one after another, over a freshly created
database. What a run is remembered by is the rows it added to the history, each
with the address its request came from, and the addresses `save_connection` was
called for.

Every handle applies the schema script again, which changes nothing on a database
it was applied to before, and rows are only added. So a peer's row, once inserted,
is found from then on, and the connections are exactly one row for each address.

## Main definitions

* `Written`, `Trace`: A run, and what it is remembered by.
* `Trace.next`: One request.
* `PostRequest.Works`: The database fails no operation of the request.
* `Served`: The states between the requests of a run.
* `Peers`: What holds of them.

## Theorems

* `databaseOpen_applied`: Opening a database again changes nothing.
* `saveConnection_works`: The peer's row is found or made.
* `saveMessage_works`: A message is saved.
* `PostRequest.handle_db`: What a request does to the database.
* `peers_next`: One request keeps what holds between requests.
* `one_peer_one_connection`: What holds at every point of a run.
-/

namespace SendingSystem

namespace Server

open CString

/-- A history row, and the address its request came from. -/
structure Written where
  remoteAddr : CStr
  id : Int
  row : MessageRow

/-- A run so far. -/
structure Trace where
  world : World
  written : List Written
  called : List CStr

namespace PostRequest

/-- The handler calls `save_connection`. -/
def callsSaveConnection : PostRequest → World → Bool
  | send _ _ req, _ => req.method = .lit "POST"
  | upload fault req, w =>
    req.method = .lit "POST" && !((uploadForm fault req w.files).1 < 0) &&
      (uploadForm fault req w.files).2.ctx.path ≠ []

/-- No operation on the database fails while the peer is looked up: none by itself,
    and the ids have not run out. -/
structure Works (r : PostRequest) (w : World) : Prop where
  connection : r.connectionFault = .none
  ids : Db.seq (S := serverSchema) w.db .connection < maxRowid

end PostRequest

/-- One request. The rows it adds are those past the end of the table before. -/
def Trace.next (t : Trace) (r : PostRequest) : Trace :=
  let w := r.handle t.world
  { world := w
    written := t.written ++ ((messages w.db).drop (messages t.world.db).length).map
      (fun m => ⟨r.remoteAddr, m.1, m.2⟩)
    called := if r.callsSaveConnection t.world then t.called ++ [r.remoteAddr] else t.called }

/-- The states between the requests of a run over a freshly created database. -/
inductive Served : Trace → Prop where
  | start (files : Files) (sent : List Response) : Served ⟨⟨createdDatabase, files, sent⟩, [], []⟩
  | request {t : Trace} {r : PostRequest} (ht : Served t) (hworks : r.Works t.world) :
      Served (t.next r)

/-- The schema script was run on the database to its end. -/
def Scripted (db : Database) : Prop :=
  ∀ s ∈ createDatabase, SendingSystem.Settled (S := serverSchema) s db

/-- The schema script was applied to the database. -/
structure Applied (db : Database) : Prop where
  ready : Ready db
  settled : ∀ s ∈ createDatabase, SendingSystem.Settled (S := serverSchema) s db

/-- What holds between the requests of a run. -/
structure Peers (t : Trace) : Prop where
  applied : Applied t.world.db
  known : ∀ addr ∈ t.called, Known t.world.db addr
  peers : ∀ c ∈ connections t.world.db, ∃ addr ∈ t.called, c.2 = incomingPeer addr
  rows : t.written.map (fun e => (e.id, e.row)) = messages t.world.db
  keyed : ∀ e ∈ t.written, (e.row.connectionId, incomingPeer e.remoteAddr) ∈ connections t.world.db

theorem applied_created : Applied createdDatabase := by
  have hopen : execScript none createDatabase Db.empty = (true, createdDatabase) :=
    Prod.ext (by decide) rfl
  exact ⟨ready_created, settled_execScript _ _ _ hopen⟩

theorem Applied.scripted {db : Database} (h : Applied db) : Scripted db := h.settled

/-- Opening a database again changes nothing. -/
theorem databaseOpen_scripted {db : Database} (h : Scripted db) (fault : OpenFault) :
    (databaseOpen fault db).2 = db := by
  rcases databaseOpen_cases fault db with hopen | hopen
  · rw [hopen]
  · rw [hopen]
    exact execScript_snd_of_settled createDatabase fault.exec h

theorem databaseOpen_applied {db : Database} (h : Applied db) (fault : OpenFault) :
    (databaseOpen fault db).2 = db :=
  databaseOpen_scripted h.scripted fault

/-- And it succeeds when nothing fails. -/
theorem databaseOpen_none_applied {db : Database} (h : Applied db) :
    databaseOpen .none db = (0, db) := by
  have hscript := execScript_settled createDatabase [] h.settled
  rw [List.append_nil] at hscript
  have hrun : execScript none createDatabase db = (true, db) := hscript
  simp only [databaseOpen, OpenFault.none, Bool.false_eq_true, if_false, hrun]

theorem Scripted.insert {db db' : Database} (h : Scripted db) {t : Tab} {row : Row t} {id : Int}
    (hins : Db.insert (S := serverSchema) db t row = some (db', id)) : Scripted db' :=
  fun s hs => (h s hs).mono (extends_insert hins)

theorem Applied.insert {db db' : Database} (h : Applied db) {t : Tab} {row : Row t} {id : Int}
    (hins : Db.insert (S := serverSchema) db t row = some (db', id)) : Applied db' :=
  ⟨h.ready.evolves (evolves_insert hins), h.scripted.insert hins⟩

/-- Different addresses are different peers. -/
theorem incomingPeer_inj {addr addr' : CStr} (h : incomingPeer addr = incomingPeer addr') :
    addr = addr' := by
  rw [incomingPeer, incomingPeer, ConnectionRow.mk.injEq, Option.some.injEq] at h
  exact h.1

theorem peerKey_incomingPeer_inj {addr addr' : CStr}
    (h : (incomingPeer addr).peerKey = (incomingPeer addr').peerKey) : addr = addr' := by
  simp only [ConnectionRow.peerKey, incomingPeer, PeerKey.mk.injEq, Option.getD_some] at h
  exact h.2.1

/-- Every table is there. -/
theorem Scripted.tab {db : Database} (h : Scripted db) (t : Tab) : (db.tab t).isSome := by
  have hmem : (Stmt.createTable t : Stmt serverSchema) ∈ createDatabase := by
    cases t <;> simp only [createDatabase, List.mem_cons, true_or, or_true]
  exact settled_iff.mp (h _ hmem)

/-- A row of the reference tables that the script inserts is there. -/
theorem Scripted.seeded {db : Database} (h : Scripted db) {t : Tab} {id : Int} {r : Row t}
    (hseed : (Stmt.insertOrIgnore t id r : Stmt serverSchema) ∈ createDatabase)
    (hnull : notNull t r = true) (hkey : uniqueKey t r = none) : Used db t id :=
  Db.present_iff.mp (present_of_settled (h _ hseed) hnull hkey)

theorem Scripted.status {db : Database} (h : Scripted db) (s : MessageStatusId) :
    Used db .messageStatus s.id := by
  cases s with
  | success =>
      refine h.seeded (r := seed "SUCCESS") ?_ rfl rfl
      simp only [createDatabase, MessageStatusId.id, List.mem_cons, true_or, or_true]
  | failed =>
      refine h.seeded (r := seed "FAILED") ?_ rfl rfl
      simp only [createDatabase, MessageStatusId.id, List.mem_cons, true_or, or_true]

theorem Scripted.type {db : Database} (h : Scripted db) (t : MessageTypeId) :
    Used db .messageType t.id := by
  cases t with
  | rawData =>
      refine h.seeded (r := seed "RAW_DATA") ?_ rfl rfl
      simp only [createDatabase, MessageTypeId.id, List.mem_cons, true_or, or_true]
  | file =>
      refine h.seeded (r := seed "FILE") ?_ rfl rfl
      simp only [createDatabase, MessageTypeId.id, List.mem_cons, true_or, or_true]

theorem Scripted.direction {db : Database} (h : Scripted db) (d : MessageDirectionId) :
    Used db .messageDirection d.id := by
  cases d with
  | outbound =>
      refine h.seeded (r := seed "OUTBOUND") ?_ rfl rfl
      simp only [createDatabase, MessageDirectionId.id, List.mem_cons, true_or, or_true]
  | inbound =>
      refine h.seeded (r := seed "INBOUND") ?_ rfl rfl
      simp only [createDatabase, MessageDirectionId.id, List.mem_cons, true_or, or_true]

theorem Scripted.role {db : Database} (h : Scripted db) :
    Used db .connectionRole incomingPeerRole.id := by
  refine h.seeded (r := seed "CLIENT") ?_ rfl rfl
  simp only [createDatabase, incomingPeerRole, ConnectionRoleId.id, List.mem_cons, true_or, or_true]

/-- Without a failure the peer's row is found, or it is made. -/
theorem saveConnection_works {db : Database} (h : Applied db) {addr : CStr}
    (hpeers : ∀ c ∈ connections db, ∃ addr, c.2 = incomingPeer addr)
    (hids : Db.seq (S := serverSchema) db .connection < maxRowid) :
    (Known db addr ∧ ∃ id, (id, incomingPeer addr) ∈ connections db ∧
      saveConnection .none db addr = (id, db)) ∨
    (¬ Known db addr ∧ ∃ db' id, insertPeer db addr = some (db', id) ∧
      saveConnection .none db addr = (id, db')) := by
  have hopen : databaseOpen ConnectionFault.none.opening db = (0, db) := databaseOpen_none_applied h
  rcases saveConnection_cases .none db addr with ⟨hfail, _⟩ | ⟨_, ⟨hfinds, id, hrow, hret⟩ |
    ⟨hno, hcannot, _⟩ | ⟨hno, _, db', id, hins, hret⟩⟩
  · rw [hopen] at hfail
    simp only [ConnectionFault.none, StmtFault.none, Bool.false_eq_true, or_false] at hfail
    omega
  · rw [hopen] at hret
    exact Or.inl ⟨hfinds.2.2, id, hrow, hret⟩
  -- A peer without a row can be inserted: every other row has another address.
  · have hunknown : ¬ Known db addr := fun hknown => hno ⟨rfl, rfl, hknown⟩
    rw [hopen] at hcannot
    have hfree : ∀ c ∈ connections db, c.2.peerKey ≠ (incomingPeer addr).peerKey := by
      intro c hc hkey
      rcases hpeers c hc with ⟨addr', hrow⟩
      rw [hrow] at hkey
      exact hunknown ⟨c, hc, by rw [hrow, peerKey_incomingPeer_inj hkey]⟩
    rcases (insertPeer_isSome_iff h.ready addr).mpr ⟨h.scripted.role, hids, hfree⟩ with
      ⟨db', id, hins⟩
    rcases hcannot with hprepare | hstep | hnone
    · exact absurd hprepare Bool.false_ne_true
    · exact absurd hstep Bool.false_ne_true
    · rw [insertBound_of_bound rfl, hins] at hnone
      simp only [reduceCtorEq] at hnone
  · rw [hopen, insertBound_of_bound rfl] at hins
    exact Or.inr ⟨fun hknown => hno ⟨rfl, rfl, hknown⟩, db', id, hins, hret⟩

/-- What saving a message does to a database the script was applied to. -/
theorem saveMessage_applied {db : Database} (h : Applied db) (fault : MessageFault)
    (row : MessageRow) :
    (saveMessage fault db row).2 = db ∨ ∃ db' id, (saveMessage fault db row).2 = db' ∧
      Db.insert (S := serverSchema) db .message (row.bound fault.insert) = some (db', id) := by
  have hopen := databaseOpen_applied h fault.opening
  unfold saveMessage
  simp only [hopen]
  -- The database opens as it is, or nothing is written.
  split
  · exact Or.inl rfl
  · rcases insertRow_cases fault.insert db .message (row.bound fault.insert) with
      hfail | ⟨db', id, hok, hins⟩
    · left
      rw [messageInsert_eq, hfail]
      rfl
    · right
      refine ⟨db', id, ?_, hins⟩
      rw [messageInsert_eq, hok]
      simp only [Option.getD_some]
      split <;> rfl

/-- The columns of a row that name reference rows name seeded ones. -/
structure Seeded (row : MessageRow) : Prop where
  status : ∃ s : MessageStatusId, row.messageStatusId = s.id
  type : ∃ t : MessageTypeId, row.messageTypeId = t.id
  direction : ∃ d : MessageDirectionId, row.directionId = d.id

theorem seeded_sendRow (fault : SendFault) (files : Files) (connectionId : Int)
    (accepted : SendAccepted) : Seeded (sendRow fault files connectionId accepted) := by
  refine ⟨?_, ⟨.rawData, rfl⟩, ⟨.inbound, rfl⟩⟩
  simp only [sendRow, statusId]
  split
  · exact ⟨.success, rfl⟩
  · exact ⟨.failed, rfl⟩

theorem seeded_uploadRow (fault : UploadFault) (connectionId : Int) (path : List UInt8) :
    Seeded (uploadRow fault connectionId path) := ⟨⟨.success, rfl⟩, ⟨.file, rfl⟩, ⟨.inbound, rfl⟩⟩

/-- What is bound of it has the same ids. -/
theorem Seeded.bound {row : MessageRow} (h : Seeded row) (fault : StmtFault) :
    Seeded (row.bound fault) := ⟨h.status, h.type, h.direction⟩

/-- The rows a message of a connection in use refers to are there. -/
theorem Scripted.refs_message {db : Database} (h : Scripted db) {row : MessageRow}
    (hseeded : Seeded row) (hconn : Used db .connection row.connectionId) :
    ∀ p ∈ refs .message row, Db.present (S := serverSchema) db p = true := by
  intro p hp
  simp only [refs, List.mem_cons, List.not_mem_nil, or_false] at hp
  -- The connection was just made, and the other three are reference rows.
  rcases hp with rfl | rfl | rfl | rfl
  · exact Db.present_iff.mpr hconn
  · rcases hseeded.status with ⟨s, hs⟩
    exact Db.present_iff.mpr (hs ▸ h.status s)
  · rcases hseeded.type with ⟨t, ht⟩
    exact Db.present_iff.mpr (ht ▸ h.type t)
  · rcases hseeded.direction with ⟨d, hd⟩
    exact Db.present_iff.mpr (hd ▸ h.direction d)

/-- A history row of a connection in use can be inserted, while an id is left. -/
theorem insertMessage_isSome {db : Database} (h : Scripted db) {row : MessageRow}
    (hseeded : Seeded row) (hconn : Used db .connection row.connectionId)
    (hids : Db.seq (S := serverSchema) db .message < maxRowid) :
    ∃ db' id, Db.insert (S := serverSchema) db .message row = some (db', id) :=
  (insert_isSome_iff (refs_ne .message row)).mpr ⟨h.tab .message, hids, rfl,
    clash_of_key_eq_none (S := serverSchema) (t := .message) rfl _, h.refs_message hseeded hconn⟩

/-- And is, as it is bound, when its statement runs. -/
theorem saveMessage_inserts {db : Database} (h : Scripted db) {fault : MessageFault}
    (hopen : (databaseOpen fault.opening db).1 ≠ -1) (hprepare : fault.insert.prepare = false)
    (hstep : fault.insert.step = false) {row : MessageRow} (hseeded : Seeded row)
    (hconn : Used db .connection row.connectionId)
    (hids : Db.seq (S := serverSchema) db .message < maxRowid) :
    ∃ db' id, saveMessage fault db row = (id, db') ∧ 1 ≤ id ∧
      Db.insert (S := serverSchema) db .message (row.bound fault.insert) = some (db', id) := by
  -- The texts refer to nothing, so what is bound refers to the same rows.
  rcases insertMessage_isSome h (hseeded.bound fault.insert) hconn hids with ⟨db', id, hins⟩
  have hid := (insert_fresh hins).2.1
  have hinsert : messageInsert fault.insert db row.connectionId row.messageStatusId
      row.messageTypeId row.directionId row.response row.sendingTime row.request
        = ⟨0, some id, db'⟩ := by
    rw [messageInsert_eq, insertRow, hprepare, hstep, if_neg Bool.false_ne_true,
      if_neg Bool.false_ne_true, hins]
  refine ⟨db', id, ?_, hid, hins⟩
  rw [saveMessage, databaseOpen_scripted h]
  simp only [hopen, hinsert, Option.getD_some, if_false]
  exact if_neg (by omega)

/-- Without a failure it is saved. -/
theorem saveMessage_works {db : Database} (h : Applied db) {row : MessageRow}
    (hseeded : Seeded row) (hconn : Used db .connection row.connectionId)
    (hids : Db.seq (S := serverSchema) db .message < maxRowid) :
    (saveMessage .none db row).1 ≠ -1 := by
  have hopen : (databaseOpen MessageFault.none.opening db).1 ≠ -1 := by
    rw [MessageFault.none, databaseOpen_none_applied h]
    simp only
    omega
  rcases saveMessage_inserts h.scripted hopen rfl rfl hseeded hconn hids with
    ⟨db', id, hret, hpos, _⟩
  rw [hret]
  simp only
  omega

/-- What a request does to the database: nothing when `save_connection` is not
    called, otherwise what that does, and then a history row may be saved. -/
theorem PostRequest.handle_db (r : PostRequest) (w : World) :
    (r.callsSaveConnection w = false ∧ (r.handle w).db = w.db) ∨
    (r.callsSaveConnection w = true ∧ ((r.handle w).db = (r.peer w).2 ∨
      ∃ fault row, row.connectionId = (r.peer w).1 ∧
        (r.handle w).db = (saveMessage fault (r.peer w).2 row).2)) := by
  cases r with
  | send parse fault req =>
      rw [callsSaveConnection, handle, peer]
      -- A request that is not POST does not get to the database.
      by_cases hmethod : req.method = .lit "POST"
      · refine Or.inr ⟨decide_eq_true hmethod, ?_⟩
        cases hread : readRequest parse fault.malloc req with
        | error e =>
            rw [apiSendHandler_rejected parse fault req w hmethod hread]
            exact Or.inl rfl
        | ok accepted =>
            rw [apiSendHandler_accepted parse fault req w hmethod hread, answerSend_db]
            split
            · exact Or.inr ⟨_, _, rfl, rfl⟩
            · exact Or.inl rfl
      · rw [apiSendHandler_method parse fault req w hmethod]
        exact Or.inl ⟨decide_eq_false hmethod, rfl⟩
  | upload fault req =>
      rw [callsSaveConnection, handle, peer]
      -- An upload gets to it with a form that went well and a file that was opened.
      cases uploadWay fault req w with
      | method hmethod =>
          rw [apiUploadHandler_method fault req w hmethod]
          simp only [hmethod, decide_false, Bool.false_and, true_and, Bool.false_eq_true,
            false_and, or_false]
          rfl
      | form hmethod hform =>
          rw [apiUploadHandler_form fault req w hmethod hform]
          simp only [hmethod, hform, decide_true, Bool.not_true, Bool.and_false, Bool.false_and,
            true_and, Bool.false_eq_true, false_and, or_false]
          rfl
      | noFile hmethod hform hpath =>
          rw [apiUploadHandler_noFile fault req w hmethod hform hpath]
          simp only [hpath, ne_eq, not_true_eq_false, decide_false, Bool.and_false, true_and,
            Bool.false_eq_true, false_and, or_false]
          rfl
      | noConnection hmethod hform hpath hid =>
          rw [apiUploadHandler_noConnection fault req w hmethod hform hpath hid]
          refine Or.inr ⟨?_, Or.inl rfl⟩
          simp only [hmethod, hform, hpath, decide_true, decide_false, Bool.not_false, ne_eq,
            not_false_eq_true, Bool.and_self]
      | ok hmethod hform hpath hid =>
          rw [apiUploadHandler_db hmethod hform hpath hid]
          refine Or.inr ⟨?_, Or.inr ⟨_, _, rfl, rfl⟩⟩
          simp only [hmethod, hform, hpath, decide_true, decide_false, Bool.not_false, ne_eq,
            not_false_eq_true, Bool.and_self]

/-- What looking a peer up, and then perhaps saving a message of it, leaves behind. -/
structure Serves (addr : CStr) (db db' : Database) (added : List (Int × MessageRow)) : Prop where
  applied : Applied db'
  known : Known db' addr
  kept : ∀ c ∈ connections db, c ∈ connections db'
  only : ∀ c ∈ connections db', c ∈ connections db ∨ c.2 = incomingPeer addr
  messages : messages db' = messages db ++ added
  keyed : ∀ m ∈ added, (m.2.connectionId, incomingPeer addr) ∈ connections db'

/-- Looking the peer up adds its row if it has none, and no message. -/
theorem serves_saveConnection {db : Database} (addr : CStr) (h : Applied db)
    (hpeers : ∀ c ∈ connections db, ∃ addr, c.2 = incomingPeer addr)
    (hids : Db.seq (S := serverSchema) db .connection < maxRowid) :
    Serves addr db (saveConnection .none db addr).2 [] ∧
      ((saveConnection .none db addr).1, incomingPeer addr)
        ∈ connections (saveConnection .none db addr).2 := by
  have hmessages := messages_saveConnection .none db addr
  -- The peer is known and nothing is written, or its row is the new one.
  rcases saveConnection_works h hpeers hids with ⟨hknown, id, hrow, hret⟩ | ⟨_, db', id, hins, hret⟩
  · rw [hret]
    exact ⟨⟨h, hknown, fun c hc => hc, fun c hc => Or.inl hc, (List.append_nil _).symm,
      fun m hm => absurd hm List.not_mem_nil⟩, hrow⟩
  · rw [hret] at hmessages ⊢
    have hrows := (connections_insertPeer hins).1
    have hnew : (id, incomingPeer addr) ∈ connections db' := by
      rw [hrows]
      exact List.mem_append_right _ (List.mem_singleton.mpr rfl)
    refine ⟨⟨h.insert hins, ⟨_, hnew, rfl⟩, fun c hc => ?_, fun c hc => ?_, ?_,
      fun m hm => absurd hm List.not_mem_nil⟩, hnew⟩
    · rw [hrows]
      exact List.mem_append_left _ hc
    · rw [hrows, List.mem_append, List.mem_singleton] at hc
      exact hc.imp_right fun hc => by rw [hc]
    · rw [List.append_nil]
      exact hmessages

/-- Saving a message of the peer afterwards. -/
theorem serves_saveMessage {addr : CStr} {db db₁ : Database} (h : Serves addr db db₁ [])
    {row : MessageRow} (hrow : (row.connectionId, incomingPeer addr) ∈ connections db₁)
    (fault : MessageFault) :
    ∃ added, Serves addr db (saveMessage fault db₁ row).2 added := by
  have hnone : messages db₁ = messages db := by rw [h.messages, List.append_nil]
  rcases saveMessage_applied h.applied fault row with hsame | ⟨db₂, id, heq, hins⟩
  · rw [hsame]
    exact ⟨[], h⟩
  · rw [heq]
    -- The insertion is into another table than that of the peers.
    have hconns : connections db₂ = connections db₁ := rows_insert_of_ne hins (by decide)
    have hrows : messages db₂ = messages db₁ ++ [(id, row.bound fault.insert)] := rows_insert hins
    refine ⟨[(id, row.bound fault.insert)], h.applied.insert hins, ?_, ?_, ?_, hnone ▸ hrows,
      fun m hm => ?_⟩
    · rw [Known, hconns]
      exact h.known
    · rw [hconns]
      exact h.kept
    · rw [hconns]
      exact h.only
    · rw [List.mem_singleton.mp hm, hconns]
      exact hrow

/-- A request that has its peer looked up. -/
theorem PostRequest.serves {r : PostRequest} {w : World} (happlied : Applied w.db)
    (hpeers : ∀ c ∈ connections w.db, ∃ addr, c.2 = incomingPeer addr) (hworks : r.Works w)
    (hcalls : r.callsSaveConnection w = true) :
    ∃ added, Serves r.remoteAddr w.db (r.handle w).db added := by
  rcases serves_saveConnection r.remoteAddr happlied hpeers hworks.ids with ⟨hserves, hrow⟩
  rw [← hworks.connection] at hserves hrow
  -- What the handler does besides is to insert one message at most.
  rcases r.handle_db w with ⟨hno, _⟩ | ⟨_, hpeer | ⟨fault, row, hid, hsaved⟩⟩
  · exact absurd (hno.symm.trans hcalls) Bool.false_ne_true
  · rw [hpeer]
    exact ⟨[], hserves⟩
  · rw [hsaved]
    refine serves_saveMessage hserves ?_ fault
    rw [hid]
    exact hrow

/-- One request keeps what holds between requests. -/
theorem peers_next {t : Trace} {r : PostRequest} (h : Peers t) (hworks : r.Works t.world) :
    Peers (t.next r) := by
  rcases r.handle_db t.world with ⟨hno, hsame⟩ | ⟨hcalls, _⟩
  -- Nothing was written, and nothing is remembered.
  · have hnext : t.next r = ⟨r.handle t.world, t.written, t.called⟩ := by
      simp only [Trace.next, hsame, hno, List.drop_length, List.map_nil, List.append_nil,
        Bool.false_eq_true, if_false]
    rw [hnext]
    exact ⟨hsame ▸ h.applied, hsame ▸ h.known, hsame ▸ h.peers, hsame ▸ h.rows, hsame ▸ h.keyed⟩
  · have hpeers : ∀ c ∈ connections t.world.db, ∃ addr, c.2 = incomingPeer addr := by
      intro c hc
      rcases h.peers c hc with ⟨addr, _, hrow⟩
      exact ⟨addr, hrow⟩
    rcases PostRequest.serves h.applied hpeers hworks hcalls with ⟨added, hserves⟩
    have hnext : t.next r = ⟨r.handle t.world,
        t.written ++ added.map (fun m => ⟨r.remoteAddr, m.1, m.2⟩),
        t.called ++ [r.remoteAddr]⟩ := by
      simp only [Trace.next, hserves.messages, hcalls, List.drop_left, if_true]
    rw [hnext]
    refine ⟨hserves.applied, fun addr haddr => ?_, fun c hc => ?_, ?_, fun e he => ?_⟩
    · rcases List.mem_append.mp haddr with haddr | haddr
      · rcases h.known addr haddr with ⟨c, hc, hrow⟩
        exact ⟨c, hserves.kept c hc, hrow⟩
      · rw [List.mem_singleton.mp haddr]
        exact hserves.known
    · rcases hserves.only c hc with hc | hrow
      · rcases h.peers c hc with ⟨addr, haddr, hrow⟩
        exact ⟨addr, List.mem_append_left _ haddr, hrow⟩
      · exact ⟨_, List.mem_append_right _ (List.mem_singleton.mpr rfl), hrow⟩
    · simp only [List.map_append, List.map_map, h.rows, hserves.messages]
      rw [List.append_cancel_left_eq]
      exact List.map_id _
    · rcases List.mem_append.mp he with he | he
      · exact hserves.kept _ (h.keyed e he)
      · rcases List.mem_map.mp he with ⟨m, hm, rfl⟩
        exact hserves.keyed m hm

theorem peers_of_served {t : Trace} (h : Served t) : Peers t := by
  induction h with
  | start files sent =>
      have hconns : connections createdDatabase = [] := by decide
      have hnone : messages createdDatabase = [] := by decide
      refine ⟨applied_created, fun addr haddr => absurd haddr List.not_mem_nil, fun c hc => ?_,
        hnone.symm, fun e he => absurd he List.not_mem_nil⟩
      rw [hconns] at hc
      exact absurd hc List.not_mem_nil
  | request _ hworks ih => exact peers_next ih hworks

/-- The rows of a table are distinct, since their ids are. -/
theorem connections_nodup (db : Database) : (connections db).Nodup := by
  unfold connections Db.rows
  cases db.tab .connection with
  | none => exact List.nodup_nil
  | some T =>
      refine T.ascending.imp ?_
      intro r r' hlt heq
      rw [heq] at hlt
      omega

/-- There are as many connections as there are addresses `save_connection` was
    called for. -/
theorem Peers.length {t : Trace} (h : Peers t) :
    (connections t.world.db).length = t.called.dedup.length := by
  have hdistinct := PeersDistinct.of_sound h.applied.ready.sound h.applied.ready.unique
  have hrows : ((connections t.world.db).map (fun c => c.2)).Nodup := by
    refine (connections_nodup t.world.db).map_on fun c hc c' hc' heq => ?_
    exact hdistinct c hc c' hc' (congrArg ConnectionRow.roleId heq)
      (congrArg (fun c => c.ip.getD (.lit "")) heq) (congrArg ConnectionRow.port heq)
      (congrArg ConnectionRow.isSslEncrypted heq)
  have haddrs : (t.called.dedup.map incomingPeer).Nodup :=
    t.called.nodup_dedup.map fun _ _ => incomingPeer_inj
  -- Both lists are without repetition and have the same members.
  have hperm : ((connections t.world.db).map (fun c => c.2)).Perm
      (t.called.dedup.map incomingPeer) := by
    rw [List.perm_ext_iff_of_nodup hrows haddrs]
    intro row
    rw [List.mem_map, List.mem_map]
    constructor
    · rintro ⟨c, hc, rfl⟩
      rcases h.peers c hc with ⟨addr, haddr, hrow⟩
      exact ⟨addr, List.mem_dedup.mpr haddr, hrow.symm⟩
    · rintro ⟨addr, haddr, rfl⟩
      rcases h.known addr (List.mem_dedup.mp haddr) with ⟨c, hc, hrow⟩
      exact ⟨c, hc, hrow⟩
  have hlength := hperm.length_eq
  rw [List.length_map, List.length_map] at hlength
  exact hlength

/-- At every point of a run the history is the rows its requests added; each of
    them names a connection with its request's address, the server's port and TLS
    flag and the role `CLIENT`; two of them name one connection exactly when their
    requests came from one address; and there is one connection for each address
    `save_connection` was called for. -/
theorem one_peer_one_connection {t : Trace} (h : Served t) :
    t.written.map (fun e => (e.id, e.row)) = messages t.world.db ∧
    (∀ e ∈ t.written, ∃ c ∈ connections t.world.db, c.1 = e.row.connectionId ∧
      c.2 = ⟨some e.remoteAddr, connectionPort, sslEncrypt, ConnectionRoleId.client.id⟩) ∧
    (∀ e ∈ t.written, ∀ e' ∈ t.written,
      e.row.connectionId = e'.row.connectionId ↔ e.remoteAddr = e'.remoteAddr) ∧
    (connections t.world.db).length = t.called.dedup.length := by
  have hpeers := peers_of_served h
  refine ⟨hpeers.rows, fun e he => ?_, fun e he e' he' => ⟨fun hid => ?_, fun haddr => ?_⟩,
    hpeers.length⟩
  · exact ⟨_, hpeers.keyed e he, rfl, by rfl⟩
  -- One id is one row, and a row has one address.
  · have hrow := Db.row_unique (hpeers.keyed e he) (hpeers.keyed e' he') hid
    rw [Prod.mk.injEq] at hrow
    exact incomingPeer_inj hrow.2
  -- One address has one row, and a row has one id.
  · have hdistinct := PeersDistinct.of_sound hpeers.applied.ready.sound
      hpeers.applied.ready.unique
    have hrow' := hpeers.keyed e' he'
    rw [← haddr] at hrow'
    have hsame := hdistinct _ (hpeers.keyed e he) _ hrow' rfl rfl rfl rfl
    exact congrArg Prod.fst hsame

/-- An upload of one small file. -/
def smallUpload (remoteAddr : CStr) : PostRequest :=
  .upload (.none 512 (.lit "2026-03-01 12:00:00"))
    ⟨.lit "POST", remoteAddr, [⟨some (.lit "a.txt"), ascii "hi", false, false⟩], false⟩

/-- Two uploads from one address and one from another make two connections. -/
theorem one_peer_one_connection_two_peers : ∃ t, Served t ∧ t.written.length = 3 ∧
    (connections t.world.db).length = 2 ∧
    t.written.map (fun e => (e.id, e.row)) = messages t.world.db := by
  have hserved : Served ((((⟨createdWorld, [], []⟩ : Trace).next
      (smallUpload (.lit "10.0.0.7"))).next (smallUpload (.lit "10.0.0.8"))).next
      (smallUpload (.lit "10.0.0.7"))) :=
    .request (.request (.request (.start _ _) ⟨rfl, by decide⟩) ⟨rfl, by decide⟩) ⟨rfl, by decide⟩
  have hall := one_peer_one_connection hserved
  exact ⟨_, hserved, rfl, hall.2.2.2.trans (by rfl), hall.1⟩

end Server

end SendingSystem
