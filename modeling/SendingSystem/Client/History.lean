import SendingSystem.Client.FreshRequest

/-!
# The history of a view model

One view model making one send operation after another over the seeded database.
An operation looks its server up before it inserts it, so the connections stay
distinct although no index keeps them so, and from the moment it has a row of the
server the `finally` block records a message, whatever comes of the request.

Requests of every kind and every behaviour of the network are covered. What is
asked of the calls is that the address is not null and that the statements of the
database do what they can: none throws by itself, and the ids have not run out.
The id of a connection is read back as a Java `int`.

## Main definitions

* `Seeded`: The tables exist and hold the ids the client refers to.
* `ConnectionsDistinct`: No two connections agree on their columns.
* `StatementsWork`: The database fails no statement of the call.
* `Reached`: The states between the calls of a run.
* `Between`: What holds of them.

## Theorems

* `insertConnection_succeeds`, `insertMessage_succeeds`: Insertions of a seeded database.
* `ensureConnection_spec`: A row of the server is found or made.
* `sendData_accepted`, `between_step`: What one call leaves behind.
* `history_complete`: What every call of a run leaves behind.
-/

namespace SendingSystem

namespace Client

open Utf16 Connector

variable {P : Platform}

/-- The row of the table with the id. -/
def Present (db : Database) (t : Tab) (id : Int) : Prop :=
  Db.present (S := clientSchema) db (t, id) = true

instance (db : Database) (t : Tab) (id : Int) : Decidable (Present db t id) :=
  inferInstanceAs (Decidable (_ = true))

/-- Every table exists, and the reference tables hold the ids the enumerations
    stand for. -/
structure Seeded (db : Database) : Prop where
  tab : ∀ t : Tab, (db.tab t).isSome
  messageStatus : ∀ s : MessageStatus, Present db .messageStatus s.index
  messageType : ∀ t : SendingType, Present db .messageType t.index
  messageDirection : ∀ d : MessageDirection, Present db .messageDirection d.index
  connectionRole : ∀ r : ConnectionRole, Present db .connectionRole r.index

/-- No two connections agree on address, port, TLS flag and role. -/
def ConnectionsDistinct (db : Database) : Prop :=
  ∀ r ∈ connections db, ∀ r' ∈ connections db, r.2 = r'.2 → r = r'

/-- No statement of the call throws by itself, and there are ids left. -/
structure StatementsWork (env : SendEnv P) (db : Database) : Prop where
  find : env.find = false
  insert : env.insert = false
  findAgain : env.findAgain = false
  record : env.record = false
  connectionIds : Db.seq (S := clientSchema) db .connection < 2147483647
  messageIds : Db.seq (S := clientSchema) db .message < maxRowid

/-- The row of the server a call sends to. -/
def Config.endpoint (cfg : Config P) (serverPort : Int) : Connection :=
  ⟨cfg.serverIp, serverPort, cfg.isSSLEncryptEnabled, ConnectionRole.server.index⟩

/-- The states between the calls of one view model over the seeded database. -/
inductive Reached : ViewModel P → Prop where
  | start : Reached ⟨.new, false, createdDatabase⟩
  | call {vm : ViewModel P} {env : SendEnv P} {cfg : Config P} (hvm : Reached vm)
      (hip : cfg.serverIp.isSome) (hwork : StatementsWork env vm.db) :
      Reached (vm.sendData env cfg).2

/-- What holds between calls. -/
structure Between (vm : ViewModel P) : Prop where
  idle : vm.getIsSending = false
  seeded : Seeded vm.db
  distinct : ConnectionsDistinct vm.db

theorem seeded_createdDatabase : Seeded createdDatabase where
  tab := by
    intro t
    cases t <;> rfl
  messageStatus := by
    intro s
    cases s <;> rfl
  messageType := by
    intro t
    cases t <;> rfl
  messageDirection := by
    intro d
    cases d <;> rfl
  connectionRole := by
    intro r
    cases r <;> rfl

/-- An insertion takes nothing of the seeded rows away. -/
theorem Seeded.insert {db db' : Database} (h : Seeded db) {t : Tab} {row : Row t} {id : Int}
    (hins : Db.insert (S := clientSchema) db t row = some (db', id)) : Seeded db' where
  tab := fun u => (evolves_insert hins).tab u (h.tab u)
  messageStatus := fun s => present_insert hins (h.messageStatus s)
  messageType := fun s => present_insert hins (h.messageType s)
  messageDirection := fun d => present_insert hins (h.messageDirection d)
  connectionRole := fun r => present_insert hins (h.connectionRole r)

/-- No index of the client's schema is unique. -/
theorem clash_eq_false (db : Database) {t : Tab} (id : Int) (row : Row t) :
    Db.clash (S := clientSchema) db t id row = false :=
  clash_of_key_eq_none rfl id

/-- An insertion fails on nothing but a reference or the ids. -/
theorem insert_of_refs {db : Database} (h : Seeded db) {t : Tab}
    (hids : Db.seq (S := clientSchema) db t < maxRowid) {row : Row t}
    (hrefs : ∀ p ∈ refs t row, Present db p.1 p.2) :
    ∃ db' id, Db.insert (S := clientSchema) db t row = some (db', id) :=
  insert_succeeds (h.tab t) hids rfl (clash_eq_false db _ row) hrefs

/-- A connection can be inserted as long as there are ids. -/
theorem insertConnection_succeeds {db : Database} (h : Seeded db)
    (hids : Db.seq (S := clientSchema) db .connection < maxRowid) (connection : Connection)
    (role : ConnectionRole) (hrole : connection.roleId = role.index) :
    ∃ db', insertConnection db connection = some db' := by
  have hins : ∃ db' id, Db.insert (S := clientSchema) db .connection connection
      = some (db', id) := by
    refine insert_of_refs h hids fun p hp => ?_
    simp only [refs, List.mem_singleton] at hp
    rw [hp, hrole]
    exact h.connectionRole role
  rcases hins with ⟨db', id, hins⟩
  exact ⟨db', by rw [insertConnection, hins]; rfl⟩

/-- A message of the client can be inserted once it has its connection. -/
theorem insertMessage_succeeds {db : Database} (h : Seeded db)
    (hids : Db.seq (S := clientSchema) db .message < maxRowid) {message : Message}
    (hconn : Present db .connection message.connectionId) {status : MessageStatus}
    (hstatus : message.messageStatusId = status.index) {type : SendingType}
    (htype : message.messageTypeId = type.index) {direction : MessageDirection}
    (hdirection : message.directionId = direction.index) :
    ∃ db', insertMessage db message = some db' := by
  have hins : ∃ db' id, Db.insert (S := clientSchema) db .message message = some (db', id) := by
    refine insert_of_refs h hids fun p hp => ?_
    simp only [refs, List.mem_cons, List.not_mem_nil, or_false] at hp
    -- A message refers to its connection and to three reference rows.
    rcases hp with rfl | rfl | rfl | rfl
    · exact hconn
    · exact hstatus ▸ h.messageStatus status
    · exact htype ▸ h.messageType type
    · exact hdirection ▸ h.messageDirection direction
  rcases hins with ⟨db', id, hins⟩
  exact ⟨db', by rw [insertMessage, hins]; rfl⟩

/-- What looking the server up and inserting it leaves behind. -/
structure Ensured (db db' : Database) (conn : Int × Connection) : Prop where
  seeded : Seeded db'
  distinct : ConnectionsDistinct db'
  row : conn ∈ connections db'
  messages : messages db' = messages db
  messageIds : Db.seq (S := clientSchema) db' .message = Db.seq (S := clientSchema) db .message
  kept : connections db <+: connections db'

/-- The look-up answers with the row of the server when there is one. -/
theorem findConnection_endpoint (db : Database) (cfg : Config P) (serverPort : Int)
    (hip : cfg.serverIp.isSome) :
    (∃ conn, findConnection db cfg.serverIp serverPort cfg.isSSLEncryptEnabled
        ConnectionRole.server.index = some conn ∧ conn ∈ connections db ∧
        conn.2 = cfg.endpoint serverPort) ∨
      (findConnection db cfg.serverIp serverPort cfg.isSSLEncryptEnabled
        ConnectionRole.server.index = none ∧
        ∀ r ∈ connections db, r.2 ≠ cfg.endpoint serverPort) := by
  -- The query compares the four columns that make an endpoint.
  cases hfind : findConnection db cfg.serverIp serverPort cfg.isSSLEncryptEnabled
      ConnectionRole.server.index with
  | none =>
      refine Or.inr ⟨rfl, fun r hr hrow => ?_⟩
      have hsome := findConnection_isSome hip hr hrow
      rw [hfind] at hsome
      exact Bool.false_ne_true hsome
  | some conn =>
      rcases findConnection_mem hfind with ⟨hmem, hrow⟩
      exact Or.inl ⟨conn, rfl, hmem, hrow⟩

/-- Inserting a row that no row agrees with keeps the connections distinct. -/
theorem ConnectionsDistinct.append {db db' : Database} (h : ConnectionsDistinct db) {id : Int}
    {connection : Connection} (hrows : connections db' = connections db ++ [(id, connection)])
    (hnew : ∀ r ∈ connections db, r.2 ≠ connection) : ConnectionsDistinct db' := by
  intro r hr r' hr' heq
  rw [hrows, List.mem_append, List.mem_singleton] at hr hr'
  rcases hr with hr | rfl
  · rcases hr' with hr' | rfl
    · exact h r hr r' hr' heq
    · exact absurd heq (hnew r hr)
  · rcases hr' with hr' | rfl
    · exact absurd heq.symm (hnew r' hr')
    · rfl

/-- A row of the server is found or made. -/
theorem ensureConnection_spec {env : SendEnv P} {db : Database} {cfg : Config P} (h : Seeded db)
    (hdistinct : ConnectionsDistinct db) (hip : cfg.serverIp.isSome)
    (hwork : StatementsWork env db) (serverPort : Int) :
    ∃ conn db', ensureConnection env db cfg serverPort = (.ok (some conn), db') ∧
      conn.2 = cfg.endpoint serverPort ∧ Ensured db db' conn := by
  simp only [ensureConnection, hwork.find, hwork.insert, hwork.findAgain, Bool.false_eq_true,
    if_false]
  rcases findConnection_endpoint db cfg serverPort hip with ⟨conn, hfind, hmem, hrow⟩ | ⟨hfind, hno⟩
  · rw [hfind]
    exact ⟨conn, db, rfl, hrow, h, hdistinct, hmem, rfl, rfl, List.prefix_rfl⟩
  · rw [hfind]
    have hids : Db.seq (S := clientSchema) db .connection < maxRowid := by
      have hint := hwork.connectionIds
      rw [maxRowid]
      omega
    rcases insertConnection_succeeds h hids (cfg.endpoint serverPort) .server rfl with ⟨db', hins⟩
    rcases insertConnection_eq_some hins with ⟨id, hstmt⟩
    have hrows : connections db' = connections db ++ [(id, cfg.endpoint serverPort)] :=
      rows_insert hstmt
    have hnew : (id, cfg.endpoint serverPort) ∈ connections db' := by
      rw [hrows]
      exact List.mem_append_right _ (List.mem_singleton.mpr rfl)
    -- The second look-up finds the row just inserted.
    rcases findConnection_endpoint db' cfg serverPort hip with
      ⟨conn, hagain, hmem, hrow⟩ | ⟨_, hno'⟩
    · rw [Config.endpoint] at hins
      simp only [hins, hagain]
      refine ⟨conn, db', rfl, hrow, h.insert hstmt, hdistinct.append hrows hno, hmem,
        messages_insertConnection hins, ?_, ⟨_, hrows.symm⟩⟩
      rw [Db.seq, Db.seq, tab_insert_of_ne hstmt (by decide)]
    · exact absurd rfl (hno' _ hnew)

/-- The message that is recorded belongs to the connection and refers to seeded
    rows, whatever came of the request. -/
theorem finished_refs (env : SendEnv P) (cfg : Config P) (connectionId : Int)
    (sent : Except Failure (Option JString)) :
    (finished (newMessage env cfg connectionId) sent).connectionId = connectionId ∧
    (∃ status : MessageStatus,
      (finished (newMessage env cfg connectionId) sent).messageStatusId = status.index) ∧
    (finished (newMessage env cfg connectionId) sent).messageTypeId = cfg.sendingType.index ∧
    (finished (newMessage env cfg connectionId) sent).directionId
      = MessageDirection.outbound.index := by
  cases sent with
  | ok response => exact ⟨rfl, ⟨.success, rfl⟩, rfl, rfl⟩
  | error e => exact ⟨rfl, ⟨.failed, rfl⟩, rfl, rfl⟩

/-- A call that passes the checks finds or makes the row of the server, and adds
    one message that names it. -/
theorem sendData_accepted {env : SendEnv P} {vm : ViewModel P} {cfg : Config P} {serverPort : Int}
    (h : Between vm) (hip : cfg.serverIp.isSome) (hwork : StatementsWork env vm.db)
    (hvalid : validate env cfg = .ok serverPort) :
    Between (vm.sendData env cfg).2 ∧ connections vm.db <+: connections (vm.sendData env cfg).2.db ∧
      ∃ id message, messages (vm.sendData env cfg).2.db = messages vm.db ++ [(id, message)] ∧
        (message.connectionId, cfg.endpoint serverPort)
          ∈ connections (vm.sendData env cfg).2.db := by
  rcases ensureConnection_spec h.seeded h.distinct hip hwork serverPort with
    ⟨conn, db, hensure, hrow, hens⟩
  rw [sendData_found h.idle hvalid hensure, hwork.record]
  -- What comes of the request only decides the columns of the message.
  generalize ((configured vm.connector cfg serverPort).sendData env.network).1 = sent
  rcases finished_refs env cfg conn.1 sent with ⟨hconnection, ⟨status, hstatus⟩, htype, hdirection⟩
  have hpresent : Present db .connection
      (finished (newMessage env cfg conn.1) sent).connectionId := by
    rw [hconnection]
    exact Db.present_iff.mpr ⟨conn.2, hens.row⟩
  have hids : Db.seq (S := clientSchema) db .message < maxRowid := by
    rw [hens.messageIds]
    exact hwork.messageIds
  rcases insertMessage_succeeds hens.seeded hids hpresent hstatus htype hdirection with ⟨db', hins⟩
  rcases insertMessage_eq_some hins with ⟨id, hstmt⟩
  have hconns := connections_insertMessage hins
  simp only [hins, Bool.false_eq_true, if_false]
  refine ⟨⟨rfl, hens.seeded.insert hstmt, ?_⟩, ?_, id, finished (newMessage env cfg conn.1) sent,
    ?_, ?_⟩
  · rw [ConnectionsDistinct, hconns]
    exact hens.distinct
  · rw [hconns]
    exact hens.kept
  · rw [← hens.messages]
    exact rows_insert hstmt
  · rw [hconns, hconnection, ← hrow]
    exact hens.row

/-- One call keeps what holds between calls. -/
theorem between_step {env : SendEnv P} {vm : ViewModel P} {cfg : Config P} (h : Between vm)
    (hip : cfg.serverIp.isSome) (hwork : StatementsWork env vm.db) :
    Between (vm.sendData env cfg).2 := by
  cases hvalid : validate env cfg with
  | error e =>
      rw [sendData_rejected h.idle hvalid]
      exact h
  | ok serverPort => exact (sendData_accepted h hip hwork hvalid).1

theorem between_of_reached {vm : ViewModel P} (h : Reached vm) : Between vm := by
  induction h with
  | start =>
      refine ⟨rfl, seeded_createdDatabase, fun r hr => ?_⟩
      have hnone : connections createdDatabase = [] := by rfl
      rw [hnone] at hr
      exact absurd hr List.not_mem_nil
  | call _ hip hwork ih => exact between_step ih hip hwork

/-- In every run a call that fails a check leaves the database as it is; every
    other call adds one message, which names the row of that call's server;
    connections are never lost and stay distinct; and afterwards nothing is being
    sent. -/
theorem history_complete {vm : ViewModel P} (h : Reached vm) {env : SendEnv P} {cfg : Config P}
    (hip : cfg.serverIp.isSome) (hwork : StatementsWork env vm.db) :
    (∀ e, validate env cfg = .error e → (vm.sendData env cfg).2.db = vm.db) ∧
    (∀ serverPort, validate env cfg = .ok serverPort → ∃ id message,
      messages (vm.sendData env cfg).2.db = messages vm.db ++ [(id, message)] ∧
      (message.connectionId, cfg.endpoint serverPort)
        ∈ connections (vm.sendData env cfg).2.db) ∧
    connections vm.db <+: connections (vm.sendData env cfg).2.db ∧
    ConnectionsDistinct (vm.sendData env cfg).2.db ∧
    (vm.sendData env cfg).2.getIsSending = false := by
  have hbetween := between_of_reached h
  have hafter := between_step hbetween hip hwork
  refine ⟨fun e hvalid => ?_, fun serverPort hvalid => ?_, ?_, hafter.distinct, hafter.idle⟩
  · rw [sendData_rejected hbetween.idle hvalid]
  · exact (sendData_accepted hbetween hip hwork hvalid).2.2
  -- A call that is rejected writes nothing at all.
  · cases hvalid : validate env cfg with
    | error e =>
        rw [sendData_rejected hbetween.idle hvalid]
    | ok serverPort => exact (sendData_accepted hbetween hip hwork hvalid).2.1

theorem plainEnv_works {db : Database}
    (hconnection : Db.seq (S := clientSchema) db .connection < 2147483647)
    (hmessage : Db.seq (S := clientSchema) db .message < maxRowid) : StatementsWork plainEnv db :=
  ⟨rfl, rfl, rfl, rfl, hconnection, hmessage⟩

/-- A text to a server that a file was sent to before. -/
theorem history_complete_again : ∃ id message,
    messages (usedViewModel.sendData plainEnv plainText).2.db
      = messages usedViewModel.db ++ [(id, message)] ∧
    (message.connectionId, plainText.endpoint 5000)
      ∈ connections (usedViewModel.sendData plainEnv plainText).2.db := by
  have hused : Reached usedViewModel :=
    .call .start (by rfl) (plainEnv_works (by decide) (by decide))
  exact (history_complete hused (by rfl) (plainEnv_works (by decide) (by decide))).2.1 5000 (by rfl)

end Client

end SendingSystem
