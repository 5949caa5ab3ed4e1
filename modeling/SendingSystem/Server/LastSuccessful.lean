import SendingSystem.Server.Rows

/-!
# The last successful message

What `message_get_last_successful` answers after any run of calls on the file.
Its query writes the status as the literal `2`, and that is the id of `FAILED`:
in `MessageStatusId`, and in the rows `CreateDatabase.sql` seeds, a success has
the id `1`. As long as calls write only statuses of that enumeration, every
message is one or the other, so the answer is right on an empty table and on no
other.

## Main definitions

* `Call.writes`: The message a call may write.
* `KnownStatus`: The status of a message is a value of `MessageStatusId`.
* `ReturnsLast`: The answer is the newest successful message.

## Theorems

* `messages_exec`: The messages after a call.
* `knownStatus_step`, `knownStatus_run`: Statuses stay known along a run.
* `lastSuccessful_iff`: When the answer is the newest successful message.
-/

namespace SendingSystem

namespace Server

open CString

/-- The row a call writes into `Message` when it succeeds. -/
def Call.writes : Call → Option MessageRow
  | .messageInsert f connectionId statusId typeId directionId response sendingTime request =>
    some (MessageRow.bound f
      ⟨connectionId, statusId, typeId, directionId, response, sendingTime, request⟩)
  | .messageUpdate f _ connectionId statusId typeId directionId response sendingTime request =>
    some (MessageRow.bound f
      ⟨connectionId, statusId, typeId, directionId, response, sendingTime, request⟩)
  | _ => none

/-- The status of a message is a value of `MessageStatusId`. -/
def KnownStatus (row : MessageRow) : Prop := ∃ status : MessageStatusId,
  row.messageStatusId = status.id

/-- The answer is the message with the greatest id among those of status
    `MESSAGE_STATUS_SUCCESS`, with all its fields, and `NULL` when there is none. -/
def ReturnsLast (db : Database) : Option Message → Prop
  | none => ∀ r ∈ messages db, r.2.messageStatusId ≠ MessageStatusId.success.id
  | some m => ∃ r ∈ messages db, m = readRow .message (fun _ => false) r ∧
      r.2.messageStatusId = MessageStatusId.success.id ∧
      ∀ r' ∈ messages db, r'.2.messageStatusId = MessageStatusId.success.id → r'.1 ≤ r.1

section OtherTables

variable {fault : StmtFault} {db : Database} {t : Tab} {id : Int} {row : Row t}
  {r : Int × MessageRow}

/-- A call on another table leaves the messages alone. -/
theorem mem_messages_insertRow (ht : Tab.message ≠ t)
    (hr : r ∈ messages (insertRow fault db t row).db) : r ∈ messages db := by
  rw [messages, rows_insertRow_of_ne fault db row ht] at hr
  exact hr

theorem mem_messages_updateRow (ht : Tab.message ≠ t)
    (hr : r ∈ messages (updateRow fault db t id row).db) : r ∈ messages db := by
  rw [messages, rows_updateRow_of_ne fault db id row ht] at hr
  exact hr

theorem mem_messages_deleteRow (ht : Tab.message ≠ t)
    (hr : r ∈ messages (deleteRow fault db t id).db) : r ∈ messages db := by
  rw [messages, rows_deleteRow_of_ne fault db id ht] at hr
  exact hr

end OtherTables

/-- The messages after a call were there before, or are what it writes. -/
theorem messages_exec (db : Database) (c : Call) :
    ∀ r ∈ messages (c.exec db).db, r ∈ messages db ∨ c.writes = some r.2 := by
  intro r hr
  cases c with
  | messageInsert f connectionId statusId typeId directionId response sendingTime request =>
      exact (mem_rows_insertRow hr).imp_right (fun hnew => congrArg some hnew.symm)
  | messageUpdate f id connectionId statusId typeId directionId response sendingTime request =>
      exact (mem_rows_updateRow hr).imp_right (fun hnew => congrArg some hnew.symm)
  | messageDelete f id => exact Or.inl (mem_rows_deleteRow hr)
  | databaseOpen fault =>
      have hrows := rows_databaseOpen fault db (fun s hs => (createDatabase_fills s hs).2.1)
      rw [messages, Call.exec, hrows] at hr
      exact Or.inl hr
  | connectionGetOrCreate find insert ip port ssl roleId =>
      left
      rcases connectionGetOrCreate_cases find insert db ip port ssl roleId with
        h | ⟨_, _, h, _⟩ | ⟨db', id, h, hins⟩
      · simpa only [Call.exec, h] using hr
      · simpa only [Call.exec, h] using hr
      · have hrows : messages db' = messages db := rows_insert_of_ne hins (by decide)
        simpa only [Call.exec, h, hrows] using hr
  -- The other calls are on other tables.
  | messageTypeInsert f name => exact Or.inl (mem_messages_insertRow (by decide) hr)
  | messageTypeUpdate f id name => exact Or.inl (mem_messages_updateRow (by decide) hr)
  | messageTypeDelete f id => exact Or.inl (mem_messages_deleteRow (by decide) hr)
  | messageStatusInsert f name => exact Or.inl (mem_messages_insertRow (by decide) hr)
  | messageStatusUpdate f id name => exact Or.inl (mem_messages_updateRow (by decide) hr)
  | messageStatusDelete f id => exact Or.inl (mem_messages_deleteRow (by decide) hr)
  | messageDirectionInsert f name => exact Or.inl (mem_messages_insertRow (by decide) hr)
  | messageDirectionUpdate f id name =>
      exact Or.inl (mem_messages_updateRow (by decide) hr)
  | messageDirectionDelete f id => exact Or.inl (mem_messages_deleteRow (by decide) hr)
  | connectionRoleInsert f name => exact Or.inl (mem_messages_insertRow (by decide) hr)
  | connectionRoleUpdate f id name => exact Or.inl (mem_messages_updateRow (by decide) hr)
  | connectionRoleDelete f id => exact Or.inl (mem_messages_deleteRow (by decide) hr)
  | connectionInsert f ip port ssl roleId =>
      exact Or.inl (mem_messages_insertRow (by decide) hr)
  | connectionUpdate f id ip port ssl roleId =>
      exact Or.inl (mem_messages_updateRow (by decide) hr)
  | connectionDelete f id => exact Or.inl (mem_messages_deleteRow (by decide) hr)
  | namedConnectionInsert f name connectionId =>
      exact Or.inl (mem_messages_insertRow (by decide) hr)
  | namedConnectionUpdate f id name connectionId =>
      exact Or.inl (mem_messages_updateRow (by decide) hr)
  | namedConnectionDelete f id => exact Or.inl (mem_messages_deleteRow (by decide) hr)

/-- A call that writes only known statuses leaves only known statuses. -/
theorem knownStatus_step {s s' : Store} {c : Call} {r : Ret} (hstep : s.step c = some (s', r))
    (hc : ∀ row, c.writes = some row → KnownStatus row)
    (hs : ∀ m ∈ messages s.db, KnownStatus m.2) : ∀ m ∈ messages s'.db, KnownStatus m.2 := by
  intro m hm
  rcases storeStep_eq_some hstep with ⟨rfl, hdb, _⟩
  rw [hdb] at hm
  rcases messages_exec s.db c m hm with hold | hnew
  · exact hs m hold
  · exact hc m.2 hnew

/-- Along a run statuses stay known. -/
theorem knownStatus_run (cs : List Call) (s s' : Store) (hrun : s.run cs = some s')
    (hcs : ∀ c ∈ cs, ∀ row, c.writes = some row → KnownStatus row)
    (hs : ∀ m ∈ messages s.db, KnownStatus m.2) : ∀ m ∈ messages s'.db, KnownStatus m.2 :=
  Store.run_preserves (P := fun s => ∀ m ∈ messages s.db, KnownStatus m.2)
    (Q := fun c => ∀ row, c.writes = some row → KnownStatus row) knownStatus_step cs hrun hcs hs

/-- After any run of calls that write messages with the statuses of
    `MessageStatusId`, `message_get_last_successful` answers the newest successful
    message exactly when there is no message at all. -/
theorem lastSuccessful_iff (cs : List Call) (s : Store) (hrun : Store.initial.run cs = some s)
    (hcs : ∀ c ∈ cs, ∀ row, c.writes = some row → KnownStatus row) :
    ReturnsLast s.db (messageGetLastSuccessful .none s.db) ↔ messages s.db = [] := by
  have hknown := knownStatus_run cs _ s hrun hcs (fun m hm => absurd hm List.not_mem_nil)
  rw [messageGetLastSuccessful]
  rcases hlast : lastokRow s.db with _ | r
  -- No message failed, so by what is known of statuses each is a success.
  · have hno := lastokRow_eq_none.mp hlast
    constructor
    · intro hnone
      rw [List.eq_nil_iff_forall_not_mem]
      intro m hm
      rcases hknown m hm with ⟨status, hstatus⟩
      cases status with
      | success => exact hnone m hm hstatus
      | failed => exact hno m hm hstatus
    · intro hnil m hm
      rw [hnil] at hm
      exact absurd hm List.not_mem_nil
  -- The message returned is a failed one.
  · have hr := lastokRow_eq_some hlast
    constructor
    · rintro ⟨m, _, hm, hsuccess, _⟩
      have hstatus : r.2.messageStatusId = m.2.messageStatusId :=
        congrArg Message.messageStatusId hm
      rw [hr.2.1, hsuccess, MessageStatusId.id] at hstatus
      omega
    · intro hnil
      rw [hnil] at hr
      exact absurd hr.1 List.not_mem_nil

/-- A run that records one successful upload. -/
def oneSuccess : List Call := [
  .databaseOpen .none,
  .connectionInsert .none (some (.lit "10.0.0.7")) 5000 1 2,
  .messageInsert .none 1 1 2 2 none (some (.lit "t")) (some (.lit "f"))]

/-- A file without messages. -/
theorem lastSuccessful_opened : ∃ s, Store.initial.run [.databaseOpen .none] = some s ∧
    (ReturnsLast s.db (messageGetLastSuccessful .none s.db) ↔ messages s.db = []) := by
  refine ⟨_, rfl, lastSuccessful_iff [.databaseOpen .none] _ rfl fun c hc row hrow => ?_⟩
  rw [List.mem_singleton.mp hc] at hrow
  simp only [Call.writes, reduceCtorEq] at hrow

/-- One successful message, and `NULL` is returned. -/
theorem lastSuccessful_oneSuccess : ¬ ∀ (cs : List Call) (s : Store),
    Store.initial.run cs = some s →
    (∀ c ∈ cs, ∀ row, c.writes = some row → KnownStatus row) →
    ReturnsLast s.db (messageGetLastSuccessful .none s.db) := by
  intro h
  have hlast := h oneSuccess _ rfl (by
    intro c hc row hrow
    simp only [oneSuccess, List.mem_cons, List.not_mem_nil, or_false] at hc
    rcases hc with rfl | rfl | rfl
    · simp only [Call.writes, reduceCtorEq] at hrow
    · simp only [Call.writes, reduceCtorEq] at hrow
    · rw [Call.writes, Option.some.injEq] at hrow
      exact ⟨.success, by rw [← hrow]; rfl⟩)
  -- The success is there, and the answer is that there is none.
  exact hlast (1, ⟨1, 1, 2, 2, none, some (.lit "t"), some (.lit "f")⟩)
    (List.mem_singleton.mpr rfl) rfl

end Server

end SendingSystem
