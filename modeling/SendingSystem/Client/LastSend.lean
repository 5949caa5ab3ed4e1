import Mathlib.Data.List.Lex
import Mathlib.Order.WithBot
import SendingSystem.Client.FreshRequest
import SendingSystem.Lib.TopRow

/-!
# The last successful send

`MessageDao.getLastSuccessful` after a run of `SendData` calls, each by any view
model on the one database. The query takes the newest row to be the one whose
`sendingTime` is greatest. That is a text, the local time to the second, and
texts compare by their bytes. Messages are recorded in the order of the calls, so
the row of the latest successful call is the last of the successes; whether its
time is the greatest is up to the clock and the formatter: two calls in one
second have the same text, and a change to winter time turns the text back.

## Main definitions

* `SendCall`, `runSends`: A call, and the database after several.
* `recordedSuccess`, `latestSuccess`: The success a call, or a run, recorded last.
* `successes`, `timeKey`, `GetsLastSuccessful`: The query.
* `prefill`: What the activity makes of the answer.
* `SteadyClock`: The seconds never decrease from call to call.

## Theorems

* `sendData_messages`: A call adds at most one message.
* `latestSuccess_eq`: The latest success of a run is the last one stored.
* `le_getLast_successes`: It has the greatest id.
* `prefill_recorded`: What the fields are filled with for the message of a call.
* `getsLastSuccessful_iff`: When the query answers the latest success.
-/

namespace SendingSystem

namespace Client

open Utf16 Connector

variable {P : Platform}

/-- A call of `SendData` by a view model in any state. -/
structure SendCall (P : Platform) where
  connector : Connector P
  isSending : Bool
  env : SendEnv P
  cfg : Config P

/-- The database after the call. -/
def SendCall.run (c : SendCall P) (db : Database) : Database :=
  (ViewModel.sendData c.env ⟨c.connector, c.isSending, db⟩ c.cfg).2.db

/-- The database after the calls. -/
def runSends : Database → List (SendCall P) → Database
  | db, [] => db
  | db, c :: cs => runSends (c.run db) cs

/-- `WHERE messageStatusId = 1`. -/
def isSuccess (r : Int × Message) : Bool := r.2.messageStatusId = 1

/-- The messages with status `SUCCESS`, in id order. -/
def successes (db : Database) : List (Int × Message) := (messages db).filter isSuccess

/-- What `ORDER BY sendingTime` compares: the bytes of the text, `NULL` below
    every text. -/
def timeKey (r : Int × Message) : WithBot (List Nat) :=
  match r.2.sendingTime with
  | none => ⊥
  | some s => ((utf8 s).map UInt8.toNat : List Nat)

/-- An answer `getLastSuccessful` may give. -/
def GetsLastSuccessful (db : Database) (answer : Option (Int × Message)) : Prop :=
  TopRow timeKey (successes db) answer

/-- `setLastSuccessfulConnection`: the address, the port and the TLS flag the fields
    are filled with, if any. -/
def prefill (db : Database) (last : Option (Int × Message)) :
    Option (Option JString × Int × Bool) :=
  last.bind (fun r => (Db.get? (S := clientSchema) db .connection r.2.connectionId).map
    (fun (c : Connection) => (c.ip, c.port, c.isSSLEncrypted)))

/-- The message a call recorded, if it is a success. -/
def recordedSuccess (db : Database) (c : SendCall P) : Option (Int × Message) :=
  ((messages (c.run db)).drop (messages db).length).find? isSuccess

/-- The message of the latest call of a run that recorded a success. -/
def latestSuccess : Database → List (SendCall P) → Option (Int × Message)
  | _, [] => none
  | db, c :: cs => (latestSuccess (c.run db) cs).or (recordedSuccess db c)

/-- The times of the calls are those of a clock whose seconds never decrease, as
    `format` writes them. -/
def SteadyClock (format : Int → JString) (cs : List (SendCall P)) : Prop :=
  ∃ seconds : List Int, seconds.Pairwise (· ≤ ·) ∧
    cs.map (fun c => c.env.sendingTime) = seconds.map format

/-- A call adds at most one message. -/
theorem sendData_messages (env : SendEnv P) (vm : ViewModel P) (cfg : Config P) :
    messages (vm.sendData env cfg).2.db = messages vm.db ∨
      ∃ r, messages (vm.sendData env cfg).2.db = messages vm.db ++ [r] := by
  unfold ViewModel.sendData
  by_cases hsending : vm.getIsSending = true
  · rw [if_pos hsending]
    exact Or.inl rfl
  · rw [if_neg hsending]
    cases validate env cfg with
    | error e => exact Or.inl rfl
    | ok serverPort =>
        have hensure := messages_ensureConnection env vm.db cfg serverPort
        simp only
        generalize ensureConnection env vm.db cfg serverPort = result at hensure ⊢
        rcases result with ⟨_ | ⟨_ | conn⟩, db⟩
        · exact Or.inl hensure
        · exact Or.inl hensure
        -- The `finally` block inserts the one message, unless that throws.
        · simp only at hensure ⊢
          split
          · exact Or.inl hensure
          · next hinsert =>
              split at hinsert
              · simp only [reduceCtorEq] at hinsert
              · rcases messages_insertMessage hinsert with ⟨id, hrows⟩
                rw [hensure] at hrows
                exact Or.inr ⟨_, hrows⟩

/-- The success a call records is the one it adds to those stored. -/
theorem successes_run (db : Database) (c : SendCall P) :
    successes (c.run db) = successes db ++ (recordedSuccess db c).toList := by
  -- A call adds one message at most, so its successes are that one or none.
  rcases sendData_messages c.env ⟨c.connector, c.isSending, db⟩ c.cfg with h | ⟨r, h⟩
  · have hrun : messages (c.run db) = messages db := h
    rw [successes, recordedSuccess, hrun, List.drop_length, List.find?_nil, Option.toList_none,
      List.append_nil, successes]
  · have hrun : messages (c.run db) = messages db ++ [r] := h
    rw [successes, recordedSuccess, hrun, List.drop_left, List.filter_append, successes]
    by_cases hr : isSuccess r = true
    · rw [List.filter_cons_of_pos hr, List.find?_cons_of_pos hr]
      rfl
    · rw [List.filter_cons_of_neg hr, List.find?_cons_of_neg hr]
      rfl

/-- Along a run successes are only added, and the last one added is that of the
    latest call that recorded one. -/
theorem successes_runSends : ∀ (cs : List (SendCall P)) (db : Database),
    ∃ added, successes (runSends db cs) = successes db ++ added ∧
      added.getLast? = latestSuccess db cs := by
  intro cs
  induction cs with
  | nil =>
      intro db
      exact ⟨[], by rw [runSends, List.append_nil], rfl⟩
  | cons c cs ih =>
      intro db
      rcases ih (c.run db) with ⟨added, hadded, hlast⟩
      refine ⟨(recordedSuccess db c).toList ++ added, ?_, ?_⟩
      · rw [runSends, hadded, successes_run, List.append_assoc]
      -- A success of a later call hides this one's.
      · rw [List.getLast?_append, hlast, latestSuccess]
        cases recordedSuccess db c <;> rfl

/-- The latest success of a run is the last one stored, the one with the greatest
    id. -/
theorem latestSuccess_eq (cs : List (SendCall P)) :
    latestSuccess createdDatabase cs = (successes (runSends createdDatabase cs)).getLast? := by
  rcases successes_runSends cs createdDatabase with ⟨added, hadded, hlast⟩
  have hempty : successes createdDatabase = [] := by rfl
  rw [hadded, hempty, List.nil_append, hlast]

/-- The last success has the greatest id. -/
theorem le_getLast_successes {db : Database} {r : Int × Message}
    (h : (successes db).getLast? = some r) : ∀ r' ∈ successes db, r'.1 ≤ r.1 := by
  have hasc : (successes db).Pairwise (fun r r' => r.1 < r'.1) :=
    (Db.rows_ascending (S := clientSchema) db .message).filter _
  rcases List.getLast?_eq_some_iff.mp h with ⟨older, hsplit⟩
  rw [hsplit] at hasc ⊢
  intro r' hr'
  rcases List.mem_append.mp hr' with hold | hlast
  · exact Int.le_of_lt ((List.pairwise_append.mp hasc).2.2 r' hold r (List.mem_singleton.mpr rfl))
  · rw [List.mem_singleton.mp hlast]

section Prefill

variable {env : SendEnv P} {db db' : Database} {cfg : Config P} {serverPort : Int}

/-- The row a call sends to has the columns of its server. -/
theorem ensureConnection_row {conn : Int × Connection}
    (h : ensureConnection env db cfg serverPort = (.ok (some conn), db')) :
    conn ∈ connections db' ∧ conn.2
      = ⟨cfg.serverIp, serverPort, cfg.isSSLEncryptEnabled, ConnectionRole.server.index⟩ := by
  unfold ensureConnection at h
  simp only at h
  split at h
  · simp only [Prod.mk.injEq, reduceCtorEq, false_and] at h
  · split at h
    · next hfind =>
        -- The row was there before; otherwise it is looked for again after the insertion.
        simp only [Prod.mk.injEq, Except.ok.injEq, Option.some.injEq] at h
        rcases h with ⟨rfl, rfl⟩
        exact findConnection_mem hfind
    · split at h
      · simp only [Prod.mk.injEq, reduceCtorEq, false_and] at h
      · split at h
        · simp only [Prod.mk.injEq, reduceCtorEq, false_and] at h
        · simp only [Prod.mk.injEq, Except.ok.injEq] at h
          rcases h with ⟨hfind, rfl⟩
          exact findConnection_mem hfind

/-- Finding or inserting the server's row takes no connection away. -/
theorem connections_ensureConnection (env : SendEnv P) (db : Database) (cfg : Config P)
    (serverPort : Int) :
    connections db <+: connections (ensureConnection env db cfg serverPort).2 := by
  rcases ensureConnection_db env db cfg serverPort with h | h
  · rw [h]
  · rcases connections_insertConnection h with ⟨id, hrows⟩
    exact ⟨_, hrows.symm⟩

/-- The connections a call leaves are those it has when it sends. -/
theorem connections_sendData {vm : ViewModel P} (hsending : vm.getIsSending = false)
    (hvalid : validate env cfg = .ok serverPort) :
    connections (vm.sendData env cfg).2.db
      = connections (ensureConnection env vm.db cfg serverPort).2 := by
  unfold ViewModel.sendData
  simp only [hsending, Bool.false_eq_true, if_false, hvalid]
  generalize ensureConnection env vm.db cfg serverPort = result
  -- The message is inserted behind the connection, into another table.
  rcases result with ⟨_ | ⟨_ | conn⟩, db⟩
  · rfl
  · rfl
  · simp only
    split
    · rfl
    · next hinsert =>
        split at hinsert
        · simp only [reduceCtorEq] at hinsert
        · exact connections_insertMessage hinsert

/-- A call takes no connection away. -/
theorem connections_prefix_sendData (env : SendEnv P) (vm : ViewModel P) (cfg : Config P) :
    connections vm.db <+: connections (vm.sendData env cfg).2.db := by
  by_cases hsending : vm.getIsSending = true
  · rw [ViewModel.sendData, if_pos hsending]
  · rw [Bool.not_eq_true] at hsending
    cases hvalid : validate env cfg with
    | error e => rw [sendData_rejected hsending hvalid]
    | ok serverPort =>
        rw [connections_sendData hsending hvalid]
        exact connections_ensureConnection env vm.db cfg serverPort

/-- A message that a call adds belongs to the row of its server. -/
theorem sendData_connection {vm : ViewModel P} {r : Int × Message}
    (h : messages (vm.sendData env cfg).2.db = messages vm.db ++ [r]) :
    ∃ serverPort, validate env cfg = .ok serverPort ∧ (r.2.connectionId,
      (⟨cfg.serverIp, serverPort, cfg.isSSLEncryptEnabled, ConnectionRole.server.index⟩ :
        Connection)) ∈ connections (vm.sendData env cfg).2.db := by
  rcases sendData_recorded h with ⟨serverPort, conn, hsending, hvalid, hensure, hmessage⟩
  rcases ensureConnection_row (Prod.ext hensure rfl) with ⟨hmem, hrow⟩
  refine ⟨serverPort, hvalid, ?_⟩
  -- Whatever `sendData` gave, the message keeps the connection it was made for.
  have hid : r.2.connectionId = conn.1 := by
    rw [hmessage]
    cases ((configured vm.connector cfg serverPort).sendData env.network).1 <;> rfl
  rw [connections_sendData hsending hvalid, hid, ← hrow]
  exact hmem

theorem connections_prefix_runSends : ∀ (cs : List (SendCall P)) (db : Database),
    connections db <+: connections (runSends db cs) := by
  intro cs
  induction cs with
  | nil =>
      intro db
      exact List.prefix_rfl
  | cons c cs ih =>
      intro db
      have hcall := connections_prefix_sendData c.env ⟨c.connector, c.isSending, db⟩ c.cfg
      exact hcall.trans (ih (c.run db))

/-- When the answer is the message a call recorded, the fields are filled with the
    server of that call, whatever calls came after it. -/
theorem prefill_recorded {c : SendCall P} {r : Int × Message}
    (h : recordedSuccess db c = some r) (cs : List (SendCall P)) :
    ∃ serverPort, validate c.env c.cfg = .ok serverPort ∧
      prefill (runSends (c.run db) cs) (some r)
        = some (c.cfg.serverIp, serverPort, c.cfg.isSSLEncryptEnabled) := by
  rcases sendData_messages c.env ⟨c.connector, c.isSending, db⟩ c.cfg with hsame | ⟨r', hadd⟩
  · have hrun : messages (c.run db) = messages db := hsame
    rw [recordedSuccess, hrun, List.drop_length, List.find?_nil] at h
    simp only [reduceCtorEq] at h
  · have hrun : messages (c.run db) = messages db ++ [r'] := hadd
    rw [recordedSuccess, hrun, List.drop_left] at h
    rw [List.mem_singleton.mp (List.mem_of_find?_eq_some h)]
    rcases sendData_connection hadd with ⟨serverPort, hvalid, hmem⟩
    refine ⟨serverPort, hvalid, ?_⟩
    -- The row is still there after the later calls.
    have hkept := (connections_prefix_runSends cs (c.run db)).subset hmem
    rw [prefill, Option.bind_some, Db.get?_eq_some.mpr hkept]
    rfl

end Prefill

/-- After any run of `SendData` calls, every answer `getLastSuccessful` may give is
    the message of the latest call recorded with status `SUCCESS`, and null if there
    is none, exactly when the time text of that message is above the time text of
    every other successful one. -/
theorem getsLastSuccessful_iff (cs : List (SendCall P)) :
    (∀ answer, GetsLastSuccessful (runSends createdDatabase cs) answer →
      answer = latestSuccess createdDatabase cs) ↔
    ∀ latest, latestSuccess createdDatabase cs = some latest →
      ∀ r ∈ successes (runSends createdDatabase cs), r ≠ latest → timeKey r < timeKey latest := by
  rw [latestSuccess_eq]
  exact topRow_getLast_iff

/-- A text to a server, sent at a time. -/
def sendTo (server : JString) (time : JString) : SendCall pinningPlatform where
  connector := .new
  isSending := false
  env := { plainEnv with sendingTime := time }
  cfg := { plainText with serverIp := some server }

/-- The row of such a send on a new database, the first to its server. -/
def sentRow (id : Int) (time : JString) : Int × Message :=
  (id, ⟨id, 1, 1, 1, some [], some time, some (lit "hi")⟩)

/-- Two successful sends within one second, to different servers: the query may
    answer the first, however times are written. -/
theorem getsLastSuccessful_sameSecond :
    ¬ ∃ format : Int → JString, ∀ cs : List (SendCall pinningPlatform), SteadyClock format cs →
      ∀ answer, GetsLastSuccessful (runSends createdDatabase cs) answer →
        answer = latestSuccess createdDatabase cs := by
  rintro ⟨format, h⟩
  have hanswer := h [sendTo (lit "10.0.0.1") (format 0), sendTo (lit "10.0.0.2") (format 0)]
    ⟨[0, 0], by simp only [List.pairwise_cons, List.mem_singleton, forall_eq, List.not_mem_nil,
      false_implies, implies_true, List.Pairwise.nil, and_self, le_refl], rfl⟩
  have hrows : successes (runSends createdDatabase [sendTo (lit "10.0.0.1") (format 0),
      sendTo (lit "10.0.0.2") (format 0)]) = [sentRow 1 (format 0), sentRow 2 (format 0)] := by
    rfl
  have hfirst := hanswer (some (sentRow 1 (format 0))) (by
    rw [GetsLastSuccessful, hrows]
    refine ⟨List.mem_cons_self, fun r hr => ?_⟩
    -- The two rows have one time.
    simp only [List.mem_cons, List.not_mem_nil, or_false] at hr
    rcases hr with rfl | rfl
    · exact le_refl _
    · exact le_refl _)
  rw [latestSuccess_eq, hrows] at hfirst
  have hid : (1 : Int) = 2 := congrArg Prod.fst (Option.some.inj hfirst)
  omega

end Client

end SendingSystem
