import SendingSystem.Server.Repository

/-!
# The store over whole runs

Runs of `database_open` and repository calls on one database file, from the
empty file on. A repository call needs a handle, and handles come from a
`database_open` that succeeded; from then on every table and the peer index
exist, so soundness of the store is the whole schema. Each call either fails and
leaves the file as it was or evolves it, which carries the invariant along the
run and keeps every id that was ever used below the ids handed out later.

## Main definitions

* `Call`: The calls that may change the file, with arbitrary arguments.
* `Store`: The file, and whether a handle to it was given out.
* `Store.step`, `Store.run`: One call, and a sequence of calls.
* `Integrity`: Every reference column names a row.
* `PeersDistinct`: No two connections agree on the indexed columns.

## Theorems

* `call_evolves`: A call evolves the file, and changes nothing when it fails.
* `storeInv_step`: One step keeps the invariant.
* `Store.run_preserves`: What every step keeps, a run keeps.
* `run_evolves`: A run evolves the file and keeps the invariant.
* `store_run_integrity`: Integrity, distinct peers, fresh ids and atomicity after
  every step of every run.
-/

namespace SendingSystem

namespace Server

open CString

/-- The calls that may change the file. -/
inductive Call where
  | databaseOpen (fault : OpenFault)
  | messageTypeInsert (fault : StmtFault) (name : Option CStr)
  | messageTypeUpdate (fault : StmtFault) (id : Int) (name : Option CStr)
  | messageTypeDelete (fault : StmtFault) (id : Int)
  | messageStatusInsert (fault : StmtFault) (name : Option CStr)
  | messageStatusUpdate (fault : StmtFault) (id : Int) (name : Option CStr)
  | messageStatusDelete (fault : StmtFault) (id : Int)
  | messageDirectionInsert (fault : StmtFault) (name : Option CStr)
  | messageDirectionUpdate (fault : StmtFault) (id : Int) (name : Option CStr)
  | messageDirectionDelete (fault : StmtFault) (id : Int)
  | connectionRoleInsert (fault : StmtFault) (name : Option CStr)
  | connectionRoleUpdate (fault : StmtFault) (id : Int) (name : Option CStr)
  | connectionRoleDelete (fault : StmtFault) (id : Int)
  | connectionInsert (fault : StmtFault) (ip : Option CStr) (port ssl roleId : Int)
  | connectionGetOrCreate (find insert : StmtFault) (ip : Option CStr) (port ssl roleId : Int)
  | connectionUpdate (fault : StmtFault) (id : Int) (ip : Option CStr) (port ssl roleId : Int)
  | connectionDelete (fault : StmtFault) (id : Int)
  | messageInsert (fault : StmtFault) (connectionId statusId typeId directionId : Int)
      (response sendingTime request : Option CStr)
  | messageUpdate (fault : StmtFault) (id connectionId statusId typeId directionId : Int)
      (response sendingTime request : Option CStr)
  | messageDelete (fault : StmtFault) (id : Int)
  | namedConnectionInsert (fault : StmtFault) (name : Option CStr) (connectionId : Int)
  | namedConnectionUpdate (fault : StmtFault) (id : Int) (name : Option CStr) (connectionId : Int)
  | namedConnectionDelete (fault : StmtFault) (id : Int)

/-- Carry out a call. The id `connection_get_or_create` returns is its `ret`. -/
def Call.exec (db : Database) : Call → Ret
  | .databaseOpen fault =>
    let r := Server.databaseOpen fault db
    ⟨r.1, none, r.2⟩
  | .messageTypeInsert f name => Server.messageTypeInsert f db name
  | .messageTypeUpdate f id name => Server.messageTypeUpdate f db id name
  | .messageTypeDelete f id => Server.messageTypeDelete f db id
  | .messageStatusInsert f name => Server.messageStatusInsert f db name
  | .messageStatusUpdate f id name => Server.messageStatusUpdate f db id name
  | .messageStatusDelete f id => Server.messageStatusDelete f db id
  | .messageDirectionInsert f name => Server.messageDirectionInsert f db name
  | .messageDirectionUpdate f id name => Server.messageDirectionUpdate f db id name
  | .messageDirectionDelete f id => Server.messageDirectionDelete f db id
  | .connectionRoleInsert f name => Server.connectionRoleInsert f db name
  | .connectionRoleUpdate f id name => Server.connectionRoleUpdate f db id name
  | .connectionRoleDelete f id => Server.connectionRoleDelete f db id
  | .connectionInsert f ip port ssl roleId => Server.connectionInsert f db ip port ssl roleId
  | .connectionGetOrCreate find insert ip port ssl roleId =>
    let r := Server.connectionGetOrCreate find insert db ip port ssl roleId
    ⟨r.1, none, r.2⟩
  | .connectionUpdate f id ip port ssl roleId =>
    Server.connectionUpdate f db id ip port ssl roleId
  | .connectionDelete f id => Server.connectionDelete f db id
  | .messageInsert f connectionId statusId typeId directionId response sendingTime request =>
    Server.messageInsert f db connectionId statusId typeId directionId response sendingTime request
  | .messageUpdate f id connectionId statusId typeId directionId response sendingTime request =>
    Server.messageUpdate f db id connectionId statusId typeId directionId response sendingTime
      request
  | .messageDelete f id => Server.messageDelete f db id
  | .namedConnectionInsert f name connectionId =>
    Server.namedConnectionInsert f db name connectionId
  | .namedConnectionUpdate f id name connectionId =>
    Server.namedConnectionUpdate f db id name connectionId
  | .namedConnectionDelete f id => Server.namedConnectionDelete f db id

/-- The call opens the file. -/
def Call.opens : Call → Bool
  | .databaseOpen _ => true
  | _ => false

/-- The table an `*_insert` call adds to. -/
def Call.insertsInto : Call → Option Tab
  | .messageTypeInsert .. => some .messageType
  | .messageStatusInsert .. => some .messageStatus
  | .messageDirectionInsert .. => some .messageDirection
  | .connectionRoleInsert .. => some .connectionRole
  | .connectionInsert .. => some .connection
  | .messageInsert .. => some .message
  | .namedConnectionInsert .. => some .namedConnection
  | _ => none

/-- The call is `connection_get_or_create`. -/
def Call.getsOrCreates : Call → Bool
  | .connectionGetOrCreate .. => true
  | _ => false

/-- The file, and whether `database_open` has given out a handle. -/
structure Store where
  db : Database
  handle : Bool

/-- The empty file. -/
def Store.initial : Store := ⟨Db.empty, false⟩

/-- One call. A repository call before the first successful open cannot be made. -/
def Store.step (s : Store) (c : Call) : Option (Store × Ret) :=
  let r := c.exec s.db
  -- A handle given out stays usable when a later open fails.
  if c.opens then some (⟨r.db, s.handle || r.ret = 0⟩, r)
  else if s.handle then some (⟨r.db, true⟩, r)
  else none

/-- A sequence of calls. -/
def Store.run : Store → List Call → Option Store
  | s, [] => some s
  | s, c :: cs =>
    match s.step c with
    | none => none
    | some (s', _) => s'.run cs

/-- An id is in use in a table. -/
def Used (db : Database) (t : Tab) (id : Int) : Prop :=
  ∃ row, (id, row) ∈ Db.rows (S := serverSchema) db t

/-- The rows of `Message`, in id order. -/
def messages (db : Database) : List (Int × MessageRow) := Db.rows (S := serverSchema) db .message

/-- The rows of `NamedConnection`, in id order. -/
def namedConnections (db : Database) : List (Int × NamedConnectionRow) :=
  Db.rows (S := serverSchema) db .namedConnection

/-- Every reference column names an existing row. -/
structure Integrity (db : Database) : Prop where
  messageConnection : ∀ m ∈ messages db, Used db .connection m.2.connectionId
  messageStatus : ∀ m ∈ messages db, Used db .messageStatus m.2.messageStatusId
  messageType : ∀ m ∈ messages db, Used db .messageType m.2.messageTypeId
  messageDirection : ∀ m ∈ messages db, Used db .messageDirection m.2.directionId
  connectionRole : ∀ c ∈ connections db, Used db .connectionRole c.2.roleId
  namedConnection : ∀ n ∈ namedConnections db, Used db .connection n.2.connectionId

/-- No two connections agree on `(roleId, IFNULL(ip, ''), port, isSSLEncrypted)`. -/
def PeersDistinct (db : Database) : Prop :=
  ∀ c ∈ connections db, ∀ c' ∈ connections db, c.2.roleId = c'.2.roleId →
    c.2.ip.getD (.lit "") = c'.2.ip.getD (.lit "") → c.2.port = c'.2.port →
    c.2.isSslEncrypted = c'.2.isSslEncrypted → c = c'

/-- The invariant of a run: the file is sound; once there is a handle every table
    and the peer index exist, and before that there is no connection. -/
structure StoreInv (s : Store) : Prop where
  sound : Sound s.db
  ready : s.handle = true → (∀ t, (s.db.tab t).isSome) ∧ s.db.unique .connection = true
  untouched : s.handle = false → connections s.db = []

/-- What a call comes to: opening the file, one of the three shapes on a table,
    or `connection_get_or_create`. -/
inductive CallShape (db : Database) (c : Call) : Prop where
  | opens (fault : OpenFault) (h : c = .databaseOpen fault)
  | inserts (f : StmtFault) (t : Tab) (row : Row t) (h : c.exec db = insertRow f db t row)
      (ht : c.insertsInto = some t)
  | updates (f : StmtFault) (t : Tab) (id : Int) (row : Row t)
      (h : c.exec db = updateRow f db t id row) (ht : c.insertsInto = none)
  | deletes (f : StmtFault) (t : Tab) (id : Int) (h : c.exec db = deleteRow f db t id)
      (ht : c.insertsInto = none)
  | getsOrCreates (find insert : StmtFault) (ip : Option CStr) (port ssl roleId : Int)
      (h : c = .connectionGetOrCreate find insert ip port ssl roleId)

theorem callShape (db : Database) (c : Call) : CallShape db c := by
  -- Each function of the repositories is one of the four statements, or gets or creates.
  cases c with
  | databaseOpen fault => exact .opens fault rfl
  | messageTypeInsert f name => exact .inserts f .messageType ⟨bindText f 1 name⟩ rfl rfl
  | messageTypeUpdate f id name => exact .updates f .messageType id ⟨bindText f 1 name⟩ rfl rfl
  | messageTypeDelete f id => exact .deletes f .messageType id rfl rfl
  | messageStatusInsert f name => exact .inserts f .messageStatus ⟨bindText f 1 name⟩ rfl rfl
  | messageStatusUpdate f id name => exact .updates f .messageStatus id ⟨bindText f 1 name⟩ rfl rfl
  | messageStatusDelete f id => exact .deletes f .messageStatus id rfl rfl
  | messageDirectionInsert f name => exact .inserts f .messageDirection ⟨bindText f 1 name⟩ rfl rfl
  | messageDirectionUpdate f id name =>
      exact .updates f .messageDirection id ⟨bindText f 1 name⟩ rfl rfl
  | messageDirectionDelete f id => exact .deletes f .messageDirection id rfl rfl
  | connectionRoleInsert f name => exact .inserts f .connectionRole ⟨bindText f 1 name⟩ rfl rfl
  | connectionRoleUpdate f id name =>
      exact .updates f .connectionRole id ⟨bindText f 1 name⟩ rfl rfl
  | connectionRoleDelete f id => exact .deletes f .connectionRole id rfl rfl
  | connectionInsert f ip port ssl roleId =>
      exact .inserts f .connection ⟨dbBindTextOrNull f 1 ip, port, ssl, bindInt roleId⟩ rfl rfl
  | connectionGetOrCreate find insert ip port ssl roleId =>
      exact .getsOrCreates find insert ip port ssl roleId rfl
  | connectionUpdate f id ip port ssl roleId =>
      exact .updates f .connection id ⟨dbBindTextOrNull f 1 ip, port, ssl, bindInt roleId⟩ rfl rfl
  | connectionDelete f id => exact .deletes f .connection id rfl rfl
  | messageInsert f connectionId statusId typeId directionId response sendingTime request =>
      exact .inserts f .message
        ⟨connectionId, statusId, typeId, directionId, dbBindTextOrNull f 5 response,
          dbBindTextOrNull f 6 sendingTime, dbBindTextOrNull f 7 request⟩ rfl rfl
  | messageUpdate f id connectionId statusId typeId directionId response sendingTime request =>
      exact .updates f .message id
        ⟨connectionId, statusId, typeId, directionId, dbBindTextOrNull f 5 response,
          dbBindTextOrNull f 6 sendingTime, dbBindTextOrNull f 7 request⟩ rfl rfl
  | messageDelete f id => exact .deletes f .message id rfl rfl
  | namedConnectionInsert f name connectionId =>
      exact .inserts f .namedConnection ⟨dbBindTextOrNull f 1 name, connectionId⟩ rfl rfl
  | namedConnectionUpdate f id name connectionId =>
      exact .updates f .namedConnection id ⟨dbBindTextOrNull f 1 name, connectionId⟩ rfl rfl
  | namedConnectionDelete f id => exact .deletes f .namedConnection id rfl rfl

/-- Every call evolves the file. -/
theorem call_evolves (db : Database) (c : Call) : Evolves db (c.exec db).db := by
  -- One case for each shape, the calls of a shape differing in table and columns only.
  cases callShape db c with
  | opens fault h =>
      subst h
      exact evolves_databaseOpen fault db
  | inserts f t row h _ =>
      rw [h]
      rcases insertRow_cases f db t row with hfail | ⟨db', id, hok, hins⟩
      · rw [hfail]
        exact Evolves.refl db
      · rw [hok]
        exact evolves_insert hins
  | updates f t id row h _ =>
      rw [h]
      rcases updateRow_cases f db t id row with hfail | ⟨db', hok, hupd⟩
      · rw [hfail]
        exact Evolves.refl db
      · rw [hok]
        exact evolves_update hupd
  | deletes f t id h _ =>
      rw [h]
      rcases deleteRow_cases f db t id with hfail | ⟨db', hok, hdel⟩
      · rw [hfail]
        exact Evolves.refl db
      · rw [hok]
        exact evolves_delete hdel
  | getsOrCreates find insert ip port ssl roleId h =>
      subst h
      rcases connectionGetOrCreate_cases find insert db ip port ssl roleId with
        h | ⟨r, _, h, _⟩ | ⟨db', id, h, hins⟩
      · simp only [Call.exec, h]
        exact Evolves.refl db
      · simp only [Call.exec, h]
        exact Evolves.refl db
      · simp only [Call.exec, h]
        exact evolves_insert hins

/-- A repository call that returned `-1` left the file alone. -/
theorem call_failed {db : Database} {c : Call} (hopens : c.opens = false)
    (hret : (c.exec db).ret = -1) : (c.exec db).db = db := by
  cases callShape db c with
  | opens fault h =>
      subst h
      simp only [Call.opens, Bool.true_eq_false] at hopens
  | inserts f t row h _ =>
      rw [h] at hret ⊢
      rcases insertRow_cases f db t row with hfail | ⟨db', id, hok, _⟩
      · rw [hfail]
      · simp only [hok, reduceCtorEq] at hret
  | updates f t id row h _ =>
      rw [h] at hret ⊢
      rcases updateRow_cases f db t id row with hfail | ⟨db', hok, _⟩
      · rw [hfail]
      · simp only [hok, reduceCtorEq] at hret
  | deletes f t id h _ =>
      rw [h] at hret ⊢
      rcases deleteRow_cases f db t id with hfail | ⟨db', hok, _⟩
      · rw [hfail]
      · simp only [hok, reduceCtorEq] at hret
  | getsOrCreates find insert ip port ssl roleId h =>
      subst h
      rcases connectionGetOrCreate_cases find insert db ip port ssl roleId with
        h | ⟨r, _, h, _⟩ | ⟨db', id, h, hins⟩
      · simp only [Call.exec, h]
      · simp only [Call.exec, h]
      -- An id that was created is at least 1.
      · have hpos := (insert_fresh hins).2.1
        simp only [Call.exec, h] at hret
        omega

/-- The id a successful insert returns: above every id used so far, and in use
    from then on. -/
theorem call_insert_fresh {db : Database} {c : Call} {t : Tab} (ht : c.insertsInto = some t)
    (hret : (c.exec db).ret = 0) :
    ∃ id, (c.exec db).outId = some id ∧ id = Db.seq (S := serverSchema) db t + 1 ∧ 1 ≤ id ∧
      Used (c.exec db).db t id := by
  cases callShape db c with
  | opens fault h =>
      subst h
      simp only [Call.insertsInto, reduceCtorEq] at ht
  | inserts f u row h hu =>
      rw [hu, Option.some.injEq] at ht
      subst ht
      rw [h] at hret ⊢
      -- The id is handed out only if the row is in.
      rcases insertRow_cases f db u row with hfail | ⟨db', id, hok, hins⟩
      · simp only [hfail, reduceCtorEq] at hret
      · rcases insert_fresh hins with ⟨hid, hpos, hmem⟩
        rw [hok]
        exact ⟨id, rfl, hid, hpos, row, hmem⟩
  | updates f u id row h hu => simp only [hu, reduceCtorEq] at ht
  | deletes f u id h hu => simp only [hu, reduceCtorEq] at ht
  | getsOrCreates find insert ip port ssl roleId h =>
      subst h
      simp only [Call.insertsInto, reduceCtorEq] at ht

/-- The id `connection_get_or_create` returns: in use afterwards, and above every
    id used so far when the file changed. -/
theorem call_getOrCreate_fresh {db : Database} {c : Call} (hc : c.getsOrCreates = true)
    (hret : (c.exec db).ret ≠ -1) :
    1 ≤ (c.exec db).ret ∧ Used (c.exec db).db .connection (c.exec db).ret ∧
      ((c.exec db).db ≠ db →
        (c.exec db).ret = Db.seq (S := serverSchema) db .connection + 1) := by
  cases c with
  | connectionGetOrCreate find insert ip port ssl roleId =>
      -- A row that is found leaves the database as it was; one that is made has the next
      -- id.
      rcases connectionGetOrCreate_cases find insert db ip port ssl roleId with
        h | ⟨r, hmem, h, hpos, _⟩ | ⟨db', id, h, hins⟩
      · simp only [Call.exec, h, ne_eq, not_true_eq_false] at hret
      · simp only [Call.exec, h]
        exact ⟨hpos, ⟨r.2, hmem⟩, fun hne => absurd rfl hne⟩
      · rcases insert_fresh hins with ⟨hid, hpos, hmem⟩
        simp only [Call.exec, h]
        exact ⟨hpos, ⟨_, hmem⟩, fun _ => hid⟩
  | _ => simp only [Call.getsOrCreates, Bool.false_eq_true] at hc

/-- What a step does. -/
theorem storeStep_eq_some {s s' : Store} {c : Call} {r : Ret} (h : s.step c = some (s', r)) :
    r = c.exec s.db ∧ s'.db = r.db ∧
      ((c.opens = true ∧ s'.handle = (s.handle || r.ret = 0)) ∨
        (c.opens = false ∧ s.handle = true ∧ s'.handle = true)) := by
  unfold Store.step at h
  by_cases hopens : c.opens = true
  · simp only [hopens, if_true, Option.some.injEq, Prod.mk.injEq] at h
    rcases h with ⟨rfl, rfl⟩
    exact ⟨rfl, rfl, Or.inl ⟨hopens, rfl⟩⟩
  · rw [Bool.not_eq_true] at hopens
    -- Without a handle the store takes no call but the one that opens it.
    by_cases hhandle : s.handle = true
    · simp only [hopens, hhandle, Bool.false_eq_true, if_false, if_true, Option.some.injEq,
        Prod.mk.injEq] at h
      rcases h with ⟨rfl, rfl⟩
      exact ⟨rfl, rfl, Or.inr ⟨hopens, hhandle, rfl⟩⟩
    · simp only [hopens, hhandle, Bool.false_eq_true, if_false, reduceCtorEq] at h

theorem step_evolves {s s' : Store} {c : Call} {r : Ret} (h : s.step c = some (s', r)) :
    Evolves s.db s'.db := by
  rcases storeStep_eq_some h with ⟨rfl, hdb, _⟩
  rw [hdb]
  exact call_evolves s.db c

/-- A step keeps the invariant. -/
theorem storeInv_step {s s' : Store} {c : Call} {r : Ret} (hinv : StoreInv s)
    (h : s.step c = some (s', r)) : StoreInv s' := by
  -- Soundness evolves; what is left is the handle, by how the step got it.
  have hev := step_evolves h
  refine ⟨hev.sound hinv.sound, fun hhandle => ?_, fun hhandle => ?_⟩
  all_goals rcases storeStep_eq_some h with ⟨hr, hdb, ⟨hopens, hh⟩ | ⟨_, hh, hh'⟩⟩
  · rw [hh, Bool.or_eq_true, decide_eq_true_eq] at hhandle
    rcases hhandle with hhandle | hret
    · rcases hinv.ready hhandle with ⟨htab, hunique⟩
      exact ⟨fun t => hev.tab t (htab t), hev.unique _ hunique⟩
    -- The first handle: the whole script was applied.
    · cases c with
      | databaseOpen fault =>
          rw [hdb, hr]
          rw [hr] at hret
          simp only [Call.exec] at hret ⊢
          exact databaseOpen_ready (Prod.ext hret rfl)
      | _ => simp only [Call.opens, Bool.false_eq_true] at hopens
  · rcases hinv.ready hh with ⟨htab, hunique⟩
    exact ⟨fun t => hev.tab t (htab t), hev.unique _ hunique⟩
  · rw [hh, Bool.or_eq_false_iff] at hhandle
    cases c with
    | databaseOpen fault =>
        rw [hdb, hr]
        -- An open that failed has seeded reference tables at most.
        have hrows := rows_databaseOpen fault s.db (fun st hst => (createDatabase_fills st hst).1)
        exact hrows.trans (hinv.untouched hhandle.1)
    | _ => simp only [Call.opens, Bool.false_eq_true] at hopens
  · rw [hh'] at hhandle
    exact absurd hhandle.symm Bool.false_ne_true

/-- What each of the calls keeps, a run of them keeps. -/
theorem Store.run_preserves {P : Store → Prop} {Q : Call → Prop}
    (hstep : ∀ {s s' : Store} {c : Call} {r : Ret}, s.step c = some (s', r) → Q c → P s → P s') :
    ∀ (cs : List Call) {s s' : Store}, s.run cs = some s' → (∀ c ∈ cs, Q c) → P s → P s' := by
  intro cs
  -- Over the calls, from whatever state the run is in.
  induction cs with
  | nil =>
      intro s s' hrun _ hs
      rw [Store.run, Option.some.injEq] at hrun
      exact hrun ▸ hs
  | cons c cs ih =>
      intro s s' hrun hcs hs
      rw [Store.run] at hrun
      rcases hcall : s.step c with _ | ⟨s₁, r⟩
      · simp only [hcall, reduceCtorEq] at hrun
      · simp only [hcall] at hrun
        have hs₁ := hstep hcall (hcs c List.mem_cons_self) hs
        exact ih hrun (fun c' hc' => hcs c' (List.mem_cons_of_mem c hc')) hs₁

/-- Along a run the file evolves and the invariant is kept. -/
theorem run_evolves (cs : List Call) (s s' : Store) (h : s.run cs = some s') :
    Evolves s.db s'.db ∧ (StoreInv s → StoreInv s') := by
  refine Store.run_preserves (P := fun s' => Evolves s.db s'.db ∧ (StoreInv s → StoreInv s'))
    (Q := fun _ => True) (fun hcall _ hs => ?_) cs h (fun _ _ => trivial)
    ⟨Evolves.refl _, fun hinv => hinv⟩
  exact ⟨hs.1.trans (step_evolves hcall), fun hinv => storeInv_step (hs.2 hinv) hcall⟩

theorem storeInv_initial : StoreInv Store.initial where
  sound := sound_empty
  ready := by
    intro h
    exact absurd h Bool.false_ne_true
  untouched := fun _ => rfl

/-- The reference columns of a sound file name rows. -/
theorem Integrity.of_sound {db : Database} (h : Sound db) : Integrity db := by
  -- Each reference column is one of the foreign keys of its table.
  have hpres : ∀ (t : Tab) (id : Int), Db.present (S := serverSchema) db (t, id) = true →
      Used db t id := fun t id hp => Db.present_iff.mp hp
  refine ⟨fun m hm => ?_, fun m hm => ?_, fun m hm => ?_, fun m hm => ?_, fun c hc => ?_,
    fun n hn => ?_⟩
  · exact hpres _ _ (h.refs .message m hm (.connection, m.2.connectionId) (by
      simp only [serverSchema, refs, List.mem_cons, true_or]))
  · exact hpres _ _ (h.refs .message m hm (.messageStatus, m.2.messageStatusId) (by
      simp only [serverSchema, refs, List.mem_cons, true_or, or_true]))
  · exact hpres _ _ (h.refs .message m hm (.messageType, m.2.messageTypeId) (by
      simp only [serverSchema, refs, List.mem_cons, true_or, or_true]))
  · exact hpres _ _ (h.refs .message m hm (.messageDirection, m.2.directionId) (by
      simp only [serverSchema, refs, List.mem_cons, true_or, or_true]))
  · exact hpres _ _ (h.refs .connection c hc (.connectionRole, c.2.roleId) (by
      simp only [serverSchema, refs, List.mem_cons, true_or]))
  · exact hpres _ _ (h.refs .namedConnection n hn (.connection, n.2.connectionId) (by
      simp only [serverSchema, refs, List.mem_cons, true_or]))

/-- The peer index of a sound file keeps the peers distinct. -/
theorem PeersDistinct.of_sound {db : Database} (h : Sound db)
    (hunique : db.unique .connection = true) : PeersDistinct db := by
  intro c hc c' hc' hrole hip hport hssl
  refine Db.row_unique hc hc' (h.unique .connection hunique c hc c' hc' c.2.peerKey rfl ?_)
  have hkey : c'.2.peerKey = c.2.peerKey := by
    rw [ConnectionRow.peerKey, ConnectionRow.peerKey, hrole, hip, hport, hssl]
  exact congrArg some hkey

/-- In every run from the empty file, after every step: every reference column
    names an existing row; no two connections agree on the indexed columns; an id
    that an insert or a creating `connection_get_or_create` returned is at least 1
    and was in use in no earlier state; and a repository call that returned `-1`
    left every table as it was. `s₀` is any state the run went through before the
    step, the one right before it included. -/
theorem store_run_integrity (before between : List Call) (c : Call) (s₀ s s' : Store) (r : Ret)
    (hbefore : Store.initial.run before = some s₀) (hbetween : s₀.run between = some s)
    (hstep : s.step c = some (s', r)) :
    Integrity s'.db ∧ PeersDistinct s'.db ∧
    (∀ t, c.insertsInto = some t → r.ret = 0 →
      ∃ id, r.outId = some id ∧ 1 ≤ id ∧ Used s'.db t id ∧ ¬ Used s₀.db t id) ∧
    (c.getsOrCreates = true → r.ret ≠ -1 →
      1 ≤ r.ret ∧ Used s'.db .connection r.ret ∧
        (s'.db ≠ s.db → ¬ Used s₀.db .connection r.ret)) ∧
    (c.opens = false → r.ret = -1 → s'.db = s.db) := by
  rcases run_evolves before _ _ hbefore with ⟨_, hinv₀⟩
  rcases run_evolves between _ _ hbetween with ⟨hev, hinv⟩
  have hinv' := storeInv_step (hinv (hinv₀ storeInv_initial)) hstep
  rcases storeStep_eq_some hstep with ⟨rfl, hdb, hhandle⟩
  -- Ids used earlier stay below the largest id used.
  have hold : ∀ t id, Used s₀.db t id → id ≤ Db.seq (S := serverSchema) s.db t := by
    rintro t id ⟨row, hrow⟩
    exact Int.le_trans (Db.id_bounds hrow).2 (hev.seq t)
  refine ⟨Integrity.of_sound hinv'.sound, ?_, fun t ht hret => ?_, fun hc hret => ?_,
    fun hopens hret => ?_⟩
  · cases hh : s'.handle with
    -- Without the peer index there was no handle, so no connection either.
    | true => exact PeersDistinct.of_sound hinv'.sound (hinv'.ready hh).2
    | false =>
        intro c hc
        rw [hinv'.untouched hh] at hc
        exact absurd hc List.not_mem_nil
  · rcases call_insert_fresh ht hret with ⟨id, hout, hid, hpos, hused⟩
    refine ⟨id, hout, hpos, by rw [hdb]; exact hused, fun husedOld => ?_⟩
    have hle := hold t id husedOld
    omega
  · rcases call_getOrCreate_fresh hc hret with ⟨hpos, hused, hfresh⟩
    refine ⟨hpos, by rw [hdb]; exact hused, fun hne husedOld => ?_⟩
    rw [hdb] at hne
    have hle := hold _ _ husedOld
    have hid := hfresh hne
    omega
  · rw [hdb]
    exact call_failed hopens hret

/-- A second connection of one peer is refused, and the file stays sound. -/
theorem store_run_integrity_second_peer :
    ∃ s₀ s s' r,
      Store.initial.run [.databaseOpen .none] = some s₀ ∧
      s₀.run [.connectionInsert .none none 5000 1 2] = some s ∧
      s.step (.connectionInsert .none (some (.lit "")) 5000 1 2) = some (s', r) ∧
      r.ret = -1 ∧ s'.db = s.db ∧ Integrity s'.db ∧ PeersDistinct s'.db := by
  refine ⟨_, _, _, _, rfl, rfl, rfl, rfl, ?_⟩
  have h := store_run_integrity [.databaseOpen .none] [.connectionInsert .none none 5000 1 2]
    (.connectionInsert .none (some (.lit "")) 5000 1 2) _ _ _ _ rfl rfl rfl
  exact ⟨h.2.2.2.2 rfl rfl, h.1, h.2.1⟩

end Server

end SendingSystem
