import SendingSystem.Lib.Steps
import SendingSystem.Client.History

/-!
# Seeding while sends are going on

`onCreate` posts the seeding to an executor of its own and returns, so on the first
start the statements of `SendData` run beside the four steps of the seeding: the
statuses, the types, the directions, and last the roles. When the process dies the
executor dies with it, and since the file exists Room never calls `onCreate` again.

What a send refers to first is the role of its server, and that is seeded last. So
a connection is in the database only once everything else is, and a message, which
needs its connection, always finds what it refers to. A connection finds its role
exactly if all four steps are done.

## Main definitions

* `seedSteps`: The steps of the seeding.
* `Call`, `Call.statement`: A call of `SendData`, and its next statement.
* `App`, `Event`, `App.step`: The process with its database, and what can happen.
* `FindsIds`: An insertion of `SendData` finds the ids it refers to.
* `SeededFirst`: A connection is inserted after the seeding.
* `Consistent`: The invariant.

## Theorems

* `seed_eq`: The steps are those of `seed`.
* `statement_alone`: A call left alone computes `ensureConnection`.
* `insertAll_spec`: What a step of the seeding does.
* `statement_cases`: What a statement of a call can do.
* `consistent_step`: Every event keeps the invariant.
* `unseeded_forever`: After a death no step of the seeding is made up for.
* `findsIds_iff`: When an insertion finds its ids.
* `seeding_safe_iff`: Which runs no insertion fails in.
-/

namespace SendingSystem

namespace Client

open Utf16 Connector

variable {P : Platform}

/-- What the seeding inserts, one transaction after the other. -/
def seedSteps : List ((t : Tab) × List (Row t)) := [
  ⟨.messageStatus, [reference "SUCCESS", reference "FAILED"]⟩,
  ⟨.messageType, [reference "RAW_DATA", reference "FILE"]⟩,
  ⟨.messageDirection, [reference "OUTBOUND", reference "INBOUND"]⟩,
  ⟨.connectionRole,
    [reference "SERVER", reference "CLIENT", reference "MASTER", reference "SLAVE"]⟩]

/-- Where a call is: before its look-up, before its insertion, before its second
    look-up, before its message is recorded, or past its statements. -/
inductive CallAt where
  | find
  | insert
  | findAgain
  | record (conn : Int × Connection)
  | ended

/-- A call of `SendData` that passed the checks, with what comes of its request. -/
structure Call (P : Platform) where
  env : SendEnv P
  cfg : Config P
  serverPort : Int
  sent : Except Failure (Option JString)
  pos : CallAt

/-- The look-up of a call. -/
def Call.lookUp (c : Call P) (db : Database) : Option (Int × Connection) :=
  findConnection db c.cfg.serverIp c.serverPort c.cfg.isSSLEncryptEnabled
    ConnectionRole.server.index

/-- The message a call records. -/
def Call.message (c : Call P) (conn : Int × Connection) : Message :=
  finished (newMessage c.env c.cfg conn.1) c.sent

/-- The next statement of a call. An insertion that throws ends it. -/
def Call.statement (c : Call P) (db : Database) : Option (Call P × Database) :=
  match c.pos with
  | .find =>
    match c.lookUp db with
    | some conn => some ({ c with pos := .record conn }, db)
    | none => some ({ c with pos := .insert }, db)
  | .insert =>
    match insertConnection db (c.cfg.endpoint c.serverPort) with
    | some db => some ({ c with pos := .findAgain }, db)
    | none => some ({ c with pos := .ended }, db)
  | .findAgain =>
    match c.lookUp db with
    | some conn => some ({ c with pos := .record conn }, db)
    | none => some ({ c with pos := .ended }, db)
  | .record conn =>
    match insertMessage db (c.message conn) with
    | some db => some ({ c with pos := .ended }, db)
    | none => some ({ c with pos := .ended }, db)
  | .ended => none

/-- The row a call is about to insert. -/
def Call.insertion (c : Call P) : Option ((t : Tab) × Row t) :=
  match c.pos with
  | .insert => some ⟨.connection, c.cfg.endpoint c.serverPort⟩
  | .record conn => some ⟨.message, c.message conn⟩
  | _ => none

/-- The process and its database: how many steps of the seeding were made, whether
    the executor is there to make more, and the calls. -/
structure App (P : Platform) where
  db : Database
  steps : Nat
  seeding : Bool
  calls : List (Call P)

/-- When Room has created the tables and `onCreate` has posted the seeding. -/
def App.created : App P := ⟨roomCreate, 0, true, []⟩

/-- What can happen. A death comes with the restart after it. -/
inductive Event (P : Platform) where
  | seed
  | call (env : SendEnv P) (cfg : Config P) (serverPort : Int)
      (sent : Except Failure (Option JString))
  | statement (i : Nat)
  | death

/-- What happens. -/
def App.step (s : App P) : Event P → Option (App P)
  | .seed =>
    if s.seeding then
      match seedSteps[s.steps]? with
      | none => none
      | some st =>
        match insertAll s.db st.1 st.2 with
        | some db => some { s with db := db, steps := s.steps + 1 }
        -- An exception ends the task that the executor was given.
        | none => some { s with seeding := false }
    else none
  | .call env cfg serverPort sent =>
    some { s with calls := s.calls ++ [⟨env, cfg, serverPort, sent, .find⟩] }
  | .statement i =>
    match s.calls[i]? with
    | none => none
    | some c =>
      match c.statement s.db with
      | none => none
      | some (c', db) => some { s with db := db, calls := s.calls.set i c' }
  | .death => some { s with seeding := false, calls := [] }

/-- The row an event is about to insert for `SendData`. -/
def App.insertion (s : App P) : Event P → Option ((t : Tab) × Row t)
  | .statement i => s.calls[i]?.bind Call.insertion
  | _ => none

/-- An insertion of `SendData` finds every row it refers to. -/
def FindsIds (s : App P) (e : Event P) : Prop :=
  ∀ row, s.insertion e = some row → ∀ p ∈ refs row.1 row.2, Present s.db p.1 p.2

/-- A connection is inserted only when all steps of the seeding are done. -/
def SeededFirst (s : App P) (e : Event P) : Prop :=
  ∀ row, s.insertion e = some ⟨.connection, row⟩ → s.steps = seedSteps.length

instance (s : App P) (e : Event P) : Decidable (FindsIds s e) :=
  match h : s.insertion e with
  | none => isTrue fun _ hrow => by rw [h] at hrow; cases hrow
  | some row =>
    decidable_of_iff (∀ p ∈ refs row.1 row.2, Present s.db p.1 p.2)
      ⟨fun hall _ hrow => by rw [h] at hrow; cases hrow; exact hall, fun hfinds => hfinds row h⟩

/-- The steps are those of the callback. -/
theorem seed_eq (db : Database) :
    seed db = seedSteps.foldlM (fun db st => insertAll db st.1 st.2) db := by
  simp only [seed, seedSteps, List.foldlM_cons, List.foldlM_nil, bind_pure]

/-- Some statements of a call, with no other in between. -/
def Call.statements (c : Call P) (db : Database) : Nat → Option (Call P × Database)
  | 0 => some (c, db)
  | k + 1 => (c.statement db).bind (fun r => Call.statements r.1 r.2 k)

/-- A call left alone computes `ensureConnection`: it comes to recording its message
    with the row that gives, or ends without one. -/
theorem statement_alone {c : Call P} (hpos : c.pos = .find) (hfind : c.env.find = false)
    (hinsert : c.env.insert = false) (hagain : c.env.findAgain = false) (db : Database) :
    ∃ k pos db' result, c.statements db k = some ({ c with pos := pos }, db') ∧
      ensureConnection c.env db c.cfg c.serverPort = (result, db') ∧
      ((∃ conn, pos = .record conn ∧ result = .ok (some conn)) ∨
        (pos = .ended ∧ ∀ conn, result ≠ .ok (some conn))) := by
  have hensure : ensureConnection c.env db c.cfg c.serverPort = (c.lookUp db).elim
      ((insertConnection db (c.cfg.endpoint c.serverPort)).elim (.error .thrown, db)
        fun db => (.ok (c.lookUp db), db))
      fun conn => (.ok (some conn), db) := by
    have hlook : ∀ db, findConnection db c.cfg.serverIp c.serverPort c.cfg.isSSLEncryptEnabled
        ConnectionRole.server.index = c.lookUp db := fun _ => rfl
    have hrow : ⟨c.cfg.serverIp, c.serverPort, c.cfg.isSSLEncryptEnabled,
        ConnectionRole.server.index⟩ = c.cfg.endpoint c.serverPort := rfl
    simp only [ensureConnection, hfind, hinsert, hagain, Bool.false_eq_true, if_false, hlook, hrow]
    cases c.lookUp db with
    | some conn => rfl
    | none => cases insertConnection db (c.cfg.endpoint c.serverPort) <;> rfl
  rw [hensure]
  -- Found at once; or inserted, and then found or, for a null address, not found; or not inserted.
  cases hfound : c.lookUp db with
  | some conn =>
      refine ⟨1, .record conn, db, _, ?_, rfl, Or.inl ⟨conn, rfl, rfl⟩⟩
      simp only [Call.statements, Call.statement, hpos, hfound, Option.bind_some]
  | none =>
      cases hins : insertConnection db (c.cfg.endpoint c.serverPort) with
      | none =>
          refine ⟨2, .ended, db, _, ?_, rfl, Or.inr ⟨rfl, fun conn h => ?_⟩⟩
          · simp only [Call.statements, Call.statement, hpos, hfound, hins, Option.bind_some]
          · simp only [reduceCtorEq] at h
      | some db' =>
          have hlook : Call.lookUp { c with pos := .findAgain } db' = c.lookUp db' := rfl
          cases hsecond : c.lookUp db' with
          | some conn =>
              refine ⟨3, .record conn, db', _, ?_, rfl, Or.inl ⟨conn, rfl, by simp only [hsecond]⟩⟩
              simp only [Call.statements, Call.statement, hpos, hfound, hins, hlook, hsecond,
                Option.bind_some]
          | none =>
              refine ⟨3, .ended, db', _, ?_, rfl, Or.inr ⟨rfl, fun conn h => ?_⟩⟩
              · simp only [Call.statements, Call.statement, hpos, hfound, hins, hlook, hsecond,
                  Option.bind_some]
              · simp only [hsecond, Except.ok.injEq, reduceCtorEq] at h

/-- What inserting rows that refer to nothing does: it succeeds, uses up as many
    ids, and leaves the other tables alone. -/
theorem insertAll_spec {t : Tab} (hrefs : ∀ row : Row t, refs t row = []) :
    ∀ (rows : List (Row t)) (db : Database), (db.tab t).isSome →
      Db.seq (S := clientSchema) db t + rows.length < maxRowid →
      ∃ db', insertAll db t rows = some db' ∧ (∀ u, u ≠ t → db'.tab u = db.tab u) ∧
        (db'.tab t).isSome ∧ (∀ id, Present db t id → Present db' t id) ∧
        ∀ k, k < rows.length → Present db' t (Db.seq (S := clientSchema) db t + 1 + k) := by
  intro rows
  induction rows with
  | nil =>
      intro db htab _
      exact ⟨db, rfl, fun _ _ => rfl, htab, fun _ => id, fun k hk => absurd hk (Nat.not_lt_zero k)⟩
  | cons row rows ih =>
      intro db htab hids
      rw [List.length_cons] at hids
      have hins : ∃ db₁ id, Db.insert (S := clientSchema) db t row = some (db₁, id) := by
        refine insert_succeeds htab (by omega) rfl (clash_eq_false db _ row) fun p hp => ?_
        have hnone : p ∈ refs t row := hp
        rw [hrefs row] at hnone
        exact absurd hnone List.not_mem_nil
      rcases hins with ⟨db₁, id, hins⟩
      -- The first row has the next id, and the others those after it.
      have hid := (insert_fresh hins).1
      have hseq := seq_insert hins
      have hrow : Present db₁ t id := Db.present_iff.mpr ⟨row, (insert_fresh hins).2.2⟩
      rcases ih db₁ ((evolves_insert hins).tab t htab) (by omega) with
        ⟨db', hrest, htabs, hsome, hkept, hnew⟩
      refine ⟨db', ?_, fun u hu => (htabs u hu).trans (tab_insert_of_ne hins hu), hsome,
        fun i hi => hkept i (present_insert hins hi), fun k hk => ?_⟩
      · rw [insertAll, List.foldlM_cons, hins]
        exact hrest
      -- The first row stays where it is; for the others count from the table it left.
      · cases k with
        | zero =>
            have hfirst := hkept id hrow
            rw [hid] at hfirst
            have heq : Db.seq (S := clientSchema) db t + 1 + ((0 : Nat) : Int)
                = Db.seq (S := clientSchema) db t + 1 := by
              omega
            rw [heq]
            exact hfirst
        | succ k =>
            have hlater := hnew k (by rw [List.length_cons] at hk; omega)
            rw [hseq] at hlater
            have heq : Db.seq (S := clientSchema) db t + 1 + 1 + (k : Int)
                = Db.seq (S := clientSchema) db t + 1 + ((k + 1 : Nat) : Int) := by
              omega
            rw [← heq]
            exact hlater

/-- The rows a step of the seeding inserts. -/
def SeedStep.Done (db : Database) (st : (t : Tab) × List (Row t)) : Prop :=
  ∀ k, k < st.2.length → Present db st.1 (1 + k)

/-- What holds of the process and its database: the steps that were made are in the
    database, the tables of the others are as they were created, a connection is
    there only when all were made, and a call records with a connection that exists. -/
structure Consistent (s : App P) : Prop where
  tab : ∀ t, (s.db.tab t).isSome
  bound : s.steps ≤ seedSteps.length
  done : ∀ k st, seedSteps[k]? = some st → k < s.steps → SeedStep.Done s.db st
  empty : ∀ k st, seedSteps[k]? = some st → s.steps ≤ k → s.db.tab st.1 = some Table.empty
  connected : connections s.db ≠ [] → s.steps = seedSteps.length
  found : ∀ c ∈ s.calls, ∀ conn, c.pos = .record conn → conn ∈ connections s.db

/-- The steps fill tables of their own, which refer to nothing. -/
theorem seedSteps_spec {k : Nat} {st : (t : Tab) × List (Row t)} (h : seedSteps[k]? = some st) :
    st.1 ≠ .connection ∧ st.1 ≠ .message ∧ (∀ row : Row st.1, refs st.1 row = []) ∧
      (st.2.length : Int) < maxRowid ∧
      ∀ k' st', seedSteps[k']? = some st' → st'.1 = st.1 → k' = k := by
  have hmem := List.mem_of_getElem? h
  have hnodup : (seedSteps.map Sigma.fst).Nodup := by decide
  refine ⟨?_, ?_, ?_, ?_, fun k' st' h' heq => ?_⟩
  · simp only [seedSteps, List.mem_cons, List.not_mem_nil, or_false] at hmem
    rcases hmem with rfl | rfl | rfl | rfl <;> decide
  · simp only [seedSteps, List.mem_cons, List.not_mem_nil, or_false] at hmem
    rcases hmem with rfl | rfl | rfl | rfl <;> decide
  · simp only [seedSteps, List.mem_cons, List.not_mem_nil, or_false] at hmem
    rcases hmem with rfl | rfl | rfl | rfl <;> exact fun _ => rfl
  · simp only [seedSteps, List.mem_cons, List.not_mem_nil, or_false] at hmem
    rcases hmem with rfl | rfl | rfl | rfl <;> decide
  -- No table is filled twice.
  · have hlt : k' < (seedSteps.map Sigma.fst).length := by
      rw [List.length_map]
      exact (List.getElem?_eq_some_iff.mp h').1
    refine (List.getElem?_inj hlt hnodup).mp ?_
    rw [List.getElem?_map, List.getElem?_map, h, h', Option.map_some, Option.map_some, heq]

theorem consistent_created : Consistent (App.created : App P) where
  tab := fun _ => rfl
  bound := Nat.zero_le _
  done := fun _ _ _ h => absurd h (Nat.not_lt_zero _)
  empty := fun _ _ _ _ => rfl
  connected := fun h => absurd rfl h
  found := fun _ hc => absurd hc List.not_mem_nil

/-- A step of the seeding is made, and made once. -/
theorem consistent_seed {s s' : App P} (h : Consistent s) (hstep : s.step .seed = some s') :
    Consistent s' := by
  simp only [App.step] at hstep
  split at hstep
  · cases hst : seedSteps[s.steps]? with
    | none => simp only [hst, reduceCtorEq] at hstep
    | some st =>
        rcases seedSteps_spec hst with ⟨hconn, _, hrefs, hlength, hinj⟩
        have htab := h.empty s.steps st hst (Nat.le_refl _)
        have hseq : Db.seq (S := clientSchema) s.db st.1 = 0 := Db.seq_of_tab htab
        rcases insertAll_spec hrefs st.2 s.db (h.tab st.1) (by omega) with
          ⟨db, hins, htabs, hsome, hkept, hnew⟩
        simp only [hst, hins, Option.some.injEq] at hstep
        subst hstep
        have hconns : connections db = connections s.db := by
          rw [connections, connections, Db.rows, Db.rows, htabs _ (fun heq => hconn heq.symm)]
        refine ⟨fun t => ?_, ?_, fun k st' hst' hk => ?_, fun k st' hst' hk => ?_, fun hne => ?_,
          fun c hc conn hpos => ?_⟩
        · by_cases ht : t = st.1
          · exact ht ▸ hsome
          · rw [htabs t ht]
            exact h.tab t
        · exact (List.getElem?_eq_some_iff.mp hst).1
        · by_cases heq : st'.1 = st.1
          -- The step just made.
          · have hk' := hinj k st' hst' heq
            subst hk'
            rw [hst, Option.some.injEq] at hst'
            subst hst'
            intro i hi
            have hi' := hnew i hi
            rw [hseq, Int.zero_add] at hi'
            exact hi'
          · have hlt : k < s.steps := by
              rcases Nat.lt_or_eq_of_le (Nat.le_of_lt_succ hk) with hlt | rfl
              · exact hlt
              · rw [hst, Option.some.injEq] at hst'
                exact absurd (congrArg Sigma.fst hst'.symm) heq
            intro i hi
            have hold := h.done k st' hst' hlt i hi
            simp only [Present, Db.present, htabs _ heq] at hold ⊢
            exact hold
        · have hne : st'.1 ≠ st.1 := by
            intro heq
            have hk' := hinj k st' hst' heq
            simp only at hk
            omega
          rw [htabs _ hne]
          exact h.empty k st' hst' (by simp only at hk; omega)
        -- There was no connection, since this step was still to be made.
        · rw [hconns] at hne
          have hall := h.connected hne
          have hlt := (List.getElem?_eq_some_iff.mp hst).1
          omega
        · rw [hconns]
          exact h.found c hc conn hpos
  · simp only [reduceCtorEq] at hstep

/-- The role of a server is there exactly when the last step was made. -/
theorem Consistent.role_iff {s : App P} (h : Consistent s) :
    Present s.db .connectionRole ConnectionRole.server.index ↔ s.steps = seedSteps.length := by
  have hst : seedSteps[3]? = some ⟨.connectionRole,
      [reference "SERVER", reference "CLIENT", reference "MASTER", reference "SLAVE"]⟩ := rfl
  have hlength : seedSteps.length = 4 := rfl
  constructor
  · intro hpresent
    by_contra hne
    have hbound := h.bound
    -- The roles are the last step, and their table is empty until then.
    have hempty := h.empty 3 _ hst (by omega)
    rw [Present, Db.present_of_tab hempty] at hpresent
    exact Bool.false_ne_true hpresent
  · intro hall
    exact h.done 3 _ hst (by omega) 0 (by decide)

/-- With all steps made a message finds its status, its type and its direction. -/
theorem Consistent.references {s : App P} (h : Consistent s) (hall : s.steps = seedSteps.length) :
    (∀ status : MessageStatus, Present s.db .messageStatus status.index) ∧
    (∀ type : SendingType, Present s.db .messageType type.index) ∧
    (∀ direction : MessageDirection, Present s.db .messageDirection direction.index) := by
  have hlength : seedSteps.length = 4 := rfl
  -- Each constant is the position of its row in the step.
  refine ⟨fun status => ?_, fun type => ?_, fun direction => ?_⟩
  · cases status with
    | success => exact h.done 0 _ rfl (by omega) 0 (by decide)
    | failed => exact h.done 0 _ rfl (by omega) 1 (by decide)
  · cases type with
    | rawData => exact h.done 1 _ rfl (by omega) 0 (by decide)
    | file => exact h.done 1 _ rfl (by omega) 1 (by decide)
  · cases direction with
    | outbound => exact h.done 2 _ rfl (by omega) 0 (by decide)
    | inbound => exact h.done 2 _ rfl (by omega) 1 (by decide)

/-- An insertion of `SendData` leaves the seeded tables alone. -/
theorem Consistent.insert {s : App P} (h : Consistent s) {t : Tab}
    (ht : t = .connection ∨ t = .message) {row : Row t} {db : Database} {id : Int}
    (hins : Db.insert (S := clientSchema) s.db t row = some (db, id)) :
    (∀ u, (db.tab u).isSome) ∧
    (∀ k st, seedSteps[k]? = some st → k < s.steps → SeedStep.Done db st) ∧
    (∀ k st, seedSteps[k]? = some st → s.steps ≤ k → db.tab st.1 = some Table.empty) := by
  refine ⟨fun u => (evolves_insert hins).tab u (h.tab u), fun k st hst hk i hi => ?_,
    fun k st hst hk => ?_⟩
  · exact present_insert hins (h.done k st hst hk i hi)
  · rcases seedSteps_spec hst with ⟨hconn, hmessage, _⟩
    -- The seeding fills other tables than a send does.
    have hne : st.1 ≠ t := by
      rcases ht with rfl | rfl
      · exact hconn
      · exact hmessage
    rw [tab_insert_of_ne hins hne]
    exact h.empty k st hst hk

/-- What a statement of a call leaves behind. -/
structure Stated (s : App P) (c : Call P) (db : Database) : Prop where
  tab : ∀ u, (db.tab u).isSome
  done : ∀ k st, seedSteps[k]? = some st → k < s.steps → SeedStep.Done db st
  empty : ∀ k st, seedSteps[k]? = some st → s.steps ≤ k → db.tab st.1 = some Table.empty
  connected : connections db ≠ [] → s.steps = seedSteps.length
  kept : ∀ r ∈ connections s.db, r ∈ connections db
  found : ∀ conn, c.pos = .record conn → conn ∈ connections db

/-- A statement that leaves the database as it is. -/
theorem Consistent.stated {s : App P} (h : Consistent s) {c : Call P}
    (hfound : ∀ conn, c.pos = .record conn → conn ∈ connections s.db) : Stated s c s.db :=
  ⟨h.tab, h.done, h.empty, h.connected, fun _ hr => hr, hfound⟩

/-- A look-up records what it finds. -/
theorem lookUp_found {c c' : Call P} {db db' : Database} {next : CallAt}
    (hnext : ∀ conn, next ≠ .record conn)
    (h : (match c.lookUp db with
      | some conn => some ({ c with pos := .record conn }, db)
      | none => some ({ c with pos := next }, db)) = some (c', db')) :
    db' = db ∧ ∀ conn, c'.pos = .record conn → conn ∈ connections db := by
  cases hfound : c.lookUp db with
  | some conn =>
      simp only [hfound, Option.some.injEq, Prod.mk.injEq] at h
      rcases h with ⟨rfl, rfl⟩
      refine ⟨rfl, fun conn' hconn => ?_⟩
      rw [CallAt.record.injEq] at hconn
      exact hconn ▸ (findConnection_mem hfound).1
  | none =>
      simp only [hfound, Option.some.injEq, Prod.mk.injEq] at h
      rcases h with ⟨rfl, rfl⟩
      exact ⟨rfl, fun conn hconn => absurd hconn (hnext conn)⟩

/-- What a statement of a call can do: leave the database as it is, insert the
    connection, or insert the message. -/
theorem statement_cases {c c' : Call P} {db db' : Database}
    (h : c.statement db = some (c', db')) :
    (db' = db ∧ ∀ conn, c'.pos = .record conn → conn ∈ connections db) ∨
    ((∀ conn, c'.pos ≠ .record conn) ∧
      (insertConnection db (c.cfg.endpoint c.serverPort) = some db' ∨
        ∃ conn, insertMessage db (c.message conn) = some db')) := by
  unfold Call.statement at h
  cases hpos : c.pos with
  | find =>
      simp only [hpos] at h
      exact Or.inl (lookUp_found (fun conn hconn => by cases hconn) h)
  | insert =>
      simp only [hpos] at h
      cases hins : insertConnection db (c.cfg.endpoint c.serverPort) with
      | none =>
          simp only [hins, Option.some.injEq, Prod.mk.injEq] at h
          rcases h with ⟨rfl, rfl⟩
          exact Or.inl ⟨rfl, fun conn hconn => by cases hconn⟩
      | some db₁ =>
          simp only [hins, Option.some.injEq, Prod.mk.injEq] at h
          rcases h with ⟨rfl, rfl⟩
          exact Or.inr ⟨nofun, Or.inl rfl⟩
  | findAgain =>
      simp only [hpos] at h
      exact Or.inl (lookUp_found (fun conn hconn => by cases hconn) h)
  | record conn =>
      simp only [hpos] at h
      cases hins : insertMessage db (c.message conn) with
      | none =>
          simp only [hins, Option.some.injEq, Prod.mk.injEq] at h
          rcases h with ⟨rfl, rfl⟩
          exact Or.inl ⟨rfl, fun conn hconn => by cases hconn⟩
      | some db₁ =>
          simp only [hins, Option.some.injEq, Prod.mk.injEq] at h
          rcases h with ⟨rfl, rfl⟩
          exact Or.inr ⟨nofun, Or.inr ⟨conn, hins⟩⟩
  | ended => simp only [hpos, reduceCtorEq] at h

/-- What a statement of a call does to what holds of the process. -/
theorem stated_statement {s : App P} (h : Consistent s) {c c' : Call P} {db : Database}
    (hstmt : c.statement s.db = some (c', db)) : Stated s c' db := by
  rcases statement_cases hstmt with ⟨rfl, hfound⟩ | ⟨hnone, hins | ⟨conn, hins⟩⟩
  · exact h.stated hfound
  · rcases insertConnection_eq_some hins with ⟨id, hrow⟩
    rcases h.insert (Or.inl rfl) hrow with ⟨htab, hdone, hempty⟩
    refine ⟨htab, hdone, hempty, fun _ => ?_, fun r hr => ?_,
      fun conn hconn => absurd hconn (hnone conn)⟩
    -- The insertion succeeded, so the role was there.
    · rw [← h.role_iff]
      rcases insert_eq_some hrow with ⟨T, T', _, _, rfl, _, _, hrefs⟩
      simp only [Db.refsHold, refs, List.all_cons, List.all_nil, Bool.and_true] at hrefs
      rw [Db.present_set_of_ne (by decide)] at hrefs
      exact hrefs
    · rcases connections_insertConnection hins with ⟨_, hrows⟩
      rw [hrows]
      exact List.mem_append_left _ hr
  · rcases insertMessage_eq_some hins with ⟨id, hrow⟩
    rcases h.insert (Or.inr rfl) hrow with ⟨htab, hdone, hempty⟩
    have hconns := connections_insertMessage hins
    refine ⟨htab, hdone, hempty, fun hne => h.connected (hconns ▸ hne), fun r hr => ?_,
      fun conn hconn => absurd hconn (hnone conn)⟩
    rw [hconns]
    exact hr

/-- A statement of one call among the others. -/
theorem consistent_statement {s s' : App P} {i : Nat} (h : Consistent s)
    (hstep : s.step (.statement i) = some s') : Consistent s' := by
  simp only [App.step] at hstep
  cases hcall : s.calls[i]? with
  | none => simp only [hcall, reduceCtorEq] at hstep
  | some c =>
      cases hstmt : c.statement s.db with
      | none => simp only [hcall, hstmt, reduceCtorEq] at hstep
      | some r =>
          rcases r with ⟨c', db⟩
          have hstated := stated_statement h hstmt
          simp only [hcall, hstmt, Option.some.injEq] at hstep
          subst hstep
          refine ⟨hstated.tab, h.bound, hstated.done, hstated.empty, hstated.connected,
            fun c₁ hc₁ conn hconn => ?_⟩
          -- The call that made the statement, or one that waited.
          rcases List.mem_or_eq_of_mem_set hc₁ with hc₁ | rfl
          · exact hstated.kept conn (h.found c₁ hc₁ conn hconn)
          · exact hstated.found conn hconn

/-- Every event keeps the invariant. -/
theorem consistent_step (s : App P) (e : Event P) (s' : App P) (h : Consistent s)
    (hstep : s.step e = some s') : Consistent s' := by
  -- A call that begins has found nothing yet, and a death leaves no calls.
  cases e with
  | seed => exact consistent_seed h hstep
  | call env cfg serverPort sent =>
      simp only [App.step, Option.some.injEq] at hstep
      subst hstep
      refine ⟨h.tab, h.bound, h.done, h.empty, h.connected, fun c hc conn hconn => ?_⟩
      rcases List.mem_append.mp hc with hc | hc
      · exact h.found c hc conn hconn
      · rw [List.mem_singleton.mp hc] at hconn
        simp only [reduceCtorEq] at hconn
  | statement i => exact consistent_statement h hstep
  | death =>
      simp only [App.step, Option.some.injEq] at hstep
      subst hstep
      exact ⟨h.tab, h.bound, h.done, h.empty, h.connected,
        fun c hc => absurd hc List.not_mem_nil⟩

/-- An insertion finds the ids it refers to exactly if, where it is of a connection,
    the seeding is done. -/
theorem findsIds_iff (s : App P) (e : Event P) (h : Consistent s) :
    FindsIds s e ↔ SeededFirst s e := by
  unfold FindsIds SeededFirst
  cases hrow : s.insertion e with
  | none => simp only [reduceCtorEq, false_implies, implies_true]
  | some row =>
      cases e with
      | seed | death => simp only [App.insertion, reduceCtorEq] at hrow
      | call env cfg serverPort sent => simp only [App.insertion, reduceCtorEq] at hrow
      | statement i =>
          simp only [App.insertion, Option.bind_eq_some_iff] at hrow
          rcases hrow with ⟨c, hcall, hrow⟩
          unfold Call.insertion at hrow
          cases hpos : c.pos with
          | insert =>
              simp only [hpos, Option.some.injEq] at hrow
              subst hrow
              constructor
              · intro hfinds row' _
                have hrole := hfinds _ rfl (.connectionRole, ConnectionRole.server.index)
                  (List.mem_singleton.mpr rfl)
                exact h.role_iff.mp hrole
              · intro hfirst row' hrow' p hp
                rw [Option.some.injEq] at hrow'
                subst hrow'
                rw [List.mem_singleton.mp hp]
                exact h.role_iff.mpr (hfirst _ rfl)
          | record conn =>
              simp only [hpos, Option.some.injEq] at hrow
              subst hrow
              -- The connection is there, so everything else is.
              have hconn := h.found c (List.mem_of_getElem? hcall) conn hpos
              have hall := h.connected (List.ne_nil_of_mem hconn)
              rcases h.references hall with ⟨hstatus, htype, hdirection⟩
              rcases finished_refs c.env c.cfg conn.1 c.sent with
                ⟨hid, ⟨status, hstatusId⟩, htypeId, hdirectionId⟩
              refine ⟨fun _ row' hrow' => ?_, fun _ row' hrow' p hp => ?_⟩
              · rw [Option.some.injEq, Sigma.mk.injEq] at hrow'
                simp only [reduceCtorEq, false_and] at hrow'
              · rw [Option.some.injEq] at hrow'
                subst hrow'
                simp only [refs, Call.message, hid, hstatusId, htypeId, hdirectionId,
                  List.mem_cons, List.not_mem_nil, or_false] at hp
                rcases hp with rfl | rfl | rfl | rfl
                · exact Db.present_iff.mpr ⟨conn.2, hconn⟩
                · exact hstatus status
                · exact htype c.cfg.sendingType
                · exact hdirection .outbound
          | find | findAgain | ended => simp only [hpos, reduceCtorEq] at hrow

/-- No insertion of a send fails on a foreign key, in any order of what can happen,
    deaths of the process included, exactly if every connection is inserted when all
    four steps of the seeding are done. -/
theorem seeding_safe_iff (events : List (Event P)) :
    Steps.Along App.step FindsIds (App.created : App P) events ↔
      Steps.Along App.step SeededFirst (App.created : App P) events :=
  Steps.along_congr Consistent findsIds_iff consistent_step events _ consistent_created

/-- A process that died before the seeding was done never makes up for it. -/
structure Unseeded (s : App P) : Prop where
  dead : s.seeding = false
  missing : s.steps ≠ seedSteps.length

theorem unseeded_step (s : App P) (e : Event P) (s' : App P) (h : Unseeded s)
    (hstep : s.step e = some s') : Unseeded s' := by
  -- Nobody is left to take a step of the seeding, and nothing else makes a role.
  cases e with
  | seed => simp only [App.step, h.dead, Bool.false_eq_true, if_false, reduceCtorEq] at hstep
  | call env cfg serverPort sent =>
      simp only [App.step, Option.some.injEq] at hstep
      exact hstep ▸ ⟨h.dead, h.missing⟩
  | statement i =>
      simp only [App.step] at hstep
      split at hstep
      · simp only [reduceCtorEq] at hstep
      · split at hstep
        · simp only [reduceCtorEq] at hstep
        · rw [Option.some.injEq] at hstep
          exact hstep ▸ ⟨h.dead, h.missing⟩
  | death =>
      simp only [App.step, Option.some.injEq] at hstep
      exact hstep ▸ ⟨rfl, h.missing⟩

/-- From then on no connection is ever inserted. -/
theorem unseeded_forever {s : App P} (hs : Consistent s) (h : Unseeded s)
    (events : List (Event P)) :
    Steps.Along App.step (fun s e => ∀ row, s.insertion e = some ⟨.connection, row⟩ →
      ¬ FindsIds s e) s events := by
  refine Steps.along_of_invariant (fun s => Consistent s ∧ Unseeded s) (fun s e hinv row hrow => ?_)
    (fun s e s' hinv hstep => ⟨consistent_step s e s' hinv.1 hstep,
      unseeded_step s e s' hinv.2 hstep⟩) events s ⟨hs, h⟩
  rw [findsIds_iff s e hinv.1]
  exact fun hfirst => hinv.2.missing (hfirst row hrow)

/-- A send that is faster than the seeding, and a send after the process died with
    half of the seeding done: neither can insert its connection. -/
theorem seeding_too_late :
    ¬ Steps.Along App.step FindsIds (App.created : App pinningPlatform)
        [.call plainEnv plainText 5000 (.ok none), .statement 0, .statement 0] ∧
      ¬ Steps.Along App.step FindsIds (App.created : App pinningPlatform)
        [.seed, .seed, .death, .call plainEnv plainText 5000 (.ok none), .statement 0,
          .statement 0] := by
  constructor
  · decide
  · decide

end Client

end SendingSystem
