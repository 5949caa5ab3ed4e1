import SendingSystem.Lib.Schedule
import SendingSystem.Server.GetOrCreate

/-!
# Concurrent first contact

Several worker threads handling requests of one peer, each inside
`connection_get_or_create`. A worker's `SELECT` and its `INSERT` are separate
statements on its own handle, with no transaction around them, so between the
two any other worker may take a step. The peer index turns the second insertion
of the peer into an error, and the worker that loses gets `-1`.

When the row is already there, no worker inserts. When it is not, two workers
that have both missed doom the run: only one insertion can succeed. What decides
is therefore who takes the first two steps.

## Main definitions

* `Worker`: Where a worker is in `connection_get_or_create`.
* `contactStep`: Its next statement.
* `Known`: The peer has a row.
* `Creatable`: The peer's row can be inserted.
* `Settled`: Workers are at their start or have the peer's id.
* `Doomed`: Some worker has lost, or is bound to.

## Theorems

* `contactStep_alone`: A worker left alone computes `connection_get_or_create`.
* `connectionFind_nonneg_iff`: When the `SELECT` gives an id.
* `insertPeer_isSome_iff`: When the insertion succeeds.
* `settled_step`, `doomed_step`: One step keeps either.
* `first_misses`, `second_doomed`, `second_settled`: The first two steps.
* `contact_agree_iff`: Which complete runs give every worker the same row.
-/

namespace SendingSystem

namespace Server

open CString Schedule

/-- The row `save_connection` asks for. -/
def incomingPeer (addr : CStr) : ConnectionRow :=
  ⟨some addr, connectionPort, sslEncrypt, bindInt incomingPeerRole.id⟩

/-- The row its `INSERT` binds: without the address when that cannot be bound. -/
def boundPeer (fault : StmtFault) (addr : CStr) : ConnectionRow :=
  ⟨dbBindTextOrNull fault 1 (some addr), connectionPort, sslEncrypt, bindInt incomingPeerRole.id⟩

/-- Where a worker is: before its `SELECT`, before its `INSERT`, or returned. -/
inductive Worker where
  | start
  | missed
  | done (id : Int)
  deriving DecidableEq

/-- The next statement of `connection_get_or_create`, called by
    `save_connection` with the peer's address. -/
def contactStep (addr : CStr) (db : Database) : Worker → Option (Database × Worker)
  | .start =>
    let id := connectionFind .none db (some addr) connectionPort sslEncrypt incomingPeerRole.id
    some (db, if 0 ≤ id then .done id else .missed)
  | .missed =>
    let r := connectionInsert .none db (some addr) connectionPort sslEncrypt incomingPeerRole.id
    some (r.db, .done (if r.ret ≠ 0 then -1 else r.outId.getD (-1)))
  | .done _ => none

/-- `n` workers about to look the peer up. -/
def contact (n : Nat) (db : Database) : Config n Database Worker := ⟨db, fun _ => .start⟩

/-- Every worker has returned. -/
def Finished {n : Nat} (c : Config n Database Worker) : Prop := ∀ w, ∃ id, c.workers w = .done id

/-- The peer has a row. -/
def Known (db : Database) (addr : CStr) : Prop := ∃ c ∈ connections db, c.2 = incomingPeer addr

/-- The peer's row can be inserted: its role exists, the ids have not run out,
    and no connection has its key. With an address that is not empty the last
    part says only that the peer has no row. -/
structure Creatable (db : Database) (addr : CStr) : Prop where
  role : Used db .connectionRole incomingPeerRole.id
  ids : Db.seq (S := serverSchema) db .connection < maxRowid
  free : ∀ c ∈ connections db, c.2.peerKey ≠ (incomingPeer addr).peerKey

/-- The `INSERT` of `connection_get_or_create`. -/
def insertPeer (db : Database) (addr : CStr) : Option (Database × Int) :=
  Db.insert (S := serverSchema) db .connection (incomingPeer addr)

/-- The same with the row that is bound. -/
def insertBound (fault : StmtFault) (db : Database) (addr : CStr) : Option (Database × Int) :=
  Db.insert (S := serverSchema) db .connection (boundPeer fault addr)

theorem boundPeer_of_bound {fault : StmtFault} (h : fault.bind 1 = false) (addr : CStr) :
    boundPeer fault addr = incomingPeer addr := by
  rw [boundPeer, dbBindTextOrNull_of_bound _ h, incomingPeer]

theorem insertBound_of_bound {fault : StmtFault} (h : fault.bind 1 = false) (db : Database)
    (addr : CStr) : insertBound fault db addr = insertPeer db addr := by
  rw [insertBound, boundPeer_of_bound h, insertPeer]

/-- A worker left alone computes `connection_get_or_create`. -/
theorem contactStep_alone (addr : CStr) (db : Database) :
    (∃ id, contactStep addr db .start = some (db, .done id) ∧
      connectionGetOrCreate .none .none db (some addr) connectionPort sslEncrypt
        incomingPeerRole.id = (id, db)) ∨
    (contactStep addr db .start = some (db, .missed) ∧
      ∃ db' id, contactStep addr db .missed = some (db', .done id) ∧
        connectionGetOrCreate .none .none db (some addr) connectionPort sslEncrypt
          incomingPeerRole.id = (id, db')) := by
  unfold connectionGetOrCreate
  rw [if_neg (by decide)]
  simp only
  generalize hid : connectionFind StmtFault.none db (some addr) connectionPort sslEncrypt
    incomingPeerRole.id = id
  have hstart : contactStep addr db .start = some (db, if 0 ≤ id then .done id else .missed) := by
    rw [← hid]
    rfl
  by_cases hfound : 0 ≤ id
  · left
    rw [if_pos hfound] at hstart
    exact ⟨id, hstart, if_pos hfound⟩
  · right
    rw [if_neg hfound] at hstart
    refine ⟨hstart, _, _, rfl, ?_⟩
    -- Only `-1` is negative among what the `SELECT` can leave.
    have hmiss : id = -1 := by
      rcases connectionFind_cases StmtFault.none db (some addr) connectionPort sslEncrypt
        incomingPeerRole.id with h | ⟨r, _, h, hpos, _⟩
      · rw [← hid, h]
      · omega
    rw [if_neg hfound, hmiss]
    split <;> rfl

/-- When the insertion of the peer succeeds. -/
theorem insertPeer_isSome_iff {db : Database} (hready : Ready db) (addr : CStr) :
    (∃ db' id, insertPeer db addr = some (db', id)) ↔ Creatable db addr := by
  refine (insertConnection_isSome_iff hready (incomingPeer addr)).trans ⟨?_, ?_⟩
  · rintro ⟨hrole, hids, hfree⟩
    exact ⟨hrole, hids, hfree⟩
  · rintro ⟨hrole, hids, hfree⟩
    exact ⟨hrole, hids, hfree⟩

/-- Inserting the peer adds its row and nothing else. -/
theorem connections_insertPeer {db db' : Database} {addr : CStr} {id : Int}
    (h : insertPeer db addr = some (db', id)) :
    connections db' = connections db ++ [(id, incomingPeer addr)] ∧ 1 ≤ id := by
  exact ⟨rows_insert h, (insert_fresh h).2.1⟩

/-- The same for the row that is bound. -/
theorem connections_insertBound {fault : StmtFault} {db db' : Database} {addr : CStr} {id : Int}
    (h : insertBound fault db addr = some (db', id)) :
    connections db' = connections db ++ [(id, boundPeer fault addr)] ∧ 1 ≤ id :=
  ⟨rows_insert h, (insert_fresh h).2.1⟩

theorem Ready.insertPeer {db db' : Database} {addr : CStr} {id : Int} (hready : Ready db)
    (h : insertPeer db addr = some (db', id)) : Ready db' := hready.evolves (evolves_insert h)

/-- The `SELECT` gives an id when it runs on the address and the peer has a row. -/
theorem connectionFind_nonneg_iff (fault : StmtFault) (db : Database) (addr : CStr) :
    0 ≤ connectionFind fault db (some addr) connectionPort sslEncrypt incomingPeerRole.id ↔
      fault.step = false ∧ fault.bind 1 = false ∧ Known db addr := by
  rw [connectionFind_found_iff]
  constructor
  · rintro ⟨hstep, hbind, _, hknown⟩
    exact ⟨hstep, hbind, hknown⟩
  · rintro ⟨hstep, hbind, hknown⟩
    exact ⟨hstep, hbind, Option.some_ne_none addr, hknown⟩

/-- With the peer's row there, every `SELECT` finds it. -/
theorem contactStep_start_known {db : Database} (hready : Ready db) {addr : CStr} {id : Int}
    (hrow : (id, incomingPeer addr) ∈ connections db) :
    contactStep addr db .start = some (db, .done id) := by
  have hfind : connectionFind .none db (some addr) connectionPort sslEncrypt incomingPeerRole.id
      = id := connectionFind_of_mem hready (Option.some_ne_none addr) hrow
  have hpos := (Db.id_bounds hrow).1
  simp only [contactStep, hfind]
  rw [if_pos (by simp only at hpos; omega)]

/-- Without it every `SELECT` misses. -/
theorem contactStep_start_unknown {db : Database} {addr : CStr} (hunknown : ¬ Known db addr) :
    contactStep addr db .start = some (db, .missed) := by
  simp only [contactStep]
  rw [if_neg (fun h => hunknown ((connectionFind_nonneg_iff .none db addr).mp h).2.2)]

/-- The `INSERT`, when the system does not fail it: it inserts what is bound. -/
theorem connectionInsert_eq {fault : StmtFault} (hprepare : fault.prepare = false)
    (hstep : fault.step = false) (db : Database) (addr : CStr) :
    connectionInsert fault db (some addr) connectionPort sslEncrypt incomingPeerRole.id
      = match insertBound fault db addr with
        | none => ⟨-1, none, db⟩
        | some (db', id) => ⟨0, some id, db'⟩ := by
  simp only [connectionInsert, insertRow, hprepare, hstep, Bool.false_eq_true, if_false]
  rfl

/-- What a worker that missed does next. -/
theorem contactStep_missed (addr : CStr) (db : Database) :
    (∃ db' id, insertPeer db addr = some (db', id) ∧
      contactStep addr db .missed = some (db', .done id)) ∨
    (insertPeer db addr = none ∧ contactStep addr db .missed = some (db, .done (-1))) := by
  have hret := connectionInsert_eq (by rfl : StmtFault.none.prepare = false) rfl db addr
  rw [insertBound_of_bound rfl] at hret
  -- The insertion is one statement: it makes the row or it fails.
  cases hins : insertPeer db addr with
  | none =>
      rw [hins] at hret
      refine Or.inr ⟨rfl, ?_⟩
      simp only [contactStep, hret]
      rfl
  | some r =>
      rw [hins] at hret
      refine Or.inl ⟨r.1, r.2, rfl, ?_⟩
      simp only [contactStep, hret]
      rfl

/-- Some connection has the peer's key. -/
def Taken (db : Database) (addr : CStr) : Prop :=
  ∃ r ∈ connections db, r.2.peerKey = (incomingPeer addr).peerKey

theorem insertPeer_of_taken {db : Database} (hready : Ready db) {addr : CStr}
    (htaken : Taken db addr) : insertPeer db addr = none :=
  insertConnection_of_taken hready htaken

/-- Every worker is at its start or has the id of the peer's row. -/
structure Settled {n : Nat} (addr : CStr) (id : Int) (c : Config n Database Worker) : Prop where
  ready : Ready c.shared
  row : (id, incomingPeer addr) ∈ connections c.shared
  workers : ∀ w, c.workers w = .start ∨ c.workers w = .done id

/-- One step of a settled run finds the row. -/
theorem settled_step {n : Nat} {addr : CStr} {id : Int} (c : Config n Database Worker) (i : Fin n)
    (c' : Config n Database Worker) (hs : Settled addr id c)
    (hstep : step (contactStep addr) c i = some c') : Settled addr id c' := by
  rcases step_eq_some hstep with ⟨t, hact, hworkers⟩
  -- A worker that has not looked yet finds the row; one that is done takes no step.
  rcases hs.workers i with hi | hi
  · rw [hi, contactStep_start_known hs.ready hs.row, Option.some.injEq, Prod.mk.injEq] at hact
    rcases hact with ⟨hdb, rfl⟩
    refine ⟨hdb ▸ hs.ready, hdb ▸ hs.row, fun w => ?_⟩
    rw [hworkers]
    by_cases hw : w = i
    · right
      rw [hw, Function.update_self]
    · rw [Function.update_of_ne hw]
      exact hs.workers w
  · rw [hi] at hact
    simp only [contactStep, reduceCtorEq] at hact

/-- Some worker has lost; or it has missed and the row is taken; or two workers
    have missed, of which one will take it. -/
structure Doomed {n : Nat} (addr : CStr) (c : Config n Database Worker) : Prop where
  ready : Ready c.shared
  lost : (∃ w, c.workers w = .done (-1)) ∨ (∃ w, c.workers w = .missed ∧ Taken c.shared addr) ∨
    (∃ v w, v ≠ w ∧ c.workers v = .missed ∧ c.workers w = .missed)

/-- What one step changes: the worker that took it, and only by inserting the
    peer the database. -/
theorem contact_step_cases {n : Nat} {addr : CStr} {c c' : Config n Database Worker} {i : Fin n}
    (hstep : step (contactStep addr) c i = some c') :
    (∃ t, c.workers i = .start ∧ c'.shared = c.shared ∧
      c'.workers = Function.update c.workers i t) ∨
    (∃ id, c.workers i = .missed ∧ insertPeer c.shared addr = some (c'.shared, id) ∧
      c'.workers = Function.update c.workers i (.done id)) ∨
    (c.workers i = .missed ∧ insertPeer c.shared addr = none ∧ c'.shared = c.shared ∧
      c'.workers = Function.update c.workers i (.done (-1))) := by
  rcases step_eq_some hstep with ⟨t, hact, hworkers⟩
  -- A look-up writes nothing, and an insertion adds its row or nothing.
  cases hi : c.workers i with
  | start =>
      left
      rw [hi] at hact
      simp only [contactStep, Option.some.injEq, Prod.mk.injEq] at hact
      exact ⟨t, rfl, hact.1.symm, hworkers⟩
  | missed =>
      right
      rw [hi] at hact
      rcases contactStep_missed addr c.shared with ⟨db', id, hins, h⟩ | ⟨hins, h⟩
      · rw [h, Option.some.injEq, Prod.mk.injEq] at hact
        rcases hact with ⟨rfl, rfl⟩
        exact Or.inl ⟨id, rfl, hins, hworkers⟩
      · rw [h, Option.some.injEq, Prod.mk.injEq] at hact
        rcases hact with ⟨hdb, rfl⟩
        exact Or.inr ⟨rfl, hins, hdb.symm, hworkers⟩
  | done id =>
      rw [hi] at hact
      simp only [contactStep, reduceCtorEq] at hact

/-- A doomed run stays doomed: a loss is final, a taken row stays taken, and the
    first of two workers that missed takes it from the other. -/
theorem doomed_step {n : Nat} {addr : CStr} (c : Config n Database Worker) (i : Fin n)
    (c' : Config n Database Worker) (hd : Doomed addr c)
    (hstep : step (contactStep addr) c i = some c') : Doomed addr c' := by
  rcases hd with ⟨hready, hlost⟩
  have hcases := contact_step_cases hstep
  have hready' : Ready c'.shared := by
    rcases hcases with ⟨_, _, hdb, _⟩ | ⟨_, _, hins, _⟩ | ⟨_, _, hdb, _⟩
    · exact hdb ▸ hready
    · exact hready.insertPeer hins
    · exact hdb ▸ hready
  have htaken' : Taken c.shared addr → Taken c'.shared addr := by
    rintro ⟨r, hr, hkey⟩
    rcases hcases with ⟨_, _, hdb, _⟩ | ⟨_, _, hins, _⟩ | ⟨_, _, hdb, _⟩
    · exact ⟨r, hdb ▸ hr, hkey⟩
    · refine ⟨r, ?_, hkey⟩
      rw [(connections_insertPeer hins).1]
      exact List.mem_append_left _ hr
    · exact ⟨r, hdb ▸ hr, hkey⟩
  -- A worker other than the one that stepped is where it was.
  have hother : ∀ w, w ≠ i → c'.workers w = c.workers w := by
    intro w hw
    rcases hcases with ⟨_, _, _, h⟩ | ⟨_, _, _, h⟩ | ⟨_, _, _, h⟩ <;>
      rw [h, Function.update_of_ne hw]
  -- What the stepping worker gets when it had missed.
  have hmissed : c.workers i = .missed →
      c'.workers i = .done (-1) ∨ (Taken c'.shared addr ∧ insertPeer c.shared addr ≠ none) := by
    intro hi
    rcases hcases with ⟨_, h, _⟩ | ⟨id, _, hins, _⟩ | ⟨_, _, _, h⟩
    · simp only [hi, reduceCtorEq] at h
    · refine Or.inr ⟨⟨(id, incomingPeer addr), ?_, rfl⟩, by rw [hins]; exact Option.some_ne_none _⟩
      rw [(connections_insertPeer hins).1]
      exact List.mem_append_right _ (List.mem_singleton.mpr rfl)
    · left
      rw [h, Function.update_self]
  refine ⟨hready', ?_⟩
  rcases hlost with ⟨w, hw⟩ | ⟨w, hw, htaken⟩ | ⟨v, w, hvw, hv, hw⟩
  -- A loss is final: a worker that returned takes no more steps.
  · left
    refine ⟨w, ?_⟩
    rw [hother w, hw]
    rintro rfl
    rcases hcases with ⟨_, h, _⟩ | ⟨_, h, _⟩ | ⟨h, _⟩ <;> simp only [hw, reduceCtorEq] at h
  -- The row is taken: the worker that missed loses as soon as it steps.
  · by_cases hi : w = i
    · subst hi
      rcases hmissed hw with h | ⟨_, hne⟩
      · exact Or.inl ⟨w, h⟩
      · exact absurd (insertPeer_of_taken hready htaken) hne
    · exact Or.inr (Or.inl ⟨w, by rw [hother w hi, hw], htaken' htaken⟩)
  -- Two have missed: whichever steps first takes the row from the other or loses.
  · by_cases hvi : v = i
    · subst hvi
      have hw' : c'.workers w = .missed := by rw [hother w hvw.symm, hw]
      rcases hmissed hv with h | ⟨h, _⟩
      · exact Or.inl ⟨v, h⟩
      · exact Or.inr (Or.inl ⟨w, hw', h⟩)
    · have hv' : c'.workers v = .missed := by rw [hother v hvi, hv]
      by_cases hwi : w = i
      · subst hwi
        rcases hmissed hw with h | ⟨h, _⟩
        · exact Or.inl ⟨w, h⟩
        · exact Or.inr (Or.inl ⟨v, hv', h⟩)
      · exact Or.inr (Or.inr ⟨v, w, hvw, hv', by rw [hother w hwi, hw]⟩)

/-- Every call returned the id of one and the same row, the peer's. -/
structure Agreed {n : Nat} (addr : CStr) (c : Config n Database Worker) : Prop where
  row : ∀ w, ∃ r ∈ connections c.shared, r.2 = incomingPeer addr ∧ c.workers w = .done r.1
  same : ∀ v w, c.workers v = c.workers w

theorem Settled.agreed {n : Nat} {addr : CStr} {id : Int} {c : Config n Database Worker}
    (hs : Settled addr id c) (hfin : Finished c) : Agreed addr c := by
  have hdone : ∀ w, c.workers w = .done id := by
    intro w
    rcases hs.workers w with h | h
    · rcases hfin w with ⟨id', h'⟩
      simp only [h, reduceCtorEq] at h'
    · exact h
  refine ⟨fun w => ⟨_, hs.row, rfl, hdone w⟩, fun v w => ?_⟩
  rw [hdone v, hdone w]

theorem Doomed.not_agreed {n : Nat} {addr : CStr} {c : Config n Database Worker}
    (hd : Doomed addr c) (hfin : Finished c) : ¬ Agreed addr c := by
  intro hagreed
  rcases hd.lost with ⟨w, hw⟩ | ⟨w, hw, _⟩ | ⟨_, w, _, _, hw⟩
  · rcases hagreed.row w with ⟨r, hr, _, hid⟩
    rw [hw, Worker.done.injEq] at hid
    -- An id is never `-1`.
    have hpos := (Db.id_bounds hr).1
    omega
  · rcases hfin w with ⟨id, h⟩
    simp only [hw, reduceCtorEq] at h
  · rcases hfin w with ⟨id, h⟩
    simp only [hw, reduceCtorEq] at h

/-- When the peer has no row, the first worker to look misses. -/
theorem first_misses {n : Nat} {addr : CStr} {db : Database} {c : Config n Database Worker}
    {w : Fin n} {rest : List (Fin n)} (hunknown : ¬ Known db addr)
    (hrun : run (contactStep addr) (contact n db) (w :: rest) = some c) :
    ∃ c₁, run (contactStep addr) c₁ rest = some c ∧ c₁.shared = db ∧
      c₁.workers = Function.update (fun _ => Worker.start) w .missed := by
  rcases run_cons hrun with ⟨c₁, hstep, hrest⟩
  rcases step_eq_some hstep with ⟨t, hact, hworkers⟩
  have hmiss : contactStep addr (contact n db).shared ((contact n db).workers w)
      = some (db, .missed) := contactStep_start_unknown hunknown
  rw [hmiss, Option.some.injEq, Prod.mk.injEq] at hact
  rcases hact with ⟨hdb, rfl⟩
  exact ⟨c₁, hrest, hdb.symm, hworkers⟩

section SecondStep

variable {n : Nat} {addr : CStr} {c₁ c₂ : Config n Database Worker} {w v : Fin n}

/-- The second step dooms the run if another worker takes it, or if the row cannot
    be inserted. -/
theorem second_doomed (hready : Ready c₁.shared) (hunknown : ¬ Known c₁.shared addr)
    (hworkers : c₁.workers = Function.update (fun _ => Worker.start) w .missed)
    (hlate : v = w → ¬ Creatable c₁.shared addr)
    (hstep : step (contactStep addr) c₁ v = some c₂) : Doomed addr c₂ := by
  have hw : c₁.workers w = .missed := by rw [hworkers, Function.update_self]
  by_cases hv : v = w
  -- The same worker: its insertion must have failed.
  · subst hv
    rcases contact_step_cases hstep with ⟨_, h, _⟩ | ⟨id, _, hins, _⟩ | ⟨_, _, hdb, hworkers₂⟩
    · simp only [hw, reduceCtorEq] at h
    · exact absurd ((insertPeer_isSome_iff hready addr).mp ⟨_, _, hins⟩) (hlate rfl)
    · exact ⟨hdb ▸ hready, Or.inl ⟨v, by rw [hworkers₂, Function.update_self]⟩⟩
  -- Another one: it misses too.
  · have hstart : c₁.workers v = .start := by rw [hworkers, Function.update_of_ne hv]
    rcases step_eq_some hstep with ⟨t, hact, hworkers₂⟩
    rw [hstart, contactStep_start_unknown hunknown, Option.some.injEq, Prod.mk.injEq] at hact
    rcases hact with ⟨hdb, rfl⟩
    refine ⟨hdb ▸ hready, Or.inr (Or.inr ⟨v, w, hv, ?_, ?_⟩)⟩
    · rw [hworkers₂, Function.update_self]
    · rw [hworkers₂, Function.update_of_ne (fun h => hv h.symm), hw]

/-- The second step settles the run if the worker that missed takes it and the row
    can be inserted. -/
theorem second_settled (hready : Ready c₁.shared)
    (hworkers : c₁.workers = Function.update (fun _ => Worker.start) w .missed)
    (hcreat : Creatable c₁.shared addr) (hstep : step (contactStep addr) c₁ w = some c₂) :
    ∃ id, Settled addr id c₂ := by
  rcases (insertPeer_isSome_iff hready addr).mpr hcreat with ⟨db', id', hins'⟩
  -- The worker has missed the row, and nothing has changed since, so its insertion
  -- succeeds.
  rcases contact_step_cases hstep with ⟨_, h, _⟩ | ⟨id, _, hins, hworkers₂⟩ | ⟨_, hnone, _⟩
  · rw [hworkers, Function.update_self] at h
    simp only [reduceCtorEq] at h
  · refine ⟨id, hready.insertPeer hins, ?_, fun v => ?_⟩
    · rw [(connections_insertPeer hins).1]
      exact List.mem_append_right _ (List.mem_singleton.mpr rfl)
    · rw [hworkers₂]
      by_cases hv : v = w
      · right
        rw [hv, Function.update_self]
      · left
        rw [Function.update_of_ne hv, hworkers, Function.update_of_ne hv]
  · rw [hins'] at hnone
    simp only [reduceCtorEq] at hnone

end SecondStep

/-- Any number of workers handling requests of one peer, under any schedule of
    their statements that lets all of them return: every call returns the id of
    one and the same row, none of them `-1`, exactly when there was nothing to do,
    or the peer already had its row, or its row could be inserted and the first
    worker to look took the second step too. -/
theorem contact_agree_iff (n : Nat) (addr : CStr) (db : Database) (schedule : List (Fin n))
    (c : Config n Database Worker) (hready : Ready db)
    (hrun : run (contactStep addr) (contact n db) schedule = some c) (hfin : Finished c) :
    Agreed addr c ↔
      schedule = [] ∨ Known db addr ∨
        (Creatable db addr ∧ ∃ w rest, schedule = w :: w :: rest) := by
  constructor
  · intro hagreed
    by_contra hcond
    simp only [not_or, not_and, not_exists] at hcond
    rcases hcond with ⟨hne, hunknown, hshape⟩
    cases schedule with
    | nil => exact hne rfl
    | cons w rest =>
        rcases first_misses hunknown hrun with ⟨c₁, hrest, rfl, hworkers⟩
        cases rest with
        | nil =>
            -- A worker that missed has not returned.
            rw [run, Option.some.injEq] at hrest
            rcases hfin w with ⟨id, h⟩
            rw [← hrest, hworkers, Function.update_self] at h
            simp only [reduceCtorEq] at h
        | cons v rest =>
            rcases run_cons hrest with ⟨c₂, hstep, hrest₂⟩
            have hlate : v = w → ¬ Creatable c₁.shared addr := by
              rintro rfl hcreat
              exact hshape hcreat v rest rfl
            have hdoomed := second_doomed hready hunknown hworkers hlate hstep
            have hend := run_invariant (Doomed addr) doomed_step rest c₂ c hdoomed hrest₂
            exact hend.not_agreed hfin hagreed
  · intro hcond
    by_cases hknown : Known db addr
    · rcases hknown with ⟨⟨id, row⟩, hmem, hrow⟩
      simp only at hrow
      subst hrow
      have hsettled : Settled addr id (contact n db) := ⟨hready, hmem, fun _ => Or.inl rfl⟩
      exact (run_invariant (Settled addr id) settled_step schedule _ c hsettled hrun).agreed hfin
    · rcases hcond with rfl | hknown' | ⟨hcreat, w, rest, rfl⟩
      -- Nobody took a step, so there is nobody.
      · rw [run, Option.some.injEq] at hrun
        subst hrun
        refine ⟨fun w => ?_, fun v w => rfl⟩
        rcases hfin w with ⟨id, h⟩
        simp only [contact, reduceCtorEq] at h
      · exact absurd hknown' hknown
      · rcases first_misses hknown hrun with ⟨c₁, hrest, rfl, hworkers⟩
        rcases run_cons hrest with ⟨c₂, hstep, hrest₂⟩
        rcases second_settled hready hworkers hcreat hstep with ⟨id, hsettled⟩
        exact (run_invariant (Settled addr id) settled_step rest c₂ c hsettled hrest₂).agreed hfin

/-- Two workers one after the other share the row the first one made. -/
theorem contact_agree_iff_in_turn :
    ∃ c, run (contactStep (.lit "10.0.0.7")) (contact 2 createdDatabase) [0, 0, 1] = some c ∧
      c.workers 1 = .done 1 ∧ Agreed (.lit "10.0.0.7") c := by
  refine ⟨_, rfl, rfl, ?_⟩
  refine (contact_agree_iff 2 (.lit "10.0.0.7") createdDatabase [0, 0, 1] _ ready_created rfl
    ?_).mpr (Or.inr (Or.inr ⟨?_, 0, [1], rfl⟩))
  · intro w
    match w with
    | 0 => exact ⟨1, rfl⟩
    | 1 => exact ⟨1, rfl⟩
  · exact (insertPeer_isSome_iff ready_created _).mp ⟨_, _, rfl⟩

/-- Two workers that both look before either inserts: the second one to insert is
    answered `-1`, on a database as it was created. -/
theorem contact_race_loses :
    Ready createdDatabase ∧
    ∃ c, run (contactStep (.lit "10.0.0.7")) (contact 2 createdDatabase) [0, 1, 0, 1] = some c ∧
      c.workers 0 = .done 1 ∧ c.workers 1 = .done (-1) :=
  ⟨ready_created, _, rfl, rfl, rfl⟩

end Server

end SendingSystem
