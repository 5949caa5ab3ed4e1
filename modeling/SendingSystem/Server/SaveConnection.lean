import SendingSystem.Server.Contact
import SendingSystem.Server.World

/-!
# What `save_connection` gives and leaves

The function opens the database, which applies the schema script, and looks the
peer up. It gives `-1` when a step of that fails, and otherwise the id of the
peer's row, the one it found or the one it inserted. Only the schema script and
the insertion can change the database, and the insertion always does, since it
uses up an id. An address that cannot be bound is not found, and is inserted as
`NULL`.

## Main definitions

* `Finds`: The lookup finds the peer.
* `CannotInsert`: The peer's row cannot be inserted.
* `Unavailable`: No row can be had for the peer.
* `LeavesAlone`: Looking the peer up writes nothing.

## Theorems

* `saveConnection_cases`: What the function can do.
* `saveConnection_none_iff`: When it gives `-1`.
* `saveConnection_eq_iff`: When it leaves the database as it was.
-/

namespace SendingSystem

namespace Server

open CString

/-- The `SELECT` runs on the address, and the peer has a row. -/
def Finds (fault : ConnectionFault) (db : Database) (addr : CStr) : Prop :=
  fault.find.step = false ∧ fault.find.bind 1 = false ∧ Known db addr

/-- The `INSERT` does not run, or the schema forbids the row that is bound. -/
def CannotInsert (fault : ConnectionFault) (db : Database) (addr : CStr) : Prop :=
  fault.insert.prepare = true ∨ fault.insert.step = true ∨
    insertBound fault.insert db addr = none

/-- No row can be had for the peer: the database does not open, or the lookup
    cannot be prepared, or it does not find the peer, whose row cannot be inserted. -/
def Unavailable (fault : ConnectionFault) (db : Database) (addr : CStr) : Prop :=
  (databaseOpen fault.opening db).1 = -1 ∨ fault.find.prepare = true ∨
    (¬ Finds fault db addr ∧ CannotInsert fault (databaseOpen fault.opening db).2 addr)

/-- Looking the peer up writes nothing: applying the schema changes nothing, and
    then the lookup is not reached, or fails, or finds the peer, or cannot insert
    it. -/
structure LeavesAlone (fault : ConnectionFault) (db : Database) (addr : CStr) : Prop where
  schema : (databaseOpen fault.opening db).2 = db
  peer : (databaseOpen fault.opening db).1 = -1 ∨ fault.find.prepare = true ∨
    Finds fault db addr ∨ CannotInsert fault db addr

/-- The schema script has no rows for `Connection`. -/
theorem connections_databaseOpen (fault : OpenFault) (db : Database) :
    connections (databaseOpen fault db).2 = connections db :=
  rows_databaseOpen fault db (fun s hs => (createDatabase_fills s hs).1)

theorem known_databaseOpen (fault : OpenFault) (db : Database) (addr : CStr) :
    Known (databaseOpen fault db).2 addr ↔ Known db addr := by
  rw [Known, connections_databaseOpen]
  rfl

/-- The `INSERT` of the lookup: it fails and changes nothing, or the peer is in. -/
theorem connectionInsert_cases (fault : ConnectionFault) (db : Database) (addr : CStr) :
    (CannotInsert fault db addr ∧ connectionInsert fault.insert db (some addr) connectionPort
      sslEncrypt incomingPeerRole.id = ⟨-1, none, db⟩) ∨
    (¬ CannotInsert fault db addr ∧ ∃ db' id, insertBound fault.insert db addr = some (db', id) ∧
      connectionInsert fault.insert db (some addr) connectionPort sslEncrypt incomingPeerRole.id
        = ⟨0, some id, db'⟩) := by
  -- The faults of the statement first, and then those of the row.
  cases hprepare : fault.insert.prepare with
  | true =>
      left
      rw [connectionInsert, insertRow, if_pos hprepare]
      exact ⟨Or.inl hprepare, rfl⟩
  | false =>
      cases hstep : fault.insert.step with
      | true =>
          left
          refine ⟨Or.inr (Or.inl hstep), ?_⟩
          simp only [connectionInsert, insertRow, hprepare, hstep, Bool.false_eq_true, if_false,
            if_true]
      | false =>
          rw [connectionInsert_eq hprepare hstep]
          cases hins : insertBound fault.insert db addr with
          | none => exact Or.inl ⟨Or.inr (Or.inr hins), rfl⟩
          | some r =>
              refine Or.inr ⟨?_, r.1, r.2, rfl, rfl⟩
              rintro (h | h | h)
              · exact Bool.false_ne_true (hprepare.symm.trans h)
              · exact Bool.false_ne_true (hstep.symm.trans h)
              · rw [hins] at h
                simp only [reduceCtorEq] at h

/-- What the function can do: give up, find the peer, fail to insert it, or
    insert it. -/
theorem saveConnection_cases (fault : ConnectionFault) (db : Database) (addr : CStr) :
    (((databaseOpen fault.opening db).1 = -1 ∨ fault.find.prepare = true) ∧
      saveConnection fault db addr = (-1, (databaseOpen fault.opening db).2)) ∨
    (¬ ((databaseOpen fault.opening db).1 = -1 ∨ fault.find.prepare = true) ∧
      ((Finds fault db addr ∧ ∃ id, (id, incomingPeer addr) ∈ connections db ∧
          saveConnection fault db addr = (id, (databaseOpen fault.opening db).2)) ∨
        (¬ Finds fault db addr ∧ CannotInsert fault (databaseOpen fault.opening db).2 addr ∧
          saveConnection fault db addr = (-1, (databaseOpen fault.opening db).2)) ∨
        (¬ Finds fault db addr ∧ ¬ CannotInsert fault (databaseOpen fault.opening db).2 addr ∧
          ∃ db' id, insertBound fault.insert (databaseOpen fault.opening db).2 addr
              = some (db', id) ∧
            saveConnection fault db addr = (id, db')))) := by
  have hfinds := connectionFind_nonneg_iff fault.find (databaseOpen fault.opening db).2 addr
  -- Opening adds no connection, so the peer is known after it if it was before.
  rw [known_databaseOpen, ← Finds] at hfinds
  have hconns := connections_databaseOpen fault.opening db
  unfold saveConnection
  simp only
  -- By the statements, in the order they run.
  by_cases hopen : (databaseOpen fault.opening db).1 = -1
  · exact Or.inl ⟨Or.inl hopen, if_pos hopen⟩
  · rw [if_neg hopen]
    generalize (databaseOpen fault.opening db).2 = db₁ at *
    unfold connectionGetOrCreate
    by_cases hprepare : fault.find.prepare = true
    · left
      simp only [hprepare, or_true, if_true, and_self]
    · right
      rw [if_neg hprepare]
      refine ⟨fun h => h.elim hopen hprepare, ?_⟩
      simp only
      rcases connectionFind_cases fault.find db₁ (some addr) connectionPort sslEncrypt
        incomingPeerRole.id with hmiss | ⟨r, hmem, hid, hpos, hrow⟩
      -- Not found: the `INSERT` decides.
      · have hno : ¬ Finds fault db addr := by
          rw [← hfinds, hmiss]
          omega
        rw [hmiss, if_neg (show ¬ (0 : Int) ≤ -1 by omega)]
        rcases connectionInsert_cases fault db₁ addr with ⟨hcannot, hret⟩ |
          ⟨hcan, db', id, hins, hret⟩
        · rw [hret]
          exact Or.inr (Or.inl ⟨hno, hcannot, rfl⟩)
        · rw [hret]
          -- The id of an insertion is positive, so it is not taken for a failure.
          have hpos := (connections_insertBound hins).2
          refine Or.inr (Or.inr ⟨hno, hcan, db', id, hins, ?_⟩)
          simp only [ne_eq, not_true_eq_false, if_false, Option.getD_some]
          exact if_neg (by omega)
      · rw [hid, if_pos (show 0 ≤ r.1 by omega)]
        refine Or.inl ⟨hfinds.mp (by omega), r.1, ?_, if_neg (show ¬ r.1 = -1 by omega)⟩
        rw [← hconns]
        rcases r with ⟨id, row⟩
        simp only at hrow
        exact hrow ▸ hmem

/-- The function gives `-1` when no row can be had, and only then. -/
theorem saveConnection_none_iff (fault : ConnectionFault) (db : Database) (addr : CStr) :
    (saveConnection fault db addr).1 = -1 ↔ Unavailable fault db addr := by
  -- Found or made, the row has an id above zero, which is not the answer of a failure.
  rcases saveConnection_cases fault db addr with ⟨hfail, h⟩ | ⟨hok, ⟨hfinds, id, hrow, h⟩ |
    ⟨hno, hcannot, h⟩ | ⟨hno, hcan, db', id, hins, h⟩⟩
  · rw [h]
    refine ⟨fun _ => ?_, fun _ => rfl⟩
    rcases hfail with hopen | hprepare
    · exact Or.inl hopen
    · exact Or.inr (Or.inl hprepare)
  · rw [h]
    have hpos := (Db.id_bounds hrow).1
    constructor
    · intro h'
      simp only at h' hpos
      omega
    · rintro (h' | h' | h')
      · exact absurd (Or.inl h') hok
      · exact absurd (Or.inr h') hok
      · exact absurd hfinds h'.1
  · rw [h]
    exact ⟨fun _ => Or.inr (Or.inr ⟨hno, hcannot⟩), fun _ => rfl⟩
  · rw [h]
    have hpos := (connections_insertBound hins).2
    constructor
    · intro h'
      simp only at h'
      omega
    · rintro (h' | h' | h')
      · exact absurd (Or.inl h') hok
      · exact absurd (Or.inr h') hok
      · exact absurd h'.2 hcan

/-- When the lookup leaves the database as it was. An insertion uses up an id, so
    nothing undoes it. -/
theorem saveConnection_eq_iff (fault : ConnectionFault) (db : Database) (addr : CStr) :
    (saveConnection fault db addr).2 = db ↔ LeavesAlone fault db addr := by
  rcases saveConnection_cases fault db addr with ⟨hfail, h⟩ | ⟨hok, ⟨hfinds, id, hrow, h⟩ |
    ⟨hno, hcannot, h⟩ | ⟨hno, hcan, db', id, hins, h⟩⟩
  · rw [h]
    refine ⟨fun h' => ⟨h', ?_⟩, fun h' => h'.schema⟩
    rcases hfail with hopen | hprepare
    · exact Or.inl hopen
    · exact Or.inr (Or.inl hprepare)
  · rw [h]
    exact ⟨fun h' => ⟨h', Or.inr (Or.inr (Or.inl hfinds))⟩, fun h' => h'.schema⟩
  · rw [h]
    refine ⟨fun h' => ⟨h', ?_⟩, fun h' => h'.schema⟩
    simp only at h'
    rw [h'] at hcannot
    exact Or.inr (Or.inr (Or.inr hcannot))
  -- The peer was inserted: an id more was used than before.
  · rw [h]
    have hseq := (evolves_databaseOpen fault.opening db).seq .connection
    have hmore := seq_insert hins
    constructor
    · intro h'
      simp only at h'
      rw [h'] at hmore
      omega
    · intro h'
      rw [h'.schema] at hcan
      rcases h'.peer with hopen | hprepare | hfinds | hcannot
      · exact absurd (Or.inl hopen) hok
      · exact absurd (Or.inr hprepare) hok
      · exact absurd hfinds hno
      · exact absurd hcannot hcan

end Server

end SendingSystem
