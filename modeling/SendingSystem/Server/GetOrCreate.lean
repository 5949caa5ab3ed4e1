import SendingSystem.Server.Store

/-!
# Looking a peer up or creating it

`connection_get_or_create` by itself, with nothing else at work on the file and
no statement failed by the system. Three notions of "the same connection" meet
in it. The `SELECT` compares columns with `=`, for which a `NULL` address is
like no other. The index `ux_Connection_peer` reads a `NULL` address as the
empty text. Both statements see the role through `sqlite3_bind_int`. Where the
three agree the function finds what it created; where they do not, it creates
what it cannot find again, or may not create what it cannot find.

## Main definitions

* `requestedRow`: The row the `SELECT` looks for and the `INSERT` writes.
* `requestedKey`: The key the caller asked for.
* `Insertable`: A connection can be inserted.
* `Complete`: The answer names a row of the key, and at most one row was added.
* `GetsOrCreates`: Complete, and a second call answers the same.
* `Findable`: The notions of sameness agree on a request.

## Theorems

* `insertConnection_isSome_iff`: When an insertion of a connection succeeds.
* `connectionFind_found_iff`: When the `SELECT` gives an id.
* `connectionFind_of_mem`: What it gives when the row is there.
* `connectionGetOrCreate_found`, `connectionGetOrCreate_missed`,
  `connectionGetOrCreate_taken`: The ways a call can go.
* `not_getsOrCreates_null`: A `NULL` address is never found again.
* `not_getsOrCreates_besideNull`: Nor is an empty address beside one.
* `getsOrCreates_iff`: When the function gets or creates.
-/

namespace SendingSystem

namespace Server

open CString

/-- The row `connection_get_or_create` looks for, and inserts. -/
def requestedRow (ip : Option CStr) (port ssl roleId : Int) : ConnectionRow :=
  ⟨ip, port, ssl, bindInt roleId⟩

/-- The key of the connection that the caller asks for. -/
def requestedKey (ip : Option CStr) (port ssl roleId : Int) : PeerKey :=
  ⟨roleId, ip.getD (.lit ""), port, ssl⟩

/-- The connection can be inserted: its role exists, the ids have not run out,
    and no connection has its key. -/
structure Insertable (db : Database) (c : ConnectionRow) : Prop where
  role : Used db .connectionRole c.roleId
  ids : Db.seq (S := serverSchema) db .connection < maxRowid
  free : ∀ r ∈ connections db, r.2.peerKey ≠ c.peerKey

/-- The answer names a row of the requested key, and at most that row was added. -/
structure Complete (db : Database) (ip : Option CStr) (port ssl roleId : Int)
    (r : Int × Database) : Prop where
  row : ∃ c, (r.1, c) ∈ connections r.2 ∧ c.peerKey = requestedKey ip port ssl roleId
  adds : r.2 = db ∨ ∃ c, connections r.2 = connections db ++ [(r.1, c)]
  others : ∀ t, t ≠ .connection → r.2.tab t = db.tab t

/-- The call is complete, and the same call again answers the same and leaves
    the database unchanged. -/
structure GetsOrCreates (db : Database) (ip : Option CStr) (port ssl roleId : Int) : Prop where
  complete : Complete db ip port ssl roleId
    (connectionGetOrCreate .none .none db ip port ssl roleId)
  again : connectionGetOrCreate .none .none
    (connectionGetOrCreate .none .none db ip port ssl roleId).2 ip port ssl roleId
      = connectionGetOrCreate .none .none db ip port ssl roleId

/-- The role id is left whole by `sqlite3_bind_int`, the address is not `NULL`,
    and if it is the empty text no connection that is otherwise the same has
    `NULL` in its place. -/
structure Findable (db : Database) (ip : Option CStr) (port ssl roleId : Int) : Prop where
  role : bindInt roleId = roleId
  address : ip ≠ none
  noNull : ip = some (.lit "") → ∀ r ∈ connections db, r.2 ≠ ⟨none, port, ssl, roleId⟩

/-- When an insertion of a connection succeeds. -/
theorem insertConnection_isSome_iff {db : Database} (hready : Ready db) (c : ConnectionRow) :
    (∃ db' id, Db.insert (S := serverSchema) db .connection c = some (db', id)) ↔
      Insertable db c := by
  have hkey : uniqueKey .connection c = some c.peerKey := rfl
  rw [insert_isSome_iff (refs_ne .connection c), clash_next_eq_false hready.unique hkey]
  -- The row refers to its role alone, and its key is what the index compares.
  constructor
  · rintro ⟨_, hids, _, hfree, hrefs⟩
    refine ⟨Db.present_iff.mp (hrefs _ List.mem_cons_self), hids, fun r hr h => ?_⟩
    exact hfree r hr (congrArg some h)
  · rintro ⟨hrole, hids, hfree⟩
    refine ⟨hready.tab .connection, hids, rfl, fun r hr h => ?_, fun p hp => ?_⟩
    · exact hfree r hr (Option.some.inj h)
    · rw [List.mem_singleton.mp hp]
      exact Db.present_iff.mpr hrole

/-- Two connections of one key are the same row. -/
theorem Ready.connection_unique {db : Database} (h : Ready db) {r r' : Int × ConnectionRow}
    (hr : r ∈ connections db) (hr' : r' ∈ connections db) (hkey : r.2.peerKey = r'.2.peerKey) :
    r = r' :=
  Db.row_unique hr hr'
    (h.sound.unique .connection h.unique r hr r' hr' r.2.peerKey rfl (congrArg some hkey.symm))

/-- The `SELECT` gives an id when it runs, the address is not `NULL` and was bound,
    and the row is there. -/
theorem connectionFind_found_iff (fault : StmtFault) (db : Database) (ip : Option CStr)
    (port ssl roleId : Int) :
    0 ≤ connectionFind fault db ip port ssl roleId ↔
      fault.step = false ∧ fault.bind 1 = false ∧ ip ≠ none ∧
        ∃ r ∈ connections db, r.2 = requestedRow ip port ssl roleId := by
  constructor
  · intro hfound
    rcases connectionFind_cases fault db ip port ssl roleId with hmiss | ⟨r, hmem, _, _, hrow⟩
    · omega
    -- What was compared with the rows was neither skipped nor `NULL`.
    · unfold connectionFind at hfound
      cases hstep : fault.step with
      | true =>
          rw [hstep, if_pos rfl] at hfound
          omega
      | false =>
          rw [hstep, if_neg Bool.false_ne_true] at hfound
          have hbound : (dbBindTextOrNull fault 1 ip).isSome = true := by
            by_contra hnull
            have hnone : (connections db).find?
                (fun r => peerMatches (dbBindTextOrNull fault 1 ip) port ssl roleId r.2) = none :=
              List.find?_eq_none.mpr fun r _ hmatch => by
                simp only [peerMatches, hnull, Bool.false_and, Bool.false_eq_true] at hmatch
            rw [hnone] at hfound
            simp only at hfound
            omega
          refine ⟨rfl, ?_, ?_, r, hmem, hrow⟩
          · by_contra hfailed
            rw [dbBindTextOrNull_of_failed ip (eq_true_of_ne_false hfailed)] at hbound
            exact Bool.false_ne_true hbound
          · rintro rfl
            exact Bool.false_ne_true hbound
  · rintro ⟨hstep, hbind, hip, r, hmem, hrow⟩
    unfold connectionFind
    rw [hstep, if_neg Bool.false_ne_true, dbBindTextOrNull_of_bound ip hbind]
    cases hf : (connections db).find? (fun r => peerMatches ip port ssl roleId r.2) with
    | none =>
        -- A row that is the one requested, with an address, would have matched.
        rw [List.find?_eq_none] at hf
        refine absurd ?_ (hf r hmem)
        rw [Option.ne_none_iff_isSome] at hip
        simp only [hrow, peerMatches, requestedRow, hip, decide_true, Bool.and_self]
    | some r' =>
        have hmem' := List.mem_of_find?_eq_some hf
        have hpos := (Db.id_bounds hmem').1
        simp only
        omega

/-- With the row there, the `SELECT` gives its id. -/
theorem connectionFind_of_mem {db : Database} (hready : Ready db) {ip : Option CStr}
    {port ssl roleId id : Int} (hip : ip ≠ none)
    (hrow : (id, requestedRow ip port ssl roleId) ∈ connections db) :
    connectionFind .none db ip port ssl roleId = id := by
  have hfound := (connectionFind_found_iff .none db ip port ssl roleId).mpr
    ⟨rfl, rfl, hip, _, hrow, rfl⟩
  rcases connectionFind_cases .none db ip port ssl roleId with hmiss | ⟨r, hmem, hid, _, hreq⟩
  · omega
  · have hsame : r.2.peerKey = (requestedRow ip port ssl roleId).peerKey := by
      rw [hreq]
      rfl
    rw [hid, hready.connection_unique hmem hrow hsame]

/-- The call when the row is there. -/
theorem connectionGetOrCreate_found {db : Database} (hready : Ready db) {ip : Option CStr}
    {port ssl roleId id : Int} (hip : ip ≠ none)
    (hrow : (id, requestedRow ip port ssl roleId) ∈ connections db) :
    connectionGetOrCreate .none .none db ip port ssl roleId = (id, db) := by
  have hfind := connectionFind_of_mem hready hip hrow
  have hpos := (Db.id_bounds hrow).1
  have hprepare : StmtFault.none.prepare = false := rfl
  simp only [connectionGetOrCreate, hprepare, Bool.false_eq_true, if_false, hfind]
  rw [if_pos (by simp only at hpos; omega)]

/-- The call when the `SELECT` misses comes down to the `INSERT`. -/
theorem connectionGetOrCreate_missed {db : Database} {ip : Option CStr} {port ssl roleId : Int}
    (hmiss : ¬ 0 ≤ connectionFind .none db ip port ssl roleId) :
    (∃ db' id, Db.insert (S := serverSchema) db .connection (requestedRow ip port ssl roleId)
        = some (db', id) ∧
      connectionGetOrCreate .none .none db ip port ssl roleId = (id, db')) ∨
    (Db.insert (S := serverSchema) db .connection (requestedRow ip port ssl roleId) = none ∧
      connectionGetOrCreate .none .none db ip port ssl roleId = (-1, db)) := by
  have hprepare : StmtFault.none.prepare = false := rfl
  have hstep : StmtFault.none.step = false := rfl
  simp only [connectionGetOrCreate, connectionInsert, insertRow, dbBindTextOrNull_none, hprepare,
    hstep, Bool.false_eq_true, if_false, if_neg hmiss]
  -- Nothing was found, so it is the insertion that decides.
  rcases hins : Db.insert (S := serverSchema) db .connection (requestedRow ip port ssl roleId)
    with _ | ⟨db', id⟩
  · right
    rw [requestedRow] at hins
    refine ⟨rfl, ?_⟩
    simp only [hins]
    rfl
  · left
    rw [requestedRow] at hins
    refine ⟨db', id, rfl, ?_⟩
    simp only [hins]
    rfl

/-- A complete call returned an id. -/
theorem Complete.one_le {db : Database} {ip : Option CStr} {port ssl roleId : Int}
    {r : Int × Database} (h : Complete db ip port ssl roleId r) : 1 ≤ r.1 := by
  rcases h.row with ⟨c, hmem, _⟩
  exact (Db.id_bounds hmem).1

/-- A connection of the key cannot be inserted a second time. -/
theorem insertConnection_of_taken {db : Database} (hready : Ready db) {c : ConnectionRow}
    (htaken : ∃ r ∈ connections db, r.2.peerKey = c.peerKey) :
    Db.insert (S := serverSchema) db .connection c = none := by
  rcases hins : Db.insert (S := serverSchema) db .connection c with _ | ⟨db', id⟩
  · rfl
  · rcases htaken with ⟨r, hr, hkey⟩
    exact absurd hkey (((insertConnection_isSome_iff hready c).mp ⟨db', id, hins⟩).free r hr)

/-- The call when the `SELECT` misses a connection that has the key. -/
theorem connectionGetOrCreate_taken {db : Database} (hready : Ready db) {ip : Option CStr}
    {port ssl roleId : Int} (hmiss : ¬ 0 ≤ connectionFind .none db ip port ssl roleId)
    (htaken : ∃ r ∈ connections db, r.2.peerKey = (requestedRow ip port ssl roleId).peerKey) :
    connectionGetOrCreate .none .none db ip port ssl roleId = (-1, db) := by
  have hnone := insertConnection_of_taken hready htaken
  rcases connectionGetOrCreate_missed hmiss with ⟨db', id, hins, _⟩ | ⟨_, hret⟩
  · rw [hnone] at hins
    simp only [reduceCtorEq] at hins
  · exact hret

/-- A row created with a `NULL` address is not found by the next call, and not
    created a second time either. -/
theorem not_getsOrCreates_null {db : Database} (hready : Ready db) (port ssl roleId : Int) :
    ¬ GetsOrCreates db none port ssl roleId := by
  rintro ⟨hcomplete, hagain⟩
  have hpos := hcomplete.one_le
  have hmiss : ∀ db', ¬ 0 ≤ connectionFind .none db' none port ssl roleId := by
    intro db' h
    exact ((connectionFind_found_iff .none db' none port ssl roleId).mp h).2.2.1 rfl
  rcases connectionGetOrCreate_missed (hmiss db) with ⟨db', id, hins, hret⟩ | ⟨_, hret⟩
  -- The first call created the row, so the second is refused by the index.
  · have htaken : ∃ r ∈ connections db',
        r.2.peerKey = (requestedRow none port ssl roleId).peerKey :=
      ⟨_, (insert_fresh hins).2.2, rfl⟩
    rw [hret] at hagain hpos
    rw [connectionGetOrCreate_taken (hready.evolves (evolves_insert hins)) (hmiss db') htaken,
      Prod.mk.injEq] at hagain
    simp only at hpos
    omega
  · rw [hret] at hpos
    simp only at hpos
    omega

/-- What a complete call found or created has the role the statements saw. -/
theorem bindInt_of_complete {db : Database} {ip : Option CStr} {port ssl roleId : Int}
    (h : Complete db ip port ssl roleId
      (connectionGetOrCreate .none .none db ip port ssl roleId)) : bindInt roleId = roleId := by
  have hpos := h.one_le
  rcases h.row with ⟨c, hmem, hkey⟩
  have hrole : c.roleId = roleId := congrArg PeerKey.roleId hkey
  -- The row that is returned, found or new, has the role as it was bound.
  rcases connectionGetOrCreate_cases .none .none db ip port ssl roleId with
    hret | ⟨r, hr, hret, _, hrow⟩ | ⟨db', id, hret, hins⟩
  · rw [hret] at hpos
    simp only at hpos
    omega
  · rw [hret] at hmem
    have hsame := Db.row_unique hmem hr rfl
    rw [← hsame] at hrow
    have hbound : c.roleId = bindInt roleId := congrArg ConnectionRow.roleId hrow
    exact hbound.symm.trans hrole
  · rw [hret] at hmem
    have hsame := Db.row_unique hmem (insert_fresh hins).2.2 rfl
    rw [Prod.mk.injEq] at hsame
    have hbound : c.roleId = bindInt roleId := congrArg ConnectionRow.roleId hsame.2
    exact hbound.symm.trans hrole

/-- Once the row requested is there under the id returned, the next call finds it. -/
theorem getsOrCreates_of_row {db db' : Database} (hready : Ready db') {ip : Option CStr}
    {port ssl roleId id : Int} (hip : ip ≠ none) (hrole : bindInt roleId = roleId)
    (hret : connectionGetOrCreate .none .none db ip port ssl roleId = (id, db'))
    (hrow : (id, requestedRow ip port ssl roleId) ∈ connections db')
    (hadds : db' = db ∨ ∃ c, connections db' = connections db ++ [(id, c)])
    (hothers : ∀ t, t ≠ .connection → db'.tab t = db.tab t) :
    GetsOrCreates db ip port ssl roleId := by
  have hkey : (requestedRow ip port ssl roleId).peerKey = requestedKey ip port ssl roleId := by
    simp only [requestedRow, ConnectionRow.peerKey, requestedKey, hrole]
  refine ⟨?_, ?_⟩
  · rw [hret]
    exact ⟨⟨_, hrow, hkey⟩, hadds, hothers⟩
  · rw [hret]
    exact connectionGetOrCreate_found hready hip hrow

/-- The row with the empty address is neither found nor created beside one that has
    `NULL` and is otherwise the same. -/
theorem not_getsOrCreates_besideNull {db : Database} (hready : Ready db) {port ssl roleId : Int}
    (hbind : bindInt roleId = roleId) {r : Int × ConnectionRow} (hr : r ∈ connections db)
    (hrow : r.2 = ⟨none, port, ssl, roleId⟩) :
    ¬ GetsOrCreates db (some (.lit "")) port ssl roleId := by
  intro h
  have hpos := h.complete.one_le
  have hkey : r.2.peerKey = (requestedRow (some (.lit "")) port ssl roleId).peerKey := by
    rw [hrow, requestedRow, hbind]
    rfl
  -- The row with `NULL` has the key, so the one with the empty text is not there.
  have hmiss : ¬ 0 ≤ connectionFind .none db (some (.lit "")) port ssl roleId := by
    intro hfound
    rcases (connectionFind_found_iff .none db (some (.lit "")) port ssl roleId).mp hfound with
      ⟨_, _, _, r', hr', hrow'⟩
    rw [← hrow'] at hkey
    rw [hready.connection_unique hr hr' hkey, hrow'] at hrow
    simp only [requestedRow, ConnectionRow.mk.injEq, reduceCtorEq, false_and] at hrow
  rw [connectionGetOrCreate_taken hready hmiss ⟨r, hr, hkey⟩] at hpos
  simp only at hpos
  omega

/-- When the `SELECT` misses, nothing has the key: whatever had it would be the row
    itself, or have `NULL` for the empty text. -/
theorem Findable.free {db : Database} {ip : Option CStr} {port ssl roleId : Int}
    (h : Findable db ip port ssl roleId)
    (hmiss : ¬ 0 ≤ connectionFind .none db ip port ssl roleId) :
    ∀ r ∈ connections db, r.2.peerKey ≠ (requestedRow ip port ssl roleId).peerKey := by
  intro r hr hkey
  rcases Option.ne_none_iff_exists'.mp h.address with ⟨a, ha⟩
  rcases r with ⟨id, ⟨ip', port', ssl', role'⟩⟩
  simp only [ConnectionRow.peerKey, requestedRow, PeerKey.mk.injEq, ha, h.role] at hkey
  rcases hkey with ⟨rfl, haddr, rfl, rfl⟩
  -- A row with a null address has the key of the empty one; any other would be found.
  cases ip' with
  | none =>
      refine h.noNull ?_ _ hr rfl
      rw [ha]
      exact congrArg some haddr.symm
  | some a' =>
      refine hmiss ((connectionFind_found_iff .none db ip port' ssl' role').mpr
        ⟨rfl, rfl, h.address, _, hr, ?_⟩)
      simp only [Option.getD_some] at haddr
      simp only [requestedRow, haddr, ha, h.role]

/-- With no SQL error (the role exists, and where a row is to be created there is
    an id left for it): the call returns the id of a row with the requested role,
    address, port and flag, adds at most one row, and the same call again returns
    the same id and changes nothing, exactly when the role id fits an `int`, the
    address is not `NULL`, and an empty address does not stand beside a `NULL` one. -/
theorem getsOrCreates_iff (db : Database) (ip : Option CStr) (port ssl roleId : Int)
    (hready : Ready db) (hrole : Used db .connectionRole roleId)
    (hids : (∃ r ∈ connections db, r.2.peerKey = requestedKey ip port ssl roleId) ∨
      Db.seq (S := serverSchema) db .connection < maxRowid) :
    GetsOrCreates db ip port ssl roleId ↔ Findable db ip port ssl roleId := by
  constructor
  · intro h
    have hbind := bindInt_of_complete h.complete
    have hip : ip ≠ none := by
      intro hnull
      exact not_getsOrCreates_null hready port ssl roleId (hnull ▸ h)
    refine ⟨hbind, hip, fun hempty r hr hrow => ?_⟩
    exact not_getsOrCreates_besideNull hready hbind hr hrow (hempty ▸ h)
  · intro h
    have hbind := h.role
    by_cases hfound : 0 ≤ connectionFind .none db ip port ssl roleId
    · rcases (connectionFind_found_iff .none db ip port ssl roleId).mp hfound with
        ⟨_, _, _, ⟨id, row⟩, hmem, hrow⟩
      simp only at hrow
      subst hrow
      exact getsOrCreates_of_row hready h.address hbind
        (connectionGetOrCreate_found hready h.address hmem) hmem (Or.inl rfl) (fun _ _ => rfl)
    · have hfree := h.free hfound
      -- Ids have run out only where the row exists, and then it would have been found.
      have hleft : Db.seq (S := serverSchema) db .connection < maxRowid := by
        refine hids.resolve_left ?_
        rintro ⟨r, hr, hkey⟩
        refine hfree r hr (hkey.trans ?_)
        simp only [requestedRow, ConnectionRow.peerKey, requestedKey, hbind]
      have hins := (insertConnection_isSome_iff hready (requestedRow ip port ssl roleId)).mpr
        ⟨by rw [requestedRow, hbind]; exact hrole, hleft, hfree⟩
      rcases connectionGetOrCreate_missed hfound with ⟨db', id, hdb, hret⟩ | ⟨hnone, _⟩
      · exact getsOrCreates_of_row (hready.evolves (evolves_insert hdb)) h.address hbind hret
          (insert_fresh hdb).2.2 (Or.inr ⟨_, rows_insert hdb⟩)
          (fun t ht => tab_insert_of_ne hdb ht)
      · rcases hins with ⟨db', id, hdb⟩
        rw [hnone] at hdb
        simp only [reduceCtorEq] at hdb

/-- The role `CLIENT` of a new file. -/
theorem used_created_client : Used createdDatabase .connectionRole 2 :=
  ⟨seed "CLIENT", by decide⟩

/-- A first peer on a new file. -/
theorem getsOrCreates_iff_created :
    GetsOrCreates createdDatabase (some (.lit "10.0.0.7")) 5000 1 2 ↔
      Findable createdDatabase (some (.lit "10.0.0.7")) 5000 1 2 :=
  getsOrCreates_iff createdDatabase (some (.lit "10.0.0.7")) 5000 1 2 ready_created
    used_created_client (Or.inr (by decide))

/-- On a new file, asked for a `NULL` address twice: the second call does not
    return the first call's row. -/
theorem getsOrCreates_null_created :
    ¬ ∀ (db : Database) (ip : Option CStr) (port ssl roleId : Int), Ready db →
      Used db .connectionRole roleId → Db.seq (S := serverSchema) db .connection < maxRowid →
      GetsOrCreates db ip port ssl roleId := by
  intro h
  exact not_getsOrCreates_null ready_created 5000 1 2
    (h createdDatabase none 5000 1 2 ready_created used_created_client (by decide))

end Server

end SendingSystem
