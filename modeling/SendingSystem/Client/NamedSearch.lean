import SendingSystem.Client.History
import SendingSystem.Lib.Like

/-!
# The search for named connections

`NamedConnectionDao.java`: the rows whose name contains a text, case ignored. The
query puts the text between two wildcards and leaves it as it is, although it
names an escape letter. So the text is a pattern itself. The letters of the text
and of the names are the code points; `LOWER` folds the ASCII ones, and so would
`LIKE`, which then finds nothing more to fold.

A text without `%`, `_` and `\` finds exactly the names that contain it. For any
other there is a name the search is wrong about: the text itself, or what it
matches with `a` for the wildcards.

## Main definitions

* `lower`, `lowered`: `LOWER`.
* `nameLike`: The condition of the query.
* `searchNamedConnection`, `insertNamedConnection`: The DAO methods.
* `NameContains`, `SearchesExactly`: What the search is for.
* `PlainQuery`: Nothing in the text is special.

## Theorems

* `nameLike_plain`: A plain text matches the names that contain it.
* `exists_nameLike_ne`: Any other text is wrong about some name.
* `exists_named`: A name can be stored.
* `searchesExactly_iff`: When the search is exact.
-/

namespace SendingSystem

namespace Client

open Utf16 Like

/-- `LOWER` of a letter. -/
def lower (c : Nat) : Nat := if 65 ≤ c ∧ c ≤ 90 then c + 32 else c

/-- `LOWER` of a text. -/
def lowered (s : JString) : List Nat := (codePoints s).map lower

/-- The letters of `LIKE … ESCAPE '\'`. -/
def sqlLetters : Letters Nat where
  sequence := 37
  one := 95
  escape := 92
  escape_ne_sequence := by decide

/-- `'%' || LOWER(:query) || '%'`. -/
def searchPattern (query : JString) : List Nat := 37 :: (lowered query ++ [37])

/-- `LOWER(name) LIKE '%' || LOWER(:query) || '%' ESCAPE '\'`. With a null it is null,
    which selects nothing. -/
def nameLike (name query : Option JString) : Bool :=
  match name, query with
  | some name, some query => like sqlLetters (searchPattern query) (lowered name)
  | _, _ => false

/-- The rows of `NamedConnection`, in id order. -/
def namedConnections (db : Database) : List (Int × NamedConnection) :=
  Db.rows (S := clientSchema) db .namedConnection

/-- `searchNamedConnection`. -/
def searchNamedConnection (db : Database) (query : Option JString) :
    List (Int × NamedConnection) :=
  (namedConnections db).filter (fun r => nameLike r.2.name query)

/-- `NamedConnectionDao.insert`, nothing when it throws. -/
def insertNamedConnection (db : Database) (namedConnection : NamedConnection) :
    Option Database :=
  (Db.insert (S := clientSchema) db .namedConnection namedConnection).map (fun r => r.1)

/-- The name, lower-cased, contains the text, lower-cased. A null contains nothing. -/
def NameContains (query : JString) : Option JString → Prop
  | none => False
  | some name => lowered query <:+: lowered name

instance (query : JString) (name : Option JString) : Decidable (NameContains query name) :=
  match name with
  | none => inferInstanceAs (Decidable False)
  | some name => inferInstanceAs (Decidable (lowered query <:+: lowered name))

/-- Whatever is in the table, the search returns the rows whose name contains the
    text, and no others. -/
def SearchesExactly (query : JString) : Prop :=
  ∀ db : Database, searchNamedConnection db (some query) =
    (namedConnections db).filter (fun r => NameContains query r.2.name)

/-- The text has none of the letters `%`, `_` and `\`. -/
def PlainQuery (query : JString) : Prop := ∀ u ∈ lit "%_\\", u ∉ query

theorem lower_lower (c : Nat) : lower (lower c) = lower c := by
  unfold lower
  split
  · rw [if_neg (by omega)]
  · rfl

theorem lower_lt {c : Nat} (h : c < 0x110000) : lower c < 0x110000 := by
  unfold lower
  split
  · omega
  · exact h

theorem special_iff {c : Nat} : Special sqlLetters c ↔ ∃ u ∈ lit "%_\\", u.toNat = c := by
  have hlit : lit "%_\\" = [37, 95, 92] := rfl
  simp only [hlit, List.mem_cons, List.not_mem_nil, or_false, exists_eq_or_imp, exists_eq_left]
  exact or_congr eq_comm (or_congr eq_comm eq_comm)

/-- `LOWER` makes no letter special, and none plain. -/
theorem special_lower {c : Nat} : Special sqlLetters (lower c) ↔ Special sqlLetters c := by
  change (_ = 37 ∨ _ = 95 ∨ _ = 92) ↔ (_ = 37 ∨ _ = 95 ∨ _ = 92)
  unfold lower
  split
  · omega
  · rfl

/-- The letters of a plain text are plain. -/
theorem plainQuery_iff {query : JString} :
    PlainQuery query ↔ ∀ c ∈ lowered query, ¬ Special sqlLetters c := by
  have hascii : ∀ u ∈ lit "%_\\", u.toNat < 128 := by
    intro u hu
    have hspecial : _ = 37 ∨ _ = 95 ∨ _ = 92 := special_iff.mpr ⟨u, hu, rfl⟩
    omega
  -- The special letters are ASCII, so they are units of the text as well as points.
  constructor
  · intro h c hc hspecial
    rcases List.mem_map.mp hc with ⟨d, hd, rfl⟩
    rcases special_iff.mp (special_lower.mp hspecial) with ⟨u, hu, rfl⟩
    exact h u hu ((mem_codePoints_ascii (hascii u hu) query).mp hd)
  · intro h u hu hmem
    have hpoint := (mem_codePoints_ascii (hascii u hu) query).mpr hmem
    exact h _ (List.mem_map_of_mem hpoint) (special_lower.mpr (special_iff.mpr ⟨u, hu, rfl⟩))

/-- A plain text matches the names that contain it. -/
theorem nameLike_plain {query : JString} (h : PlainQuery query) (name : Option JString) :
    nameLike name (some query) = true ↔ NameContains query name := by
  cases name with
  | none => exact iff_of_false Bool.false_ne_true id
  | some name => exact like_surround (plainQuery_iff.mp h) (lowered name)

example : nameLike (some (lit "Home Office")) (some (lit "OFF")) = true := by decide

theorem apart_lower {c d : Nat} (h : Apart c d) : Apart (lower c) (lower d) := by
  rw [Apart] at h ⊢
  unfold lower
  split <;> split <;> omega

/-- A text that is not plain is wrong about some name. -/
theorem exists_nameLike_ne {query : JString} (h : ¬ PlainQuery query) :
    ∃ name, ¬ (nameLike (some name) (some query) = true ↔ NameContains query (some name)) := by
  rw [plainQuery_iff] at h
  push Not at h
  -- The letters of a text are never the halves of a pair, also when lower-cased, so a
  -- text can be made of what the library finds.
  have hchain : (lowered query).IsChain Apart := by
    rw [lowered, List.isChain_map]
    exact (codePoints_apart query).imp (fun _ _ => apart_lower)
  rcases exists_like_ne (L := sqlLetters) (a := 97) (by decide) (fun c => by unfold Apart; omega)
    (fun c => by unfold Apart; omega) hchain h with ⟨s, hs, hmem, hne⟩
  have hlower : ∀ c ∈ s, lower c = c ∧ c < 0x110000 := by
    intro c hc
    rcases hmem c hc with rfl | hc
    · exact ⟨rfl, by decide⟩
    · rcases List.mem_map.mp hc with ⟨d, hd, rfl⟩
      exact ⟨lower_lower d, lower_lt (codePoints_lt query d hd)⟩
  have hpoints := codePoints_units s hs (fun c hc => (hlower c hc).2)
  refine ⟨s.flatMap units, ?_⟩
  have hname : lowered (s.flatMap units) = s := by
    rw [lowered, hpoints]
    exact (List.map_congr_left (fun c hc => (hlower c hc).1)).trans (List.map_id s)
  rw [NameContains, nameLike, hname]
  exact hne

/-- A server of the local network. -/
def localServer : Connection :=
  ⟨some (lit "192.168.0.10"), 5000, false, ConnectionRole.server.index⟩

/-- A name can be stored in the seeded database: a server for it, and its row. -/
theorem exists_named (name : JString) : ∃ (db₀ db : Database) (id : Int) (row : NamedConnection),
    insertConnection createdDatabase localServer = some db₀ ∧
      insertNamedConnection db₀ row = some db ∧ row.name = some name ∧
      namedConnections db = [(id, row)] := by
  have hserver : ∃ db₀ connectionId, Db.insert (S := clientSchema) createdDatabase .connection
      localServer = some (db₀, connectionId) :=
    insert_of_refs seeded_createdDatabase (by decide) (by decide)
  rcases hserver with ⟨db₀, connectionId, hserver⟩
  -- The row refers to the connection that was just made.
  have hpresent : Present db₀ .connection connectionId := by
    rw [Present, Db.present_iff]
    refine ⟨localServer, ?_⟩
    rw [rows_insert hserver]
    exact List.mem_append_right _ (List.mem_singleton_self _)
  have hids : Db.seq (S := clientSchema) db₀ .namedConnection < maxRowid := by
    rw [seq_insert_of_ne hserver (by decide)]
    decide
  have hnamed : ∃ db id, Db.insert (S := clientSchema) db₀ .namedConnection
      ⟨some name, connectionId⟩ = some (db, id) := by
    refine insert_of_refs (seeded_createdDatabase.insert hserver) hids fun p hp => ?_
    rw [List.mem_singleton.mp hp]
    exact hpresent
  rcases hnamed with ⟨db, id, hnamed⟩
  refine ⟨db₀, db, id, ⟨some name, connectionId⟩, ?_, ?_, rfl, ?_⟩
  · rw [insertConnection, hserver, Option.map_some]
  · rw [insertNamedConnection, hnamed, Option.map_some]
  · rw [namedConnections, rows_insert hnamed, rows_insert_of_ne hserver (by decide)]
    rfl

/-- A search that is exact is right about every name, stored alone. -/
theorem SearchesExactly.nameLike_iff {query : JString} (h : SearchesExactly query)
    (name : JString) :
    nameLike (some name) (some query) = true ↔ NameContains query (some name) := by
  rcases exists_named name with ⟨_, db, id, row, _, _, hname, hrows⟩
  have hmem : (id, row) ∈ searchNamedConnection db (some query) ↔
      (id, row) ∈ (namedConnections db).filter (fun r => NameContains query r.2.name) := by
    rw [h db]
  simp only [searchNamedConnection, List.mem_filter, hrows, List.mem_singleton, true_and,
    decide_eq_true_eq, hname] at hmem
  exact hmem

/-- For every text: whatever is in the table, the search returns exactly the rows
    whose name contains the text, if and only if the text has none of `%`, `_`
    and `\`. -/
theorem searchesExactly_iff (query : JString) : SearchesExactly query ↔ PlainQuery query := by
  constructor
  · intro h
    by_contra hplain
    rcases exists_nameLike_ne hplain with ⟨name, hne⟩
    exact hne (h.nameLike_iff name)
  · intro h db
    refine List.filter_congr fun r _ => ?_
    rw [Bool.eq_iff_iff, decide_eq_true_eq]
    exact nameLike_plain h r.2.name

/-- A search for `_` finds a name that has none. -/
theorem searchesExactly_underscore : ¬ SearchesExactly (lit "_") := by
  intro h
  have hoffice := h.nameLike_iff (lit "Office")
  revert hoffice
  decide

end Client

end SendingSystem
