import SendingSystem.Server.UploadHistory

/-!
# When the history equals the wire

Whatever fails while a request is handled, its history row and its answer are made of
one text, and one status goes into both. What comes between is the bind of the text.
`db_bind_text_or_null` drops what `sqlite3_bind_text` returns, so a response that cannot
be copied is inserted as `NULL`, and sent in full all the same.

For that to happen the request has to get a row. That takes a row for its peer, and
then the schema script has run to its end, so nothing the row refers to is missing:
its `INSERT` goes in unless the system fails it or the ids have run out.

## Main definitions

* `Opens`: The database opens once the script was run on it.
* `RowGoesIn`: The history row is inserted.
* `PostRequest.Recorded`: The request gets a history row.
* `PostRequest.MatchesWire`: Its row, if any, has what was sent.

## Theorems

* `databaseOpen_opens_iff`: When the database opens again.
* `saveConnection_scripted`: What a peer with a row leaves.
* `saveMessage_adds_iff`: When a message is added.
* `PostRequest.recorded_iff`: Which requests get a row.
* `PostRequest.matches_wire_iff`: When the history equals the wire.
* `PostRequest.matches_wire_response_lost`: A row that has lost its response.
-/

namespace SendingSystem

namespace Server

open CString CJson

/-- The database opens once the schema script was run on it: the system fails none of
    its statements, nor what comes before them. -/
structure Opens (fault : OpenFault) : Prop where
  sqlite3Open : fault.sqlite3Open = false
  readFile : fault.readFile = false
  exec : ∀ n, fault.exec = some n → createDatabase.length ≤ n

/-- The history row of a request whose peer has a row goes in: the database opens, the
    system does not fail the `INSERT`, and an id is left. -/
structure RowGoesIn (fault : MessageFault) (db : Database) : Prop where
  opens : Opens fault.opening
  prepare : fault.insert.prepare = false
  step : fault.insert.step = false
  ids : Db.seq (S := serverSchema) db .message < maxRowid

namespace PostRequest

/-- The handler gets to the history, and the row goes in. A text has passed the checks.
    A form has ended well or was stopped, and its last file part has a path. -/
def Recorded : PostRequest → World → Prop
  | send parse fault req, w =>
    req.method = .lit "POST" ∧ (fault.malloc = false ∧ PassesChecks parse fault.malloc req) ∧
      ¬ Unavailable fault.connection w.db req.remoteAddr ∧ RowGoesIn fault.message w.db
  | upload fault req, w =>
    req.method = .lit "POST" ∧ ¬ (req.malformed = true ∧ ∀ p ∈ req.parts, ¬ p.Stops) ∧
      (∃ last, (foundFiles req.parts).getLast? = some last ∧ last.path fault ≠ []) ∧
      ¬ Unavailable fault.connection w.db req.remoteAddr ∧ RowGoesIn fault.message w.db

/-- The request is answered once, with a header that states the length of the body, and
    adds at most one row to the history, which records the answer. -/
def MatchesWire (request : PostRequest) (w : World) : Prop :=
  ∃ r, (request.handle w).sent = w.sent ++ [r] ∧ r.contentLength = r.body.length ∧
    (messages (request.handle w).db = messages w.db ∨
      ∃ id row, messages (request.handle w).db = messages w.db ++ [(id, row)] ∧
        Records request.buildFault (request.peer w).1 row r)

end PostRequest

/-- A database that opens has had the script run on it. -/
theorem scripted_databaseOpen {fault : OpenFault} {db : Database}
    (h : (databaseOpen fault db).1 ≠ -1) : Scripted (databaseOpen fault db).2 := by
  rcases databaseOpen_cases fault db with hopen | hopen
  · exact absurd (congrArg Prod.fst hopen) h
  · rw [hopen] at h ⊢
    cases hrun : (execScript fault.exec createDatabase db).1 with
    | false =>
        rw [hrun] at h
        exact absurd rfl h
    | true =>
        exact settled_execScript _ _ _ (execScript_completed createDatabase fault.exec db _
          (Prod.ext hrun rfl))

/-- When the database opens again. -/
theorem databaseOpen_opens_iff {db : Database} (h : Scripted db) (fault : OpenFault) :
    (databaseOpen fault db).1 ≠ -1 ↔ Opens fault := by
  have hscript := execScript_fst_of_settled createDatabase fault.exec h
  unfold databaseOpen
  cases hopen : fault.sqlite3Open with
  | true =>
      refine iff_of_false (fun hne => hne rfl) fun hopens => ?_
      exact Bool.false_ne_true (hopens.sqlite3Open.symm.trans hopen)
  | false =>
      cases hread : fault.readFile with
      | true =>
          refine iff_of_false (fun hne => hne rfl) fun hopens => ?_
          exact Bool.false_ne_true (hopens.readFile.symm.trans hread)
      | false =>
          simp only [Bool.false_eq_true, if_false]
          -- What is left is the script, whose statements change nothing.
          generalize execScript fault.exec createDatabase db = result at hscript
          rcases result with ⟨ok, db'⟩
          cases ok with
          | true =>
              have hzero : (0 : Int) ≠ -1 := by omega
              exact iff_of_true hzero ⟨hopen, hread, hscript.mp rfl⟩
          | false =>
              refine iff_of_false (fun hne => hne rfl) fun hopens => ?_
              exact Bool.false_ne_true (hscript.mpr hopens.exec)

/-- A peer that has a row leaves a database with the script run on it, in which its
    connection is in use, and no message id used up. -/
theorem saveConnection_scripted {fault : ConnectionFault} {db : Database} {addr : CStr}
    (h : (saveConnection fault db addr).1 ≠ -1) :
    Scripted (saveConnection fault db addr).2 ∧
      Used (saveConnection fault db addr).2 .connection (saveConnection fault db addr).1 ∧
      Db.seq (S := serverSchema) (saveConnection fault db addr).2 .message
        = Db.seq (S := serverSchema) db .message := by
  have hseq := seq_databaseOpen fault.opening db fun s hs => (createDatabase_fills s hs).2.1
  rcases saveConnection_cases fault db addr with ⟨_, hret⟩ | ⟨hok, ⟨_, id, hrow, hret⟩ |
    ⟨_, _, hret⟩ | ⟨_, _, db', id, hins, hret⟩⟩
  · exact absurd (congrArg Prod.fst hret) h
  · rw [hret]
    have hrow' : (id, incomingPeer addr) ∈ connections (databaseOpen fault.opening db).2 := by
      rw [connections_databaseOpen]
      exact hrow
    exact ⟨scripted_databaseOpen fun hopen => hok (Or.inl hopen), ⟨_, hrow'⟩, hseq⟩
  · exact absurd (congrArg Prod.fst hret) h
  · rw [hret]
    have hscripted : Scripted (databaseOpen fault.opening db).2 :=
      scripted_databaseOpen fun hopen => hok (Or.inl hopen)
    exact ⟨hscripted.insert hins, ⟨_, (insert_fresh hins).2.2⟩,
      (seq_insert_of_ne hins (by decide)).trans hseq⟩

/-- A message of a connection in use is added when its row goes in, and otherwise
    nothing is. -/
theorem saveMessage_adds_iff {db : Database} (h : Scripted db) (fault : MessageFault)
    {row : MessageRow} (hseeded : Seeded row) (hconn : Used db .connection row.connectionId) :
    (∃ m, messages (saveMessage fault db row).2 = messages db ++ [m]) ↔ RowGoesIn fault db := by
  constructor
  · rintro ⟨m, hadded⟩
    have hopen := databaseOpen_scripted h fault.opening
    -- A failure on the way leaves the database as it is.
    by_cases hopens : (databaseOpen fault.opening db).1 = -1
    · rw [saveMessage, hopen, if_pos hopens] at hadded
      exact absurd hadded (messages_ne_of_eq rfl)
    · rcases insertRow_cases fault.insert db .message (row.bound fault.insert) with
        hfail | ⟨db', id, hret, hins⟩
      · simp only [saveMessage, hopen, if_neg hopens, messageInsert_eq, hfail] at hadded
        exact absurd hadded (messages_ne_of_eq rfl)
      · rcases insertRow_faults hret with ⟨hprepare, hstep⟩
        have hids := ((insert_isSome_iff (refs_ne .message (row.bound fault.insert))).mp
          ⟨db', id, hins⟩).2.1
        exact ⟨(databaseOpen_opens_iff h fault.opening).mp hopens, hprepare, hstep, hids⟩
  · intro hgoes
    rcases saveMessage_inserts h ((databaseOpen_opens_iff h fault.opening).mpr hgoes.opens)
      hgoes.prepare hgoes.step hseeded hconn hgoes.ids with ⟨db', id, hret, _, hins⟩
    rw [hret]
    exact ⟨_, rows_insert hins⟩

/-- What a request adds whose peer has a row is what `save_message` adds. -/
theorem adds_iff_rowGoesIn {connection : ConnectionFault} {db db' : Database} {addr : CStr}
    {fault : MessageFault} {row : MessageRow}
    (hconn : (saveConnection connection db addr).1 ≠ -1) (hseeded : Seeded row)
    (hrow : row.connectionId = (saveConnection connection db addr).1)
    (hdb : db' = (saveMessage fault (saveConnection connection db addr).2 row).2) :
    (∃ m, messages db' = messages db ++ [m]) ↔ RowGoesIn fault db := by
  rcases saveConnection_scripted hconn with ⟨hscripted, hused, hseq⟩
  have hadds := saveMessage_adds_iff hscripted fault hseeded (hrow ▸ hused)
  rw [hdb, ← messages_saveConnection connection db addr, hadds]
  constructor
  · exact fun h => ⟨h.opens, h.prepare, h.step, hseq ▸ h.ids⟩
  · exact fun h => ⟨h.opens, h.prepare, h.step, hseq.symm ▸ h.ids⟩

/-- Which texts get a row. -/
theorem send_recorded_iff (parse : CStr → Option CJson) (fault : SendFault) (req : SendRequest)
    (w : World) :
    (∃ m, messages (apiSendHandler parse fault req w).db = messages w.db ++ [m]) ↔
      (PostRequest.send parse fault req).Recorded w := by
  have hsame := messages_saveConnection fault.connection w.db req.remoteAddr
  rw [PostRequest.Recorded, ← readRequest_accepts_iff, ← saveConnection_none_iff]
  by_cases hmethod : req.method = .lit "POST"
  · cases hread : readRequest parse fault.malloc req with
    | error e =>
        rw [apiSendHandler_rejected parse fault req w hmethod hread]
        refine iff_of_false (fun ⟨m, h⟩ => absurd h (messages_ne_of_eq hsame)) ?_
        rintro ⟨_, ⟨accepted, h⟩, _⟩
        simp only [reduceCtorEq] at h
    | ok accepted =>
        rw [apiSendHandler_accepted parse fault req w hmethod hread, answerSend_db]
        by_cases hconn : (saveConnection fault.connection w.db req.remoteAddr).1 = -1
        · rw [if_neg (not_not_intro hconn)]
          exact iff_of_false (fun ⟨m, h⟩ => absurd h (messages_ne_of_eq hsame))
            fun h => h.2.2.1 hconn
        · rw [if_pos hconn, adds_iff_rowGoesIn hconn (seeded_sendRow ..) rfl rfl]
          exact ⟨fun h => ⟨hmethod, ⟨accepted, rfl⟩, hconn, h⟩, fun h => h.2.2.2⟩
  · rw [apiSendHandler_method parse fault req w hmethod]
    exact iff_of_false (fun ⟨m, h⟩ => absurd h (messages_ne_of_eq rfl)) fun h => hmethod h.1

/-- The path of the form is that of its last file part. -/
theorem uploadForm_last (fault : UploadFault) (req : UploadRequest) (files : Files) :
    (uploadForm fault req files).2.ctx.path ≠ [] ↔
      ∃ last, (foundFiles req.parts).getLast? = some last ∧ last.path fault ≠ [] := by
  rw [uploadForm_context]
  cases (foundFiles req.parts).getLast? with
  | none => simp only [Option.map_none, Option.getD_none, ne_eq, not_true_eq_false, reduceCtorEq,
      false_and, exists_false]
  | some last => simp only [Option.map_some, Option.getD_some, Option.some.injEq, exists_eq_left']

/-- Which uploads get a row. -/
theorem upload_recorded_iff (fault : UploadFault) (req : UploadRequest) (w : World) :
    (∃ m, messages (apiUploadHandler fault req w).db = messages w.db ++ [m]) ↔
      (PostRequest.upload fault req).Recorded w := by
  have hsame := messages_saveConnection fault.connection w.db req.remoteAddr
  rw [PostRequest.Recorded, ← uploadForm_fields fault req w.files,
    ← uploadForm_last fault req w.files, ← saveConnection_none_iff]
  -- The answers that come before `save_message`, then the one after it.
  cases uploadWay fault req w with
  | method hmethod =>
      rw [apiUploadHandler_method fault req w hmethod]
      exact iff_of_false (fun ⟨m, h⟩ => absurd h (messages_ne_of_eq rfl)) fun h => hmethod h.1
  | form hmethod hform =>
      rw [apiUploadHandler_form fault req w hmethod hform]
      exact iff_of_false (fun ⟨m, h⟩ => absurd h (messages_ne_of_eq rfl)) fun h => h.2.1 hform
  | noFile hmethod hform hpath =>
      rw [apiUploadHandler_noFile fault req w hmethod hform hpath]
      exact iff_of_false (fun ⟨m, h⟩ => absurd h (messages_ne_of_eq rfl)) fun h => h.2.2.1 hpath
  | noConnection hmethod hform hpath hconn =>
      rw [apiUploadHandler_noConnection fault req w hmethod hform hpath hconn]
      exact iff_of_false (fun ⟨m, h⟩ => absurd h (messages_ne_of_eq hsame))
        fun h => h.2.2.2.1 hconn
  | ok hmethod hform hpath hconn =>
      rw [adds_iff_rowGoesIn hconn (seeded_uploadRow ..) rfl
        (apiUploadHandler_db hmethod hform hpath hconn)]
      exact ⟨fun h => ⟨hmethod, hform, hpath, hconn, h⟩, fun h => h.2.2.2.2⟩

namespace PostRequest

/-- Which requests get a row. -/
theorem recorded_iff (request : PostRequest) (w : World) :
    (∃ m, messages (request.handle w).db = messages w.db ++ [m]) ↔ request.Recorded w := by
  cases request with
  | send parse fault req => exact send_recorded_iff parse fault req w
  | upload fault req => exact upload_recorded_iff fault req w

/-- Whatever fails, the history equals the wire exactly if the response of the row is
    bound, or there is no text to bind, or the request gets no row. -/
theorem matches_wire_iff (request : PostRequest) (w : World) :
    request.MatchesWire w ↔
      request.messageFault.insert.bind 5 = false ∨ request.buildFault.object = true ∨
        request.buildFault.print = true ∨ ¬ request.Recorded w := by
  rcases request.answer w with ⟨r, hsent, hbuilt⟩
  rcases request.recorded w with ⟨r', hsent', hlength, hadded⟩
  rw [hsent, List.append_cancel_left_eq, List.cons.injEq] at hsent'
  rcases hsent' with ⟨rfl, _⟩
  rw [← recorded_iff]
  rcases hadded with hsame | ⟨id, row, hrow, hrecords⟩
  · refine iff_of_true ⟨r, hsent, hlength, Or.inl hsame⟩ (Or.inr (Or.inr (Or.inr ?_)))
    rintro ⟨m, h⟩
    exact absurd h (messages_ne_of_eq hsame)
  · have hthere : ∃ m, messages (request.handle w).db = messages w.db ++ [m] := ⟨_, hrow⟩
    rw [or_iff_left (not_not_intro hthere)]
    constructor
    · rintro ⟨r', hsent', _, hadded⟩
      rw [hsent, List.append_cancel_left_eq, List.cons.injEq] at hsent'
      rcases hsent' with ⟨rfl, _⟩
      -- The row is the one that was added, and it records the answer.
      rcases hadded with hsame | ⟨id', row', hrow', hmatches⟩
      · exact absurd hrow (messages_ne_of_eq hsame)
      · rw [hrow, List.append_cancel_left_eq, List.cons.injEq, Prod.mk.injEq] at hrow'
        rcases hrow' with ⟨⟨rfl, rfl⟩, _⟩
        cases hbind : request.messageFault.insert.bind 5 with
        | false => exact Or.inl rfl
        | true => exact Or.inr (hmatches.null (hrecords.lost hbind)).2
    · intro hwhen
      refine ⟨r, hsent, hlength, Or.inr ⟨id, row, hrow, ?_⟩⟩
      cases hbind : request.messageFault.insert.bind 5 with
      | false => exact hrecords.bound hbind
      | true =>
          -- Nothing is sent where nothing was built, and nothing is stored.
          have hnone := hwhen.resolve_left fun h => Bool.false_ne_true (h.symm.trans hbind)
          have hnull := hrecords.lost hbind
          exact ⟨fun s hs => absurd (hnull.symm.trans hs) (Option.some_ne_none s).symm,
            fun _ => ⟨hbuilt.body_nil hnone, hnone⟩, hrecords.status, hrecords.direction,
            hrecords.connection⟩

/-- The response of the history row cannot be copied. -/
def responseLost : UploadFault :=
  { UploadFault.none 512 (.lit "2026-03-01 12:00:00") with
    message := ⟨.none, { StmtFault.none with bind := fun idx => idx = 5 }⟩ }

/-- The row of an upload whose response cannot be copied has none, and the answer has a
    body. -/
theorem matches_wire_response_lost :
    ¬ ∀ (request : PostRequest) (w : World), request.MatchesWire w := by
  intro h
  rcases h (.upload responseLost (uploadOf [.lit "a.txt"])) createdWorld with
    ⟨r, hsent, _, hsame | ⟨id, row, hrow, hrecords⟩⟩
  · exact absurd hsame (by decide)
  · have hresponses : (messages (handle (.upload responseLost (uploadOf [.lit "a.txt"]))
        createdWorld).db).map (fun m => m.2.response) = [none] := by rfl
    rw [hrow] at hresponses
    -- A row without a response goes with a text that could not be built, but it was.
    rcases (hrecords.null (List.cons.inj hresponses).1).2 with hobject | hprint
    · exact Bool.false_ne_true hobject
    · exact Bool.false_ne_true hprint

end PostRequest

end Server

end SendingSystem
