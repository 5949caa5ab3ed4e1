import SendingSystem.Server.FileHandles
import SendingSystem.Server.Harmless
import SendingSystem.Server.History
import SendingSystem.Server.Peers

/-!
# Which files the history names

An upload that is answered 200 adds one row to the history, with the path that is
in the context when the form has ended. `on_field_found` puts the path there, for
every file part, before the file is opened. So the row names the last file part
the form gets to, and no other one, whether it is stored or not.

## Main definitions

* `storedFiles`: The file parts that are stored.
* `SavesMessage`: The history row of the request is saved.
* `addedMessages`: The rows a request added.
* `NamesStored`: The paths recorded are the paths stored.
* `LastNamesAll`: The last file part goes where the stored ones go.

## Theorems

* `form_context`: The context has the path of the last file part.
* `form_stored`: `on_field_store` is called for the paths of the stored parts.
* `addedMessages_upload`: The one row an upload adds.
* `savesMessage_applied`: The row is saved when nothing fails.
* `upload_namesStored_iff`: When the history names the stored files.
-/

namespace SendingSystem

namespace Server

open CString

instance : DecidablePred Part.Stored := fun p =>
  inferInstanceAs (Decidable (p.fopen = false ∧ p.write = false))

/-- The file parts a form gets to that are stored. -/
def storedFiles (parts : List Part) : List Part := (foundFiles parts).filter (fun p => p.Stored)

/-- Saving the history row of the request does not fail: the row is in, with its
    request bound. -/
def SavesMessage (fault : UploadFault) (req : UploadRequest) (w : World) : Prop :=
  let connection := saveConnection fault.connection w.db req.remoteAddr
  (saveMessage fault.message connection.2
    (uploadRow fault connection.1 (uploadForm fault req w.files).2.ctx.path)).1 ≠ -1 ∧
    fault.message.insert.bind 7 = false

/-- The rows past the end of the history before. -/
def addedMessages (w w' : World) : List (Int × MessageRow) :=
  (messages w'.db).drop (messages w.db).length

/-- Every path that was stored is the request of a row that was added, and every row
    that was added has a path that was stored. -/
structure NamesStored (fault : UploadFault) (req : UploadRequest) (w : World) : Prop where
  stored : ∀ path ∈ (uploadLogs fault req w).stored,
    ∃ m ∈ addedMessages w (apiUploadHandler fault req w), m.2.request = some (heapString path)
  recorded : ∀ m ∈ addedMessages w (apiUploadHandler fault req w),
    ∃ path ∈ (uploadLogs fault req w).stored, m.2.request = some (heapString path)

/-- The last file part the form gets to goes where a stored one goes, and where all
    stored ones go. -/
def LastNamesAll (fault : UploadFault) (parts : List Part) : Prop :=
  ∃ last, (foundFiles parts).getLast? = some last ∧
    (∃ p ∈ storedFiles parts, p.path fault = last.path fault) ∧
    ∀ p ∈ storedFiles parts, p.path fault = last.path fault

section Form

variable (fault : UploadFault) (malformed : Bool)

/-- What one part does to the path and to the paths stored. -/
theorem handlePart_context (part : Part) (s : FormState) :
    (part.isFile = false ∧ handlePart fault.regcomp fault.pathlen part s = (false, s)) ∨
    (part.isFile = true ∧ ∃ s', handlePart fault.regcomp fault.pathlen part s = (part.fopen, s') ∧
      s'.ctx.path = contextPath (part.path fault) ∧
      s'.stored = s.stored ++ if part.Stored then [part.path fault] else []) := by
  -- The path is set when the part is found, whatever comes of its file.
  rcases handlePart_cases fault.regcomp fault.pathlen part s with hget |
    ⟨hfile, stops, s', hpart, rfl, hpath, _, ⟨hok, hstored⟩ | ⟨hno, hstored⟩⟩
  · exact Or.inl hget
  · refine Or.inr ⟨hfile, s', hpart, hpath, ?_⟩
    rw [if_pos hok]
    exact hstored
  · refine Or.inr ⟨hfile, s', hpart, hpath, ?_⟩
    rw [if_neg hno, List.append_nil]
    exact hstored

/-- The context has the path of the last file part the form gets to. -/
theorem form_context : ∀ (parts : List Part) (seen : Nat) (s : FormState),
    (handleFormRequest fault.regcomp fault.pathlen malformed parts seen s).2.ctx.path
      = ((foundFiles parts).getLast?.map (fun p => contextPath (p.path fault))).getD
        s.ctx.path := by
  intro parts
  induction parts with
  | nil => exact fun seen s => rfl
  | cons part parts ih =>
      intro seen s
      rw [foundFiles]
      rcases handlePart_context fault part s with ⟨hfile, hget⟩ | ⟨hfile, s', hset, hpath, _⟩
      · rw [handleFormRequest_cons fault.regcomp fault.pathlen malformed hget,
          if_neg Bool.false_ne_true, hfile, if_neg Bool.false_ne_true]
        exact ih (seen + 1) s
      · rw [handleFormRequest_cons fault.regcomp fault.pathlen malformed hset, hfile, if_pos rfl]
        cases part.fopen with
        -- The form ends with a part that cannot be opened, and its path stays.
        | true => exact hpath
        | false =>
            rw [if_neg Bool.false_ne_true, if_neg Bool.false_ne_true, ih (seen + 1) s', hpath,
              List.getLast?_cons]
            cases (foundFiles parts).getLast? with
            | none => rfl
            | some last => rfl

/-- `on_field_store` is called for the paths of the stored parts, in order. -/
theorem form_stored : ∀ (parts : List Part) (seen : Nat) (s : FormState),
    (handleFormRequest fault.regcomp fault.pathlen malformed parts seen s).2.stored
      = s.stored ++ (storedFiles parts).map (Part.path fault) := by
  intro parts
  induction parts with
  | nil => exact fun seen s => (List.append_nil _).symm
  | cons part parts ih =>
      intro seen s
      rw [storedFiles, foundFiles]
      rcases handlePart_context fault part s with ⟨hfile, hget⟩ | ⟨hfile, s', hset, _, hstored⟩
      · rw [handleFormRequest_cons fault.regcomp fault.pathlen malformed hget,
          if_neg Bool.false_ne_true, hfile, if_neg Bool.false_ne_true]
        exact ih (seen + 1) s
      · rw [handleFormRequest_cons fault.regcomp fault.pathlen malformed hset, hfile, if_pos rfl]
        -- A file that does not open stops the form.
        cases hopen : part.fopen with
        | true =>
            have hno : ¬ part.Stored := fun h => Bool.false_ne_true (h.1.symm.trans hopen)
            rw [if_pos rfl, if_pos rfl, hstored, if_neg hno, List.filter_cons_of_neg]
            · rfl
            · exact fun h => hno (of_decide_eq_true h)
        | false =>
            rw [if_neg Bool.false_ne_true, if_neg Bool.false_ne_true, ih (seen + 1) s', hstored,
              storedFiles, List.filter_cons]
            by_cases hok : part.Stored
            · rw [if_pos hok, decide_eq_true hok, if_pos rfl, List.append_assoc]
              rfl
            · rw [if_neg hok, decide_eq_false hok, if_neg Bool.false_ne_true, List.append_nil]

end Form

/-- The context holds every path that is found. -/
theorem contextPath_path (fault : UploadFault) (p : Part) :
    contextPath (p.path fault) = p.path fault := by
  have hlen := length_storedPath (sanitizedName_safe fault.regcomp p.filename)
  rw [contextPath, snprintf, Part.path, foundPath, savePath, safeName_eq, snprintf]
  refine List.take_of_length_le ?_
  rw [List.length_take]
  omega

/-- The path a form leaves is that of the last file part. -/
theorem uploadForm_context (fault : UploadFault) (req : UploadRequest) (files : Files) :
    (uploadForm fault req files).2.ctx.path
      = ((foundFiles req.parts).getLast?.map (Part.path fault)).getD [] := by
  rw [uploadForm, FormState.path_close, form_context]
  simp only [contextPath_path]
  rfl

/-- Paths are C strings. -/
theorem noNul_path (fault : UploadFault) (p : Part) : 0 ∉ p.path fault := by
  intro h
  rw [Part.path, foundPath, savePath, safeName_eq, snprintf] at h
  have hmem := List.mem_of_mem_take h
  rw [storedPath, List.mem_append, List.mem_cons] at hmem
  rcases hmem with hdir | hslash | hname
  · exact absurd hdir (by decide)
  · exact absurd hslash (by decide)
  · exact (sanitizedName_safe fault.regcomp p.filename).noNul hname

/-- Different paths are recorded differently. -/
theorem heapString_path_inj {fault : UploadFault} {p q : Part}
    (h : heapString (p.path fault) = heapString (q.path fault)) : p.path fault = q.path fault := by
  rw [← heapString_bytes (noNul_path fault p), h, heapString_bytes (noNul_path fault q)]

/-- The one row an upload adds that is answered 200, and its request. -/
theorem addedMessages_upload {fault : UploadFault} {req : UploadRequest} {w : World}
    (hanswer : Answers w (apiUploadHandler fault req w) 200) (hsaves : SavesMessage fault req w) :
    ∃ id row last, (foundFiles req.parts).getLast? = some last ∧
      (uploadLogs fault req w).stored = (storedFiles req.parts).map (Part.path fault) ∧
      addedMessages w (apiUploadHandler fault req w) = [(id, row)] ∧
      row.request = some (heapString (last.path fault)) := by
  by_cases hmethod : req.method = .lit "POST"
  · rcases (upload_passes_iff hmethod).mp hanswer with ⟨hform, hpath, hconn⟩
    have hcontext := uploadForm_context fault req w.files
    have hstored : (uploadLogs fault req w).stored
        = (storedFiles req.parts).map (Part.path fault) := by
      rw [uploadLogs, if_neg (not_not_intro hmethod), uploadForm, FormState.stored_close,
        form_stored]
      rfl
    cases hlast : (foundFiles req.parts).getLast? with
    | none =>
        rw [hlast] at hcontext
        exact absurd hcontext hpath
    | some last =>
        rw [hlast, Option.map_some, Option.getD_some] at hcontext
        rw [SavesMessage, hcontext] at hsaves
        -- The row is built from the path that was set last.
        rcases saveMessage_cases fault.message
          (saveConnection fault.connection w.db req.remoteAddr).2
          (uploadRow fault (saveConnection fault.connection w.db req.remoteAddr).1
            (last.path fault)) with ⟨hfail, _⟩ | ⟨id, hrow⟩
        · exact absurd hfail hsaves.1
        · have hnamed := dbBindTextOrNull_of_bound (some (heapString (last.path fault))) hsaves.2
          refine ⟨id, (uploadRow fault (saveConnection fault.connection w.db req.remoteAddr).1
            (last.path fault)).bound fault.message.insert, last, rfl, hstored, ?_, hnamed⟩
          rw [addedMessages, apiUploadHandler_db hmethod hform hpath hconn, hcontext, hrow,
            messages_saveConnection, List.drop_left]
  · have hsent : (apiUploadHandler fault req w).sent
        = w.sent ++ [httpSendError fault.build 405 (.lit "POST required")] := by
      rw [apiUploadHandler_method fault req w hmethod]
      rfl
    rw [answers_iff hsent, httpSendError_status] at hanswer
    omega

/-- With the schema in place and no failure the row is saved, while an id is left. -/
theorem savesMessage_applied {fault : UploadFault} {req : UploadRequest} {w : World}
    (h : Applied w.db) (hmessage : fault.message = .none)
    (hconn : (saveConnection fault.connection w.db req.remoteAddr).1 ≠ -1)
    (hids : Db.seq (S := serverSchema) w.db .message < maxRowid) : SavesMessage fault req w := by
  have hopen := databaseOpen_applied h fault.connection.opening
  have hpeer : ∃ id db, saveConnection fault.connection w.db req.remoteAddr = (id, db) ∧
      Applied db ∧ Used db .connection id ∧ Db.seq (S := serverSchema) db .message < maxRowid := by
    -- The peer's row was there or is inserted; without one there is no message either.
    rcases saveConnection_cases fault.connection w.db req.remoteAddr with ⟨_, hret⟩ |
      ⟨_, ⟨_, id, hrow, hret⟩ | ⟨_, _, hret⟩ | ⟨_, _, db, id, hins, hret⟩⟩
    · exact absurd (congrArg Prod.fst hret) hconn
    · rw [hopen] at hret
      exact ⟨id, w.db, hret, h, ⟨_, hrow⟩, hids⟩
    · exact absurd (congrArg Prod.fst hret) hconn
    · rw [hopen] at hins
      refine ⟨id, db, hret, h.insert hins, ⟨_, (insert_fresh hins).2.2⟩, ?_⟩
      rw [seq_insert_of_ne hins (by decide)]
      exact hids
  rcases hpeer with ⟨id, db, hret, happlied, hused, hleft⟩
  rw [SavesMessage, hret, hmessage]
  exact ⟨saveMessage_works happlied (seeded_uploadRow ..) hused hleft, rfl⟩

/-- For every upload that is answered 200 and whose history row is saved: the paths
    recorded are the paths stored exactly when the last file part the form gets to
    goes where the stored ones go. -/
theorem upload_namesStored_iff (fault : UploadFault) (req : UploadRequest) (w : World)
    (hanswer : Answers w (apiUploadHandler fault req w) 200) (hsaves : SavesMessage fault req w) :
    NamesStored fault req w ↔ LastNamesAll fault req.parts := by
  -- There is one row, so all the stored paths are its path, and it is one of them.
  rcases addedMessages_upload hanswer hsaves with ⟨id, row, last, hlast, hstored, hadded, hnamed⟩
  constructor
  · intro h
    refine ⟨last, hlast, ?_, fun p hp => ?_⟩
    · rcases h.recorded _ (hadded ▸ List.mem_cons_self) with ⟨path, hpath, hrequest⟩
      rw [hstored, List.mem_map] at hpath
      rcases hpath with ⟨p, hp, rfl⟩
      rw [hnamed, Option.some.injEq] at hrequest
      exact ⟨p, hp, (heapString_path_inj hrequest).symm⟩
    · have hmem : p.path fault ∈ (uploadLogs fault req w).stored := by
        rw [hstored]
        exact List.mem_map_of_mem hp
      rcases h.stored _ hmem with ⟨m, hm, hrequest⟩
      rw [hadded, List.mem_singleton] at hm
      rw [hm, hnamed, Option.some.injEq] at hrequest
      exact (heapString_path_inj hrequest).symm
  · rintro ⟨last', hlast', ⟨q, hq, hqpath⟩, hall⟩
    rw [hlast] at hlast'
    cases hlast'
    refine ⟨fun path hpath => ?_, fun m hm => ?_⟩
    · rw [hstored, List.mem_map] at hpath
      rcases hpath with ⟨p, hp, rfl⟩
      refine ⟨_, hadded ▸ List.mem_cons_self, ?_⟩
      rw [hall p hp]
      exact hnamed
    · rw [hadded, List.mem_singleton] at hm
      refine ⟨q.path fault, ?_, ?_⟩
      · rw [hstored]
        exact List.mem_map_of_mem hq
      · rw [hm, hqpath]
        exact hnamed

/-- A part that is stored. -/
def storedPart (filename : CStr) : Part := ⟨some filename, [104, 105], false, false⟩

/-- An upload of these files, which are stored. -/
def uploadOf (filenames : List CStr) : UploadRequest :=
  ⟨.lit "POST", .lit "10.0.0.7", filenames.map storedPart, false⟩

/-- An upload of one file is answered 200 and recorded, so its file is named. -/
theorem upload_namesStored_one :
    Answers createdWorld (apiUploadHandler (.none 512 (.lit "2026-03-01 12:00:00"))
      (uploadOf [.lit "a.txt"]) createdWorld) 200 ∧
    SavesMessage (.none 512 (.lit "2026-03-01 12:00:00")) (uploadOf [.lit "a.txt"]) createdWorld ∧
    (NamesStored (.none 512 (.lit "2026-03-01 12:00:00")) (uploadOf [.lit "a.txt"]) createdWorld ↔
      LastNamesAll (.none 512 (.lit "2026-03-01 12:00:00")) (uploadOf [.lit "a.txt"]).parts) := by
  have hanswer : Answers createdWorld (apiUploadHandler (.none 512 (.lit "2026-03-01 12:00:00"))
      (uploadOf [.lit "a.txt"]) createdWorld) 200 := ⟨_, rfl, rfl⟩
  have hsaves : SavesMessage (.none 512 (.lit "2026-03-01 12:00:00")) (uploadOf [.lit "a.txt"])
      createdWorld := ⟨by decide, rfl⟩
  exact ⟨hanswer, hsaves, upload_namesStored_iff _ _ _ hanswer hsaves⟩

/-- Of two files that are stored the history names the second only. -/
theorem upload_namesStored_two : ¬ ∀ (fault : UploadFault) (req : UploadRequest) (w : World),
    Answers w (apiUploadHandler fault req w) 200 → SavesMessage fault req w →
    NamesStored fault req w := by
  intro h
  have hanswer : Answers createdWorld (apiUploadHandler (.none 512 (.lit "2026-03-01 12:00:00"))
      (uploadOf [.lit "a.txt", .lit "b.txt"]) createdWorld) 200 := ⟨_, rfl, rfl⟩
  have hsaves : SavesMessage (.none 512 (.lit "2026-03-01 12:00:00"))
      (uploadOf [.lit "a.txt", .lit "b.txt"]) createdWorld := ⟨by decide, rfl⟩
  rcases addedMessages_upload hanswer hsaves with ⟨id, row, last, hlast, hstored, hadded, hnamed⟩
  cases hlast
  -- The first part was stored, so a row would have to name it; the only row names the
  -- second.
  have hfirst := (h _ _ _ hanswer hsaves).stored
    (Part.path (.none 512 (.lit "2026-03-01 12:00:00")) (storedPart (.lit "a.txt")))
    (hstored ▸ List.mem_cons_self)
  rcases hfirst with ⟨m, hm, hrequest⟩
  rw [hadded, List.mem_singleton] at hm
  rw [hm, hnamed, Option.some.injEq] at hrequest
  have hsame : foundPath true 512 (some (.lit "b.txt"))
      = foundPath true 512 (some (.lit "a.txt")) :=
    heapString_path_inj hrequest
  have hcap : fullPathSize ≤ 512 := by decide
  rw [foundPath_eq _ hcap, foundPath_eq _ hcap] at hsame
  exact absurd (storedPath_injective hsame) (by decide)

end Server

end SendingSystem
