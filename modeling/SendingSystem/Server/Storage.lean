import SendingSystem.Server.ApiUpload
import SendingSystem.Server.SaveConnection

/-!
# What a success answer says about the files

The send handler looks only at whether the file could be opened: what `fputs` and
`fclose` report is dropped, so a text may be answered 200 and not be there in
full. It also writes the text as a C string, so a NUL in it ends the file, and reads
the name as one, so a name that begins with a NUL is none and nothing is saved. The
upload handler looks at the parser's result, which is not negative when a part
was aborted, and at whether a path was ever set, which `on_field_found` does
before it tries to open the file; so an upload may be answered 200 with a part
that was not stored.

Each handler's exact condition is proved, the second from one lemma for each
thing a part can do and an induction over the form.

## Main definitions

* `Loses`: An operation stops short of the end of some bytes.
* `Part.isFile`: The part has a file name.
* `Part.Stored`: It is opened and written.

## Theorems

* `stored_complete_iff`: When a stored text is complete.
* `handlePart_get`, `handlePart_abort`, `handlePart_lost`, `handlePart_stored`: One part.
* `form_fields`, `form_path`, `form_found`: The form.
* `upload_passes_iff`, `upload_answers_iff`: When an upload is answered 200.
* `needSave_named`: Which names are taken for none.
* `save_success_iff`, `upload_success_iff`: Either handler.
* `success_means_stored_iff`: When a success answer means that the data is stored.
-/

namespace SendingSystem

namespace Server

open CString CJson

/-- An operation that stops after `kept` bytes stops short of the end. -/
def Loses (kept : Option Nat) (data : List UInt8) : Prop := ∃ k, kept = some k ∧ k < data.length

theorem keep_eq_iff (kept : Option Nat) (data : List UInt8) :
    keep kept data = data ↔ ¬ Loses kept data := by
  cases kept with
  | none => simp only [keep, Loses, reduceCtorEq, false_and, exists_false, not_false_eq_true]
  | some k =>
      simp only [keep, Loses, Option.some.injEq, exists_eq_left', List.take_eq_self_iff, not_lt]

theorem length_keep_le (kept : Option Nat) (data : List UInt8) :
    (keep kept data).length ≤ data.length := by
  cases kept with
  | none => exact Nat.le_refl _
  | some k =>
      rw [keep, List.length_take]
      omega

/-- A text is stored in full when it has no NUL and no operation stops short. -/
theorem stored_complete_iff (fault : FileFault) (data : List UInt8) :
    keep fault.fclose (keep fault.fputs (truncate data)) = data ↔
      0 ∉ data ∧ ¬ Loses fault.fputs data ∧ ¬ Loses fault.fclose data := by
  constructor
  · intro h
    -- Nothing is longer than what it came from, so all lengths are equal.
    have h₁ := length_keep_le fault.fclose (keep fault.fputs (truncate data))
    have h₂ := length_keep_le fault.fputs (truncate data)
    have h₃ := (truncate_initial data).length_le
    rw [h] at h₁
    have htrunc : truncate data = data := (truncate_initial data).eq_of_length (by omega)
    have hputs : keep fault.fputs data = data := by
      have hprefix : keep fault.fputs data <+: data := by
        cases fault.fputs with
        | none => exact List.prefix_refl _
        | some k => exact List.take_prefix k data
      rw [htrunc] at h₁
      exact hprefix.eq_of_length (by have := hprefix.length_le; omega)
    rw [htrunc, hputs] at h
    refine ⟨?_, (keep_eq_iff _ _).mp hputs, (keep_eq_iff _ _).mp h⟩
    rw [← htrunc]
    exact noNul_truncate data
  -- Conversely nothing on the way cuts anything off.
  · rintro ⟨hnul, hputs, hclose⟩
    rw [truncate_of_noNul data hnul, (keep_eq_iff _ _).mpr hputs, (keep_eq_iff _ _).mpr hclose]

/-- The part has a file name that is not empty. -/
def Part.isFile (p : Part) : Bool :=
  match p.filename with
  | none => false
  | some filename => filename.bytes ≠ []

/-- The part can be opened and written. -/
def Part.Stored (p : Part) : Prop := p.fopen = false ∧ p.write = false

section Part

variable {regcomp : Bool} {pathlen : Nat} {part : Part} {s : FormState}

/-- A plain field changes nothing. -/
theorem handlePart_get (h : part.isFile = false) :
    handlePart regcomp pathlen part s = (false, s) := by
  unfold Part.isFile at h
  unfold handlePart onFieldFound
  cases hname : part.filename with
  | none => rfl
  | some filename =>
      simp only [hname, decide_eq_false_iff_not, not_not] at h
      simp only [h, if_true]

/-- A file that cannot be opened stops the form, its path set. -/
theorem handlePart_abort (h : part.isFile = true) (hopen : part.fopen = true) :
    handlePart regcomp pathlen part s
      = (true, { s with ctx := ⟨none, contextPath (foundPath regcomp pathlen part.filename)⟩
                        found := s.found ++ [foundPath regcomp pathlen part.filename] }) := by
  unfold Part.isFile at h
  unfold handlePart onFieldFound
  cases hname : part.filename with
  | none => simp only [hname, Bool.false_eq_true] at h
  | some filename =>
      simp only [hname, decide_eq_true_eq] at h
      simp only [h, hopen, if_true, if_false]

/-- A file that cannot be written is removed, with no call of `on_field_store`. -/
theorem handlePart_lost (h : part.isFile = true) (hopen : part.fopen = false)
    (hwrite : part.write = true) :
    ∃ files, handlePart regcomp pathlen part s
      = (false, { s with
          ctx := ⟨some s.opened, contextPath (foundPath regcomp pathlen part.filename)⟩
          files := files
          opened := s.opened + 1
          found := s.found ++ [foundPath regcomp pathlen part.filename] }) := by
  unfold Part.isFile at h
  unfold handlePart onFieldFound
  cases hname : part.filename with
  | none => simp only [hname, Bool.false_eq_true] at h
  | some filename =>
      simp only [hname, decide_eq_true_eq] at h
      -- The file is open, and `on_field_store` is not called for it.
      simp only [h, hopen, hwrite, if_true, if_false, Bool.false_eq_true]
      exact ⟨_, rfl⟩

/-- A file that is written is closed and logged. -/
theorem handlePart_stored (h : part.isFile = true) (hstored : part.Stored) :
    ∃ files, handlePart regcomp pathlen part s
      = (false, {
          ctx := ⟨none, contextPath (foundPath regcomp pathlen part.filename)⟩
          files := files
          opened := s.opened + 1
          closed := s.closed ++ [s.opened]
          found := s.found ++ [foundPath regcomp pathlen part.filename]
          stored := s.stored ++ [foundPath regcomp pathlen part.filename] }) := by
  unfold Part.isFile at h
  unfold handlePart onFieldFound
  cases hname : part.filename with
  | none => simp only [hname, Bool.false_eq_true] at h
  | some filename =>
      simp only [hname, decide_eq_true_eq] at h
      -- `on_field_store` closes what `on_field_found` has opened.
      simp only [h, hstored.1, hstored.2, if_false, Bool.false_eq_true]
      exact ⟨_, rfl⟩

end Part

/-- What a part does to the path and the logs. -/
theorem handlePart_cases (regcomp : Bool) (pathlen : Nat) (part : Part) (s : FormState) :
    (part.isFile = false ∧ handlePart regcomp pathlen part s = (false, s)) ∨
    (part.isFile = true ∧ ∃ stops s', handlePart regcomp pathlen part s = (stops, s') ∧
      stops = part.fopen ∧
      s'.ctx.path = contextPath (foundPath regcomp pathlen part.filename) ∧
      s'.found = s.found ++ [foundPath regcomp pathlen part.filename] ∧
      ((part.Stored ∧ s'.stored = s.stored ++ [foundPath regcomp pathlen part.filename]) ∨
        (¬ part.Stored ∧ s'.stored = s.stored))) := by
  cases hfile : part.isFile with
  | false => exact Or.inl ⟨rfl, handlePart_get hfile⟩
  | true =>
      right
      refine ⟨rfl, ?_⟩
      -- The part is aborted at `fopen`, lost while it is written, or stored.
      cases hopen : part.fopen with
      | true =>
          refine ⟨_, _, handlePart_abort hfile hopen, rfl, rfl, rfl, Or.inr ⟨fun h => ?_, rfl⟩⟩
          exact Bool.false_ne_true (h.1.symm.trans hopen)
      | false =>
          cases hwrite : part.write with
          | true =>
              rcases @handlePart_lost regcomp pathlen part s hfile hopen hwrite with ⟨files, h⟩
              refine ⟨_, _, h, rfl, rfl, rfl, Or.inr ⟨fun h => ?_, rfl⟩⟩
              exact Bool.false_ne_true (h.2.symm.trans hwrite)
          | false =>
              rcases @handlePart_stored regcomp pathlen part s hfile ⟨hopen, hwrite⟩ with ⟨files, h⟩
              exact ⟨_, _, h, rfl, rfl, rfl, Or.inl ⟨⟨hopen, hwrite⟩, rfl⟩⟩

@[simp]
theorem FormState.path_close (s : FormState) : s.close.ctx.path = s.ctx.path := by
  unfold FormState.close
  split <;> rfl

@[simp]
theorem FormState.found_close (s : FormState) : s.close.found = s.found := by
  unfold FormState.close
  split <;> rfl

@[simp]
theorem FormState.stored_close (s : FormState) : s.close.stored = s.stored := by
  unfold FormState.close
  split <;> rfl

/-- A part that stops the form: a file that cannot be opened. -/
def Part.Stops (p : Part) : Prop := p.isFile = true ∧ p.fopen = true

section Form

variable (regcomp : Bool) (pathlen : Nat) (malformed : Bool)

/-- One part of a form, and the rest of it. -/
theorem handleFormRequest_cons {part : Part} {s s' : FormState} {stops : Bool}
    (hpart : handlePart regcomp pathlen part s = (stops, s')) (parts : List Part) (seen : Nat) :
    handleFormRequest regcomp pathlen malformed (part :: parts) seen s
      = if stops then ((seen : Int), s')
        else handleFormRequest regcomp pathlen malformed parts (seen + 1) s' := by
  cases stops <;> simp only [handleFormRequest, hpart, if_true, Bool.false_eq_true, if_false]

/-- What every part keeps, a form keeps. -/
theorem form_invariant (P : FormState → Prop)
    (hpart : ∀ part s, P s → P (handlePart regcomp pathlen part s).2) :
    ∀ (parts : List Part) (seen : Nat) (s : FormState), P s →
      P (handleFormRequest regcomp pathlen malformed parts seen s).2 := by
  intro parts
  induction parts with
  | nil => exact fun seen s h => h
  | cons part parts ih =>
      intro seen s h
      have hnext := hpart part s h
      rw [handleFormRequest_cons regcomp pathlen malformed (Prod.eta _).symm]
      split
      · exact hnext
      · exact ih (seen + 1) _ hnext

/-- Only a file stops the form, and only when it cannot be opened. -/
theorem handlePart_stops (part : Part) (s : FormState) :
    (handlePart regcomp pathlen part s).1 = true ↔ part.Stops := by
  unfold Part.Stops
  rcases handlePart_cases regcomp pathlen part s with ⟨hfile, h⟩ | ⟨hfile, stops, s', h, hopen, _⟩
  · rw [h, hfile]
    simp only [Bool.false_eq_true, false_and]
  · rw [h, hfile, hopen]
    simp only [true_and]

/-- The result is negative for a malformed form that no part stopped. -/
theorem form_fields : ∀ (parts : List Part) (seen : Nat) (s : FormState),
    (handleFormRequest regcomp pathlen malformed parts seen s).1 < 0 ↔
      malformed = true ∧ ∀ p ∈ parts, ¬ p.Stops := by
  intro parts
  induction parts with
  | nil =>
      intro seen s
      rw [handleFormRequest]
      cases malformed with
      | true =>
          simp only [if_true, List.not_mem_nil, false_implies, implies_true, and_self, iff_true]
          decide
      | false =>
          simp only [Bool.false_eq_true, if_false, false_and, iff_false]
          omega
  | cons part parts ih =>
      intro seen s
      have hstops := handlePart_stops regcomp pathlen part s
      rw [handleFormRequest_cons regcomp pathlen malformed (Prod.eta _).symm, List.forall_mem_cons]
      by_cases hs : part.Stops
      -- A part that stops gives the count so far, which is never negative.
      · rw [if_pos (hstops.mpr hs)]
        simp only [hs, not_true_eq_false, false_and, and_false, iff_false]
        omega
      · rw [if_neg (fun h => hs (hstops.mp h)), ih]
        simp only [hs, not_false_eq_true, true_and]

/-- The path is set by the first file part, whatever becomes of it. -/
theorem form_path (hpathlen : fullPathSize ≤ pathlen) :
    ∀ (parts : List Part) (seen : Nat) (s : FormState),
      (handleFormRequest regcomp pathlen malformed parts seen s).2.ctx.path = [] ↔
        s.ctx.path = [] ∧ ∀ p ∈ parts, p.isFile = false := by
  -- The path is printed before the file is opened, and always has the directory in it.
  have hset : ∀ name, contextPath (foundPath regcomp pathlen name) ≠ [] := by
    intro name
    rw [foundPath_eq regcomp hpathlen, contextPath_eq, storedPath]
    exact List.append_ne_nil_of_right_ne_nil _ (List.cons_ne_nil _ _)
  intro parts
  induction parts with
  | nil =>
      intro seen s
      simp only [handleFormRequest, List.not_mem_nil, false_implies, implies_true, and_true]
  | cons part parts ih =>
      intro seen s
      rw [List.forall_mem_cons]
      rcases handlePart_cases regcomp pathlen part s with ⟨hfile, h⟩ |
        ⟨hfile, stops, s', h, _, hpath, _⟩
      · rw [handleFormRequest_cons regcomp pathlen malformed h, if_neg Bool.false_ne_true, ih,
          hfile]
        simp only [true_and]
      · rw [handleFormRequest_cons regcomp pathlen malformed h]
        have hne : s'.ctx.path ≠ [] := by
          rw [hpath]
          exact hset _
        -- Whether the form goes on or not, a path once set is never emptied.
        have hend : (if stops = true then (↑seen, s')
            else handleFormRequest regcomp pathlen malformed parts (seen + 1) s').2.ctx.path
            ≠ [] := by
          cases stops with
          | true => exact hne
          | false =>
              simp only [Bool.false_eq_true, if_false]
              rw [ne_eq, ih]
              exact fun h' => hne h'.1
        simp only [hend, hfile, Bool.true_eq_false, false_and, and_false]

/-- One part adds one to what was found and at most one to what was stored. -/
theorem handlePart_gap (d : Nat) (part : Part) (s : FormState)
    (hgap : s.stored.length + d ≤ s.found.length) :
    (handlePart regcomp pathlen part s).2.stored.length + d
      ≤ (handlePart regcomp pathlen part s).2.found.length := by
  rcases handlePart_cases regcomp pathlen part s with ⟨_, h⟩ |
    ⟨_, stops, s', h, _, _, hfound, ⟨_, hstored⟩ | ⟨_, hstored⟩⟩
  · rw [h]
    exact hgap
  all_goals
    rw [h, hfound, hstored]
    simp only [List.length_append, List.length_singleton]
    omega

/-- A part that was found and not stored is never made up for. -/
theorem form_gap (parts : List Part) (seen : Nat) (s : FormState) (d : Nat)
    (hgap : s.stored.length + d ≤ s.found.length) :
    (handleFormRequest regcomp pathlen malformed parts seen s).2.stored.length + d
      ≤ (handleFormRequest regcomp pathlen malformed parts seen s).2.found.length :=
  form_invariant regcomp pathlen malformed (fun s => s.stored.length + d ≤ s.found.length)
    (handlePart_gap regcomp pathlen d) parts seen s hgap

/-- Every part that was found was stored exactly when every file part can be
    opened and written. -/
theorem form_found : ∀ (parts : List Part) (seen : Nat) (s : FormState),
    s.found = s.stored →
    ((handleFormRequest regcomp pathlen malformed parts seen s).2.found
        = (handleFormRequest regcomp pathlen malformed parts seen s).2.stored ↔
      ∀ p ∈ parts, p.isFile = true → p.Stored) := by
  intro parts
  induction parts with
  | nil =>
      intro seen s h
      simp only [handleFormRequest, h, List.not_mem_nil, false_implies, implies_true]
  | cons part parts ih =>
      intro seen s heq
      rw [List.forall_mem_cons]
      rcases handlePart_cases regcomp pathlen part s with ⟨hfile, h⟩ |
        ⟨hfile, stops, s', h, hstops, _, hfound, ⟨hok, hstored⟩ | ⟨hlost, hstored⟩⟩
      · rw [handleFormRequest_cons regcomp pathlen malformed h, if_neg Bool.false_ne_true,
          ih (seen + 1) s heq, hfile]
        simp only [Bool.false_eq_true, false_implies, true_and]
      · rw [handleFormRequest_cons regcomp pathlen malformed h, hstops, hok.1,
          if_neg Bool.false_ne_true, ih (seen + 1) s' (by rw [hfound, hstored, heq])]
        simp only [hok, implies_true, true_and]
      -- One found and not stored: the logs differ in length from here on.
      · rw [handleFormRequest_cons regcomp pathlen malformed h]
        have hgap : s'.stored.length + 1 ≤ s'.found.length := by
          rw [hfound, hstored, heq, List.length_append, List.length_singleton]
        have hrest := form_gap regcomp pathlen malformed parts (seen + 1) s' 1 hgap
        simp only [hfile, hlost, true_implies, false_and, iff_false]
        intro hsame
        split at hsame
        · simp only at hsame
          rw [hsame] at hgap
          omega
        · rw [hsame] at hrest
          omega

end Form

section Text

variable (parse : CStr → Option CJson) (fault : SendFault) (req : SendRequest) (w : World)
  {accepted : SendAccepted}

/-- The files a request leaves are those of its delivery. -/
theorem apiSendHandler_files (hmethod : req.method = .lit "POST")
    (hread : readRequest parse fault.malloc req = .ok accepted) :
    (apiSendHandler parse fault req w).files = (deliver fault w.files accepted).1 := by
  rw [apiSendHandler_accepted parse fault req w hmethod hread]
  rfl

/-- And its answer has the status of its delivery. -/
theorem answers_deliver_iff (hmethod : req.method = .lit "POST")
    (hread : readRequest parse fault.malloc req = .ok accepted) (status : Int) :
    Answers w (apiSendHandler parse fault req w) status ↔
      (deliver fault w.files accepted).2.1 = status := by
  have hsent : (apiSendHandler parse fault req w).sent
      = w.sent ++ [httpSendBuiltJson (deliver fault w.files accepted).2.1
          (httpBuildJson fault.build (deliver fault w.files accepted).2.2.1
            (deliver fault w.files accepted).2.2.2)] := by
    rw [apiSendHandler_accepted parse fault req w hmethod hread]
    exact answerSend_sent ..
  rw [answers_iff hsent, httpSendBuiltJson_status]

/-- The name of a text is read as a C string, so one that begins with a NUL is none. -/
theorem needSave_named {name : List UInt8} (hname : accepted.saveToPath = some name)
    (hne : name ≠ []) :
    needSave accepted = if name.head? = some 0 then none else some (heapString name) := by
  have hempty : (heapString name).bytes = [] ↔ name.head? = some 0 := by
    cases name with
    | nil => exact absurd rfl hne
    | cons b l =>
        have hbytes : (heapString (b :: l)).bytes = (b :: l).takeWhile (· ≠ 0) := rfl
        rw [hbytes, List.takeWhile_cons, List.head?_cons, Option.some.injEq]
        by_cases hb : b = 0
        · simp only [hb, ne_eq, not_true_eq_false, decide_false, Bool.false_eq_true, if_false]
        · simp only [hb, ne_eq, not_false_eq_true, decide_true, if_true, reduceCtorEq]
  simp only [needSave, hname, hempty]

/-- A text to be saved: a success answer means that it is stored in full exactly when its
    name begins with a NUL, which saves nothing, and the file was there already; or when
    the name does not, and the file cannot be opened, which is answered 500, or nothing
    is lost. -/
theorem save_success_iff (hmethod : req.method = .lit "POST")
    (hread : readRequest parse fault.malloc req = .ok accepted) {name : List UInt8}
    (hname : accepted.saveToPath = some name) (hne : name ≠ []) :
    (Answers w (apiSendHandler parse fault req w) 200 →
        (apiSendHandler parse fault req w).files (fullPath fault.regcomp (some (heapString name)))
          = some accepted.data) ↔
      (name.head? = some 0 ∧
        w.files (fullPath fault.regcomp (some (heapString name))) = some accepted.data) ∨
      (name.head? ≠ some 0 ∧ (fault.file.fopen = true ∨ (0 ∉ accepted.data ∧
        ¬ Loses fault.file.fputs accepted.data ∧ ¬ Loses fault.file.fclose accepted.data))) := by
  rw [answers_deliver_iff parse fault req w hmethod hread,
    apiSendHandler_files parse fault req w hmethod hread]
  have hneed := needSave_named hname hne
  unfold deliver saveTextToFile storeFile
  by_cases hnul : name.head? = some 0
  -- The handler takes the name for an empty one and logs the text.
  · rw [if_pos hnul] at hneed
    simp only [hneed, hnul, true_implies, ne_eq, not_true_eq_false, true_and, false_and, or_false]
  · rw [if_neg hnul] at hneed
    simp only [hneed, hnul, ne_eq, not_false_eq_true, false_and, true_and, false_or]
    cases hopen : fault.file.fopen with
    | true =>
        simp only [if_true, true_or, iff_true]
        intro h
        omega
    | false =>
        simp only [Bool.false_eq_true, if_false, true_implies, false_or, Function.update_self,
          Option.some.injEq]
        exact stored_complete_iff fault.file accepted.data

end Text

/-- The parser gives a negative result for a malformed form that no part stopped. -/
theorem uploadForm_fields (fault : UploadFault) (req : UploadRequest) (files : Files) :
    (uploadForm fault req files).1 < 0 ↔ req.malformed = true ∧ ∀ p ∈ req.parts, ¬ p.Stops :=
  form_fields fault.regcomp fault.pathlen req.malformed req.parts 0 (FormState.initial files)

/-- No path is set by a form without a file part. -/
theorem uploadForm_path {fault : UploadFault} (hpathlen : fullPathSize ≤ fault.pathlen)
    (req : UploadRequest) (files : Files) :
    (uploadForm fault req files).2.ctx.path = [] ↔ ∀ p ∈ req.parts, p.isFile = false := by
  simp only [uploadForm, FormState.path_close,
    form_path fault.regcomp fault.pathlen req.malformed hpathlen]
  exact and_iff_right rfl

/-- Every part that was found was stored when every file part can be. -/
theorem uploadForm_found (fault : UploadFault) (req : UploadRequest) (files : Files) :
    (uploadForm fault req files).2.found = (uploadForm fault req files).2.stored ↔
      ∀ p ∈ req.parts, p.isFile = true → p.Stored := by
  simp only [uploadForm, FormState.found_close, FormState.stored_close]
  exact form_found fault.regcomp fault.pathlen req.malformed req.parts 0 (FormState.initial files)
    rfl

/-- An upload is answered 200 exactly if it passes the three tests of its handler. -/
theorem upload_passes_iff {fault : UploadFault} {req : UploadRequest} {w : World}
    (hmethod : req.method = .lit "POST") :
    Answers w (apiUploadHandler fault req w) 200 ↔
      ¬ (uploadForm fault req w.files).1 < 0 ∧ (uploadForm fault req w.files).2.ctx.path ≠ [] ∧
        (saveConnection fault.connection w.db req.remoteAddr).1 ≠ -1 := by
  cases uploadWay fault req w with
  | method hno => exact absurd hmethod hno
  | form _ hform =>
      have hsent : (apiUploadHandler fault req w).sent
          = w.sent ++ [httpSendError fault.build 400 (.lit "Form parse error")] := by
        rw [apiUploadHandler_form fault req w hmethod hform]
        rfl
      rw [answers_iff hsent, httpSendError_status]
      exact ⟨fun h => by omega, fun h => absurd hform h.1⟩
  | noFile _ hform hnone =>
      have hsent : (apiUploadHandler fault req w).sent
          = w.sent ++ [httpSendError fault.build 400 (.lit "No file part")] := by
        rw [apiUploadHandler_noFile fault req w hmethod hform hnone]
        rfl
      rw [answers_iff hsent, httpSendError_status]
      exact ⟨fun h => by omega, fun h => absurd hnone h.2.1⟩
  | noConnection _ hform hpath hconn =>
      have hsent : (apiUploadHandler fault req w).sent
          = w.sent ++ [httpSendError fault.build 500 (.lit "Data base error")] := by
        rw [apiUploadHandler_noConnection fault req w hmethod hform hpath hconn]
        rfl
      rw [answers_iff hsent, httpSendError_status]
      exact ⟨fun h => by omega, fun h => absurd hconn h.2.2⟩
  | ok _ hform hpath hconn =>
      rw [answers_iff (apiUploadHandler_ok fault req w hmethod hform hpath hconn).2,
        httpSendBuiltJson_status]
      exact ⟨fun _ => ⟨hform, hpath, hconn⟩, fun _ => rfl⟩

/-- None of the tests looks at the files. -/
theorem upload_answers_iff {fault : UploadFault} {req : UploadRequest} {w : World}
    (hmethod : req.method = .lit "POST") (hpathlen : fullPathSize ≤ fault.pathlen) :
    Answers w (apiUploadHandler fault req w) 200 ↔
      ¬ (req.malformed = true ∧ ∀ p ∈ req.parts, ¬ p.Stops) ∧
        ¬ (∀ p ∈ req.parts, p.isFile = false) ∧
        ¬ Unavailable fault.connection w.db req.remoteAddr := by
  rw [upload_passes_iff hmethod, uploadForm_fields, ← uploadForm_path hpathlen req w.files,
    ← saveConnection_none_iff]

/-- An upload: a success answer means that every file part that was found was
    stored exactly when it is answered otherwise, or every file part can be opened
    and written. -/
theorem upload_success_iff (fault : UploadFault) (req : UploadRequest) (w : World)
    (hmethod : req.method = .lit "POST") (hpathlen : fullPathSize ≤ fault.pathlen) :
    (Answers w (apiUploadHandler fault req w) 200 →
        (uploadForm fault req w.files).2.found = (uploadForm fault req w.files).2.stored) ↔
      (req.malformed = true ∧ ∀ p ∈ req.parts, ¬ p.Stops) ∨ (∀ p ∈ req.parts, p.isFile = false) ∨
        Unavailable fault.connection w.db req.remoteAddr ∨
        ∀ p ∈ req.parts, p.isFile = true → p.Stored := by
  rw [upload_answers_iff hmethod hpathlen, uploadForm_found]
  -- The answer is decided by three tests, and the files by what becomes of the parts.
  constructor
  · intro h
    by_contra hno
    rw [not_or, not_or, not_or] at hno
    exact hno.2.2.2 (h ⟨hno.1, hno.2.1, hno.2.2.1⟩)
  · rintro (hform | hnone | hunavailable | hstored) ⟨hform', hnone', havailable⟩
    · exact absurd hform hform'
    · exact absurd hnone hnone'
    · exact absurd hunavailable havailable
    · exact hstored

/-- A success answer means that the data is stored: the text in full, every file
    part that was found, exactly when the system fails nothing the handler does
    not look at. For a text with a name: the name begins with a NUL, and the file was
    there already; or it does not, and the file cannot be opened, which is answered
    500, or the text has no NUL and neither writing nor closing stops short.
    For an upload: it is answered otherwise, since its form ends badly with no
    part stopping it, or has no file part, or its peer has no row; or every file
    part can be opened and written. -/
theorem success_means_stored_iff (w : World) :
    (∀ (parse : CStr → Option CJson) (fault : SendFault) (req : SendRequest)
      (accepted : SendAccepted) (name : List UInt8), req.method = .lit "POST" →
      readRequest parse fault.malloc req = .ok accepted → accepted.saveToPath = some name →
      name ≠ [] →
      ((Answers w (apiSendHandler parse fault req w) 200 →
          (apiSendHandler parse fault req w).files
            (fullPath fault.regcomp (some (heapString name))) = some accepted.data) ↔
        (name.head? = some 0 ∧
          w.files (fullPath fault.regcomp (some (heapString name))) = some accepted.data) ∨
        (name.head? ≠ some 0 ∧ (fault.file.fopen = true ∨ (0 ∉ accepted.data ∧
          ¬ Loses fault.file.fputs accepted.data ∧ ¬ Loses fault.file.fclose accepted.data))))) ∧
    (∀ (fault : UploadFault) (req : UploadRequest), req.method = .lit "POST" →
      fullPathSize ≤ fault.pathlen →
      ((Answers w (apiUploadHandler fault req w) 200 →
          (uploadForm fault req w.files).2.found = (uploadForm fault req w.files).2.stored) ↔
        (req.malformed = true ∧ ∀ p ∈ req.parts, ¬ p.Stops) ∨ (∀ p ∈ req.parts, p.isFile = false) ∨
          Unavailable fault.connection w.db req.remoteAddr ∨
          ∀ p ∈ req.parts, p.isFile = true → p.Stored)) := by
  constructor
  · intro parse fault req accepted name hmethod hread hname hne
    exact save_success_iff parse fault req w hmethod hread hname hne
  · intro fault req hmethod hpathlen
    exact upload_success_iff fault req w hmethod hpathlen

/-- A parser that knows one body, of a text to be saved under a name. -/
def parseText (body data name : List UInt8) (s : CStr) : Option CJson :=
  if s.bytes = body then
    some (.object [(ascii "data", .string data), (ascii "saveToPath", .string name)])
  else none

/-- A request with this body. -/
def textRequest (length : CStr) (body : List UInt8) : SendRequest :=
  ⟨.lit "POST", .lit "10.0.0.7", some length, some body⟩

/-- `hi` and its body. -/
def plainBody : List UInt8 := ascii "\x7b\"data\":\"hi\",\"saveToPath\":\"a.txt\"\x7d"

/-- `hi` for a name that begins with an escaped NUL. -/
def namelessBody : List UInt8 := ascii "\x7b\"data\":\"hi\",\"saveToPath\":\"\\u0000a.txt\"\x7d"

/-- What fails in the examples: nothing. -/
def textFault : SendFault := .none (.lit "2026-03-01 12:00:00")

/-- A text to be saved, and an upload of one part that can be opened and written. -/
theorem success_means_stored_iff_one_part :
    (apiSendHandler (parseText plainBody (ascii "hi") (ascii "a.txt")) textFault
      (textRequest (.lit "34") plainBody) createdWorld).files
        (fullPath true (some (heapString (ascii "a.txt")))) = some (ascii "hi") ∧
    (uploadForm (.none 512 (.lit "2026-03-01 12:00:00")) ⟨.lit "POST", .lit "10.0.0.7",
      [⟨some (.lit "a.txt"), ascii "hi", false, false⟩], false⟩ createdWorld.files).2.found =
    (uploadForm (.none 512 (.lit "2026-03-01 12:00:00")) ⟨.lit "POST", .lit "10.0.0.7",
      [⟨some (.lit "a.txt"), ascii "hi", false, false⟩], false⟩ createdWorld.files).2.stored := by
  constructor
  · refine ((success_means_stored_iff createdWorld).1 _ textFault
      (textRequest (.lit "34") plainBody) ⟨heapString plainBody, ascii "hi", some (ascii "a.txt")⟩
      (ascii "a.txt") rfl (by rfl) rfl (by decide)).mpr (Or.inr ⟨by decide, Or.inr ⟨by decide, ?_⟩⟩)
      ⟨_, rfl, rfl⟩
    exact ⟨fun ⟨k, hk, _⟩ => Option.some_ne_none k hk.symm,
      fun ⟨k, hk, _⟩ => Option.some_ne_none k hk.symm⟩
  · refine ((success_means_stored_iff createdWorld).2 (.none 512 (.lit "2026-03-01 12:00:00"))
      ⟨.lit "POST", .lit "10.0.0.7", [⟨some (.lit "a.txt"), ascii "hi", false, false⟩], false⟩ rfl
      (by decide)).mpr (Or.inr (Or.inr (Or.inr ?_))) ⟨_, rfl, rfl⟩
    intro p hp _
    rw [List.mem_singleton.mp hp]
    exact ⟨rfl, rfl⟩

/-- An upload whose only file cannot be opened is answered 200 with nothing
    stored, and so are a text none of which was written and one whose name begins with
    a NUL. -/
theorem success_without_storage :
    (Answers createdWorld (apiUploadHandler (.none 512 (.lit "2026-03-01 12:00:00"))
        ⟨.lit "POST", .lit "10.0.0.7", [⟨some (.lit "a.txt"), ascii "hi", true, false⟩], false⟩
        createdWorld) 200 ∧
      (uploadForm (.none 512 (.lit "2026-03-01 12:00:00")) ⟨.lit "POST", .lit "10.0.0.7",
        [⟨some (.lit "a.txt"), ascii "hi", true, false⟩], false⟩ createdWorld.files).2.found.length
        = 1 ∧
      (uploadForm (.none 512 (.lit "2026-03-01 12:00:00")) ⟨.lit "POST", .lit "10.0.0.7",
        [⟨some (.lit "a.txt"), ascii "hi", true, false⟩], false⟩ createdWorld.files).2.stored
        = []) ∧
    (Answers createdWorld (apiSendHandler (parseText plainBody (ascii "hi") (ascii "a.txt"))
        { textFault with file := ⟨false, some 0, none⟩ } (textRequest (.lit "34") plainBody)
        createdWorld) 200 ∧
      (apiSendHandler (parseText plainBody (ascii "hi") (ascii "a.txt"))
        { textFault with file := ⟨false, some 0, none⟩ } (textRequest (.lit "34") plainBody)
        createdWorld).files (fullPath true (some (heapString (ascii "a.txt")))) = some []) ∧
    (Answers createdWorld (apiSendHandler (parseText namelessBody (ascii "hi") (0 :: ascii "a.txt"))
        textFault (textRequest (.lit "40") namelessBody) createdWorld) 200 ∧
      (apiSendHandler (parseText namelessBody (ascii "hi") (0 :: ascii "a.txt"))
        textFault (textRequest (.lit "40") namelessBody) createdWorld).files
          = createdWorld.files) := by
  refine ⟨⟨⟨_, rfl, rfl⟩, rfl, rfl⟩, ⟨⟨_, rfl, rfl⟩, ?_⟩, ⟨_, rfl, rfl⟩, rfl⟩
  have hfiles : (apiSendHandler (parseText plainBody (ascii "hi") (ascii "a.txt"))
      { textFault with file := ⟨false, some 0, none⟩ } (textRequest (.lit "34") plainBody)
      createdWorld).files = Function.update createdWorld.files
        (fullPath true (some (heapString (ascii "a.txt")))) (some []) := rfl
  rw [hfiles, Function.update_self]

end Server

end SendingSystem
