import SendingSystem.Lib.Overwrite
import SendingSystem.Server.Storage
import SendingSystem.Server.Wire

/-!
# What a failed request leaves of the files

The send handler opens its file after every check, and a text that is answered
with anything but 200 was not written. The upload handler cannot know how the
form ends when it opens the file of a part, and opens it for writing, which empties
it; what is answered in the end comes too late for the files. So a failed upload
leaves every file its parts name as the last part that goes to it left it.

A form is read up to the first part that stops it. What it does to the files up
to there is a sequence of writes, and it is harmless when the last write to each
file put back what was there.

## Main definitions

* `PostRequest.FailsHarmlessly`: A failed request leaves the files as they were.
* `openedFiles`: The file parts that a form gets to.
* `Part.leaves`: What a part leaves under its path.
* `Succeeds`: An upload passes the tests of its handler.
* `LeavesAsItWas`: Every file the form opens ends as it was.

## Theorems

* `apiSendHandler_failed`: A failed text leaves the files alone.
* `form_files`: What a form does to the files.
* `failed_request_harmless_iff`: When a failed request leaves the files alone.
-/

namespace SendingSystem

namespace Server

open CString CJson

/-- If the request is answered with another status than 200, the files are as they
    were: the old ones with the same content, and no new ones. -/
def PostRequest.FailsHarmlessly (r : PostRequest) (w : World) : Prop :=
  ∀ status, status ≠ 200 → Answers w (r.handle w) status → (r.handle w).files = w.files

/-- Where the part is saved. -/
def Part.path (fault : UploadFault) (p : Part) : List UInt8 :=
  foundPath fault.regcomp fault.pathlen p.filename

/-- What the parser leaves there: the content, or no file if it cannot be written. -/
def Part.leaves (p : Part) : Option (List UInt8) := if p.write then none else some p.content

/-- The file parts that a form gets to and opens. -/
def openedFiles (parts : List Part) : List Part :=
  (parts.takeWhile (fun p => !(p.isFile && p.fopen))).filter Part.isFile

/-- The writes of a form. -/
def formWrites (fault : UploadFault) (parts : List Part) :
    List (List UInt8 × Option (List UInt8)) :=
  (openedFiles parts).map (fun p => (p.path fault, p.leaves))

/-- The upload passes the tests of its handler: the form ends well or is stopped by
    a part, it has a file part, and the peer's row can be had. -/
structure Succeeds (fault : UploadFault) (req : UploadRequest) (w : World) : Prop where
  form : ¬ (req.malformed = true ∧ ∀ p ∈ req.parts, ¬ p.Stops)
  file : ∃ p ∈ req.parts, p.isFile = true
  connection : ¬ Unavailable fault.connection w.db req.remoteAddr

/-- Every file the form opens ends as it was: the last part that goes to it has the
    very content the file had, or is lost where there was no file. -/
def LeavesAsItWas (fault : UploadFault) (req : UploadRequest) (files : Files) : Prop :=
  ∀ before p after, openedFiles req.parts = before ++ p :: after →
    (∀ q ∈ after, q.path fault ≠ p.path fault) → p.leaves = files (p.path fault)

/-- A text that is not answered 200 leaves the files alone, whatever failed. -/
theorem apiSendHandler_failed (parse : CStr → Option CJson) (fault : SendFault) (req : SendRequest)
    (w : World) : (PostRequest.send parse fault req).FailsHarmlessly w := by
  intro status hstatus hanswer
  rw [PostRequest.handle] at hanswer ⊢
  by_cases hmethod : req.method = .lit "POST"
  · cases hread : readRequest parse fault.malloc req with
    | error e =>
        rw [apiSendHandler_rejected parse fault req w hmethod hread]
        rfl
    | ok accepted =>
        rw [apiSendHandler_accepted parse fault req w hmethod hread] at hanswer ⊢
        generalize saveConnection fault.connection w.db req.remoteAddr = connection at hanswer ⊢
        have hsent : (answerSend fault { w with db := connection.2 } connection.1 accepted).sent
            = w.sent ++ [httpSendBuiltJson (deliver fault w.files accepted).2.1
                (httpBuildJson fault.build (deliver fault w.files accepted).2.2.1
                  (deliver fault w.files accepted).2.2.2)] := rfl
        have hfiles : (answerSend fault { w with db := connection.2 } connection.1 accepted).files
            = (deliver fault w.files accepted).1 := rfl
        rw [answers_iff hsent, httpSendBuiltJson_status] at hanswer
        rw [hfiles]
        -- The one way to fail from here on is that the file cannot be opened.
        unfold deliver at hanswer ⊢
        split
        · rfl
        · next path hsave =>
            simp only [hsave] at hanswer
            split
            · next files hstore =>
                simp only [hstore] at hanswer
                exact absurd hanswer.symm hstatus
            · rfl
  · rw [apiSendHandler_method parse fault req w hmethod]
    rfl

/-- What a part does to the files: a file that can be opened is written. -/
theorem handlePart_writes (fault : UploadFault) (part : Part) (s : FormState) :
    (handlePart fault.regcomp fault.pathlen part s).1 = (part.isFile && part.fopen) ∧
      (handlePart fault.regcomp fault.pathlen part s).2.files
        = if part.isFile && !part.fopen then
            Function.update s.files (part.path fault) part.leaves
          else s.files := by
  cases hfile : part.isFile with
  | false =>
      rw [handlePart_get hfile]
      exact ⟨rfl, rfl⟩
  | true =>
      have hisFile := hfile
      unfold Part.isFile at hfile
      -- A part is a file if it has a name that is not empty.
      cases hname : part.filename with
      | none => simp only [hname, Bool.false_eq_true] at hfile
      | some filename =>
          simp only [hname, decide_eq_true_eq] at hfile
          rcases handlePart_cases fault.regcomp fault.pathlen part s with ⟨hno, _⟩ |
            ⟨_, stops, s', h, hstops, _⟩
          · exact absurd (hno.symm.trans hisFile) Bool.false_ne_true
          · have hfiles := @handlePart_files fault.regcomp fault.pathlen part s filename hname hfile
            refine ⟨by rw [h, hstops, Bool.true_and], ?_⟩
            rw [hfiles, Part.path, hname, Part.leaves]
            cases part.fopen with
            | true => rfl
            | false => rfl

/-- What a form does to the files. -/
theorem form_files (fault : UploadFault) (malformed : Bool) :
    ∀ (parts : List Part) (seen : Nat) (s : FormState),
      (handleFormRequest fault.regcomp fault.pathlen malformed parts seen s).2.files
        = overwrite s.files (formWrites fault parts) := by
  intro parts
  induction parts with
  | nil =>
      intro seen s
      rfl
  | cons part parts ih =>
      intro seen s
      rcases handlePart_writes fault part s with ⟨hstops, hfiles⟩
      rw [handleFormRequest_cons fault.regcomp fault.pathlen malformed (Prod.eta _).symm, hstops,
        formWrites, openedFiles, List.takeWhile_cons]
      -- The part is a plain field, or it stops the form, or its file is written.
      cases hfile : part.isFile with
      | false =>
          rw [hfile, Bool.false_and, if_neg Bool.false_ne_true] at hfiles
          simp only [Bool.false_and, Bool.not_false, Bool.false_eq_true, if_false, if_true, ih,
            List.filter_cons, hfile, hfiles]
          rfl
      | true =>
          cases hopen : part.fopen with
          | true =>
              rw [hfile, hopen, Bool.not_true, Bool.and_false, if_neg Bool.false_ne_true] at hfiles
              simp only [Bool.and_self, Bool.not_true, if_true, Bool.false_eq_true, if_false,
                List.filter_nil, List.map_nil, overwrite, hfiles]
          | false =>
              rw [hfile, hopen, Bool.not_false, Bool.and_self, if_pos rfl] at hfiles
              simp only [Bool.and_false, Bool.not_false, Bool.false_eq_true, if_false, if_true, ih,
                List.filter_cons, hfile, hfiles, List.map_cons, overwrite]
              rfl

theorem uploadForm_files (fault : UploadFault) (req : UploadRequest) (files : Files) :
    (uploadForm fault req files).2.files = overwrite files (formWrites fault req.parts) := by
  rw [uploadForm, FormState.files_close]
  exact form_files fault req.malformed req.parts 0 (FormState.initial files)

/-- A form changes no file exactly when every file it opens ends as it was. -/
theorem uploadForm_files_eq_iff (fault : UploadFault) (req : UploadRequest) (files : Files) :
    (uploadForm fault req files).2.files = files ↔ LeavesAsItWas fault req files := by
  rw [uploadForm_files, overwrite_eq_iff]
  constructor
  · intro h before p after hparts hlast
    -- The writes of the form split as its parts do.
    refine h (before.map fun p => (p.path fault, p.leaves)) (p.path fault, p.leaves)
      (after.map fun p => (p.path fault, p.leaves)) ?_ ?_
    · rw [formWrites, hparts, List.map_append, List.map_cons]
    · intro w hw
      rcases List.mem_map.mp hw with ⟨q, hq, rfl⟩
      exact hlast q hq
  · intro h before w after hwrites hlast
    rw [formWrites, List.map_eq_append_iff] at hwrites
    rcases hwrites with ⟨first, rest, hparts, rfl, hrest⟩
    rw [List.map_eq_cons_iff] at hrest
    rcases hrest with ⟨p, last, rfl, rfl, rfl⟩
    exact h first p last hparts fun q hq => hlast _ (List.mem_map_of_mem hq)

/-- A failed upload leaves the files alone exactly if it does not fail, or every
    file its form opens ends as it was. -/
theorem apiUploadHandler_failed_iff {fault : UploadFault} {req : UploadRequest} {w : World}
    (hpathlen : fullPathSize ≤ fault.pathlen) :
    (PostRequest.upload fault req).FailsHarmlessly w ↔
      req.method ≠ .lit "POST" ∨ Succeeds fault req w ∨ LeavesAsItWas fault req w.files := by
  by_cases hmethod : req.method = .lit "POST"
  · have hfiles := apiUploadHandler_files fault req w hmethod
    have hanswers := @upload_answers_iff fault req w hmethod hpathlen
    have hsucceeds : Answers w (apiUploadHandler fault req w) 200 ↔ Succeeds fault req w := by
      rw [hanswers]
      constructor
      · rintro ⟨hform, hfile, hconn⟩
        refine ⟨hform, ?_, hconn⟩
        by_contra hno
        refine hfile fun p hp => ?_
        by_contra hne
        exact hno ⟨p, hp, Bool.not_eq_false _ ▸ hne⟩
      · rintro ⟨hform, ⟨p, hp, hfile⟩, hconn⟩
        exact ⟨hform, fun hno => Bool.false_ne_true ((hno p hp).symm.trans hfile), hconn⟩
    rcases apiUploadHandler_answer fault req w with ⟨r, hsent, _⟩
    rw [PostRequest.FailsHarmlessly, PostRequest.handle, hfiles, uploadForm_files_eq_iff]
    constructor
    · intro h
      by_cases hok : r.status = 200
      · exact Or.inr (Or.inl (hsucceeds.mp ⟨r, hsent, hok⟩))
      · exact Or.inr (Or.inr (h r.status hok ⟨r, hsent, rfl⟩))
    · rintro (hother | hok | hsame) status hstatus hanswer
      · exact absurd hmethod hother
      -- The one answer is 200.
      · rw [← hsucceeds, answers_iff hsent] at hok
        rw [answers_iff hsent] at hanswer
        exact absurd (hanswer.symm.trans hok) hstatus
      · exact hsame
  · refine ⟨fun _ => Or.inl hmethod, fun _ status _ _ => ?_⟩
    rw [PostRequest.handle, apiUploadHandler_method fault req w hmethod]
    rfl

/-- A failed request leaves the files as they were: a text always, an upload
    exactly if it is not made with `POST`, or does not fail, or every file its form
    opens ends as it was. -/
theorem failed_request_harmless_iff (w : World) :
    (∀ (parse : CStr → Option CJson) (fault : SendFault) (req : SendRequest),
      (PostRequest.send parse fault req).FailsHarmlessly w) ∧
    (∀ (fault : UploadFault) (req : UploadRequest), fullPathSize ≤ fault.pathlen →
      ((PostRequest.upload fault req).FailsHarmlessly w ↔
        req.method ≠ .lit "POST" ∨ Succeeds fault req w ∨ LeavesAsItWas fault req w.files)) :=
  ⟨fun parse fault req => apiSendHandler_failed parse fault req w,
    fun _ _ hpathlen => apiUploadHandler_failed_iff hpathlen⟩

/-- Where a part named `a.txt` is saved. -/
def namedPath : List UInt8 := foundPath true 512 (some (.lit "a.txt"))

/-- A directory with that file in it. -/
def savedWorld : World :=
  ⟨createdDatabase, Function.update (fun _ => none) namedPath (some (ascii "old")), []⟩

/-- A form with one file part that is malformed after it. -/
def malformedUpload (content : List UInt8) : UploadRequest :=
  ⟨.lit "POST", .lit "10.0.0.7", [⟨some (.lit "a.txt"), content, false, false⟩], true⟩

theorem savedWorld_files : savedWorld.files namedPath = some (ascii "old") := by
  rw [savedWorld]
  simp only [Function.update_self]

theorem formWrites_malformedUpload (content : List UInt8) :
    formWrites (.none 512 (.lit "2026-03-01 12:00:00")) (malformedUpload content).parts
      = [(namedPath, some content)] := rfl

/-- A malformed form that brings the file's own content is harmless. -/
theorem failed_request_harmless_iff_same_content :
    (PostRequest.upload (.none 512 (.lit "2026-03-01 12:00:00"))
      (malformedUpload (ascii "old"))).FailsHarmlessly savedWorld := by
  refine ((failed_request_harmless_iff savedWorld).2 _ _ (by decide)).mpr (Or.inr (Or.inr ?_))
  rw [← uploadForm_files_eq_iff, uploadForm_files, formWrites_malformedUpload, overwrite, overwrite,
    ← savedWorld_files, Function.update_eq_self]

/-- A malformed form is answered 400, and the file it names is overwritten. -/
theorem failed_upload_overwrites :
    ¬ (PostRequest.upload (.none 512 (.lit "2026-03-01 12:00:00"))
        (malformedUpload (ascii "hi"))).FailsHarmlessly savedWorld ∧
      savedWorld.files namedPath = some (ascii "old") ∧
      (apiUploadHandler (.none 512 (.lit "2026-03-01 12:00:00")) (malformedUpload (ascii "hi"))
        savedWorld).files namedPath = some (ascii "hi") := by
  have hnew : (apiUploadHandler (.none 512 (.lit "2026-03-01 12:00:00"))
      (malformedUpload (ascii "hi")) savedWorld).files namedPath = some (ascii "hi") := by
    rw [apiUploadHandler_files _ _ _ rfl, uploadForm_files, formWrites_malformedUpload, overwrite,
      overwrite, Function.update_self]
  refine ⟨fun h => ?_, savedWorld_files, hnew⟩
  -- The form was malformed behind the part, which was stored by then.
  have hsame := congrFun (h 400 (by decide) ⟨_, rfl, rfl⟩) namedPath
  rw [savedWorld_files, PostRequest.handle, hnew] at hsame
  exact absurd hsame (by decide)

end Server

end SendingSystem
