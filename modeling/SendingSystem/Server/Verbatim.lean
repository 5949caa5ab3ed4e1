import SendingSystem.Server.History
import SendingSystem.Server.Storage

/-!
# Whether a text arrives unaltered

The text of a request passes four conventions on lengths: `Content-Length` counts
the bytes of the body, the parser reads them as a C string, `fputs` writes the
decoded text up to its first NUL, and so does `sqlite3_bind_text` with the length
`-1`. So when nothing fails, the file holds the decoded text and the history row
the body exactly when neither has a NUL in it. A path whose first byte is NUL is
an empty path to the handler, which then saves nothing.

## Main definitions

* `NothingFails`: No file and no database operation fails.
* `ArrivesVerbatim`: The file holds the text and the new row the body.

## Theorems

* `deliver_saved`: What is stored of a text.
* `saved_text_iff`: When the file holds the text.
* `text_verbatim_iff`: When a text arrives unaltered.
-/

namespace SendingSystem

namespace Server

open CString CJson

/-- No file and no database operation fails for an accepted request: the peer has
    a row, and the message is stored with its request bound. -/
structure NothingFails (fault : SendFault) (req : SendRequest) (accepted : SendAccepted)
    (w : World) : Prop where
  file : fault.file = .none
  connection : (saveConnection fault.connection w.db req.remoteAddr).1 ≠ -1
  message : (saveMessage fault.message (saveConnection fault.connection w.db req.remoteAddr).2
    (sendRow fault w.files (saveConnection fault.connection w.db req.remoteAddr).1 accepted)).1
      ≠ -1
  bound : fault.message.insert.bind 7 = false

/-- The file of this name holds the decoded text, and a new history row has the
    received bytes in its `request` column. -/
def ArrivesVerbatim (regcomp : Bool) (name text received : List UInt8) (w w' : World) : Prop :=
  w'.files (fullPath regcomp (some (heapString name))) = some text ∧
    ∃ id row, messages w'.db = messages w.db ++ [(id, row)] ∧
      row.request.map CStr.bytes = some received

theorem truncate_eq_iff {l : List UInt8} : truncate l = l ↔ 0 ∉ l := by
  constructor
  · intro h
    rw [← h]
    exact noNul_truncate l
  · exact truncate_of_noNul l

section Accepted

variable (parse : CStr → Option CJson) (fault : SendFault) (req : SendRequest) (w : World)
  {accepted : SendAccepted}

/-- When no file operation fails, a text to be saved is stored up to its first NUL. -/
theorem deliver_saved (hfile : fault.file = .none) (files : Files) {name : List UInt8}
    (hname : accepted.saveToPath = some name) (hne : truncate name ≠ []) :
    (deliver fault files accepted).1
      = Function.update files (fullPath fault.regcomp (some (heapString name)))
          (some (truncate accepted.data)) := by
  have hbytes : (heapString name).bytes = truncate name := rfl
  have hneed : needSave accepted = some (heapString name) := by
    simp only [needSave, hname, hbytes, if_neg hne]
  simp only [deliver, hneed, saveTextToFile, hfile]
  rfl

/-- When no file operation fails, the file of the given name holds the text
    exactly when the name is not empty to the handler and the text has no NUL, or
    it is empty and the file held the text before. -/
theorem saved_text_iff (hfile : fault.file = .none) (files : Files) {name : List UInt8}
    (hname : accepted.saveToPath = some name) :
    (deliver fault files accepted).1 (fullPath fault.regcomp (some (heapString name)))
        = some accepted.data ↔
      (truncate name ≠ [] ∧ 0 ∉ accepted.data) ∨
        (truncate name = [] ∧ files (fullPath fault.regcomp (some (heapString name)))
          = some accepted.data) := by
  by_cases hempty : truncate name = []
  -- The handler takes the name for an empty one and logs the text.
  · have hbytes : (heapString name).bytes = truncate name := rfl
    have hneed : needSave accepted = none := by
      simp only [needSave, hname, hbytes, hempty, if_true]
    simp only [deliver, hneed, hempty, ne_eq, not_true_eq_false, false_and, false_or, true_and]
  · rw [deliver_saved fault hfile files hname hempty, Function.update_self, Option.some.injEq,
      truncate_eq_iff]
    simp only [ne_eq, hempty, not_false_eq_true, true_and, false_and, or_false]

/-- The row an accepted request adds when nothing fails, as it is bound. -/
theorem messages_of_nothingFails (hmethod : req.method = .lit "POST")
    (hread : readRequest parse fault.malloc req = .ok accepted)
    (hnothing : NothingFails fault req accepted w) :
    ∃ id, messages (apiSendHandler parse fault req w).db = messages w.db ++
      [(id, (sendRow fault w.files (saveConnection fault.connection w.db req.remoteAddr).1
        accepted).bound fault.message.insert)] := by
  have hconn := messages_saveConnection fault.connection w.db req.remoteAddr
  -- The row is inserted, as its insertion is not what failed.
  rcases saveMessage_cases fault.message
    (saveConnection fault.connection w.db req.remoteAddr).2
    (sendRow fault w.files (saveConnection fault.connection w.db req.remoteAddr).1 accepted) with
    ⟨hfails, _⟩ | ⟨id, hrow⟩
  · exact absurd hfails hnothing.message
  · refine ⟨id, ?_⟩
    rw [apiSendHandler_accepted parse fault req w hmethod hread, ← hconn, ← hrow]
    simp only [answerSend, World.send, ne_eq, hnothing.connection, not_false_eq_true, if_true]
    rfl

/-- A text of an accepted request, when nothing fails, arrives unaltered exactly
    when the body has no NUL byte and either the decoded text has none and the name
    does not start with one, or the name does and the file held the text before. -/
theorem text_verbatim_iff (hmethod : req.method = .lit "POST")
    (hread : readRequest parse fault.malloc req = .ok accepted)
    (hnothing : NothingFails fault req accepted w) {name : List UInt8}
    (hname : accepted.saveToPath = some name) {delivered : List UInt8}
    (hbody : req.body = some delivered) :
    ArrivesVerbatim fault.regcomp name accepted.data
        (delivered.take (contentLength req).toNat) w (apiSendHandler parse fault req w) ↔
      0 ∉ delivered.take (contentLength req).toNat ∧
        ((truncate name ≠ [] ∧ 0 ∉ accepted.data) ∨
          (truncate name = [] ∧ w.files (fullPath fault.regcomp (some (heapString name)))
            = some accepted.data)) := by
  rcases messages_of_nothingFails parse fault req w hmethod hread hnothing with ⟨id, hrow⟩
  -- The body that is recorded is the one that was received, up to its first NUL.
  have haccepted : accepted.body = heapString (delivered.take (contentLength req).toNat) := by
    rcases readRequest_ok_iff.mp hread with ⟨_, _, _, l, root, data, hl, _, _, _, rfl⟩
    rw [hbody, Option.some.injEq] at hl
    rw [hl]
  have hrequest : (∃ id' row, messages (apiSendHandler parse fault req w).db
        = messages w.db ++ [(id', row)] ∧
      row.request.map CStr.bytes = some (delivered.take (contentLength req).toNat)) ↔
      0 ∉ delivered.take (contentLength req).toNat := by
    rw [← truncate_eq_iff, hrow]
    constructor
    · rintro ⟨id', row, h, hbytes⟩
      rw [List.append_cancel_left_eq, List.cons.injEq, Prod.mk.injEq] at h
      rw [← h.1.2, MessageRow.bound, dbBindTextOrNull_of_bound _ hnothing.bound, sendRow,
        haccepted, Option.map_some, Option.some.injEq] at hbytes
      exact hbytes
    · intro h
      refine ⟨id, _, rfl, ?_⟩
      rw [MessageRow.bound, dbBindTextOrNull_of_bound _ hnothing.bound, sendRow, haccepted,
        Option.map_some, Option.some.injEq]
      exact h
  rw [ArrivesVerbatim, hrequest, apiSendHandler_files parse fault req w hmethod hread,
    saved_text_iff fault hnothing.file w.files hname, and_comm]

end Accepted

/-- A parser that knows one body, of a text to be saved as `a.txt`. -/
def parseData (body data : List UInt8) : CStr → Option CJson :=
  parseText body data (ascii "a.txt")

/-- What its request is accepted as. -/
def textAccepted (body data : List UInt8) : SendAccepted :=
  ⟨heapString body, data, some (ascii "a.txt")⟩

/-- A text with an escaped NUL between two letters, and its body. -/
def nulText : List UInt8 := [97, 0, 98]

def nulBody : List UInt8 := ascii "\x7b\"data\":\"a\\u0000b\",\"saveToPath\":\"a.txt\"\x7d"

/-- A plain text arrives as it is. -/
theorem text_verbatim_iff_plain :
    ArrivesVerbatim true (ascii "a.txt") (ascii "hi") plainBody createdWorld
      (apiSendHandler (parseData plainBody (ascii "hi")) textFault
        (textRequest (.lit "34") plainBody) createdWorld) := by
  have hread : readRequest (parseData plainBody (ascii "hi")) false
      (textRequest (.lit "34") plainBody) = .ok (textAccepted plainBody (ascii "hi")) := by
    rfl
  have hnothing : NothingFails textFault (textRequest (.lit "34") plainBody)
      (textAccepted plainBody (ascii "hi")) createdWorld := ⟨rfl, by decide, by decide, rfl⟩
  have htake : plainBody.take (contentLength (textRequest (.lit "34") plainBody)).toNat
      = plainBody := by
    decide
  have h := (text_verbatim_iff _ textFault _ createdWorld rfl hread hnothing rfl rfl).mpr
    ⟨by decide, Or.inl ⟨by decide, by decide⟩⟩
  rw [htake] at h
  exact h

/-- An escaped NUL cuts the file: the request is answered 200 and the text is
    accepted as three bytes, one of which is stored. -/
theorem nul_cuts_text :
    readRequest (parseData nulBody nulText) false (textRequest (.lit "40") nulBody)
        = .ok (textAccepted nulBody nulText) ∧
      NothingFails textFault (textRequest (.lit "40") nulBody)
        (textAccepted nulBody nulText) createdWorld ∧
      Answers createdWorld (apiSendHandler (parseData nulBody nulText)
        textFault (textRequest (.lit "40") nulBody) createdWorld) 200 ∧
      (apiSendHandler (parseData nulBody nulText) textFault
        (textRequest (.lit "40") nulBody) createdWorld).files
          (fullPath true (some (heapString (ascii "a.txt")))) = some [97] := by
  have hread : readRequest (parseData nulBody nulText) false
      (textRequest (.lit "40") nulBody) = .ok (textAccepted nulBody nulText) := by
    rfl
  refine ⟨hread, ⟨rfl, by decide, by decide, rfl⟩, ⟨_, rfl, rfl⟩, ?_⟩
  have hname : (textAccepted nulBody nulText).saveToPath = some (ascii "a.txt") := rfl
  -- `fputs` writes what is in front of the NUL.
  have hsaved : (deliver textFault createdWorld.files (textAccepted nulBody nulText)).1
      = Function.update createdWorld.files (fullPath true (some (heapString (ascii "a.txt"))))
          (some (truncate nulText)) :=
    deliver_saved textFault rfl createdWorld.files hname (by decide)
  rw [apiSendHandler_files _ textFault _ createdWorld rfl hread, hsaved, Function.update_self]
  rfl

end Server

end SendingSystem
