import SendingSystem.Client.ScreenRuns
import SendingSystem.Lib.JsonText
import SendingSystem.Server.Wire
import SendingSystem.System.Histories

/-!
# What the user is told

The handlers answer with an object of two members that cJSON prints: a type, which
is `message` with status 200 and `error` with any other, and a text. The client
reads the body with org.json, compares the type without regard to case, and shows
the text behind one of two prefixes. Nothing but the two texts passes between the
programs, so what the user is told depends on what both make of JSON.

What org.json does is a hypothesis: it reads the texts that `JsonText` describes,
throws on the empty one, and `Character` maps the case of ASCII letters as usual.

## Main definitions

* `ReadsReplies`: What the client's libraries are documented to do.
* `Answered`: An answer with the type that goes with its status.
* `told`: The toast a response comes to.

## Theorems

* `PostRequest.answered`: Every answer is of that form.
* `fromJson_built`: What the client reads in a body.
* `told_answered`: The toast of an answer, whatever could not be allocated.
* `told_success_iff`: When the user is told of a success.
-/

namespace SendingSystem

open CString Utf16 CJson OrgJson JsonText Server Client Client.Connector

/-- What is documented of the client's libraries, as far as replies go. -/
structure ReadsReplies (lib : Libraries) : Prop where
  texts : ReadsTexts lib.json.parse
  empty : lib.json.parse [] = none
  upper : ∀ u < 128, lib.toUpperCase u = asciiLibraries.toUpperCase u
  lower : ∀ u < 128, lib.toLowerCase u = asciiLibraries.toLowerCase u

/-- The type that goes with a status. -/
def typeOf (status : Int) : CStr := if status = 200 then .lit "message" else .lit "error"

/-- An answer with a text, and the type that goes with its status. -/
structure Answered (fault : BuildFault) (r : Response) (data : CStr) : Prop where
  short : ShortAscii (typeOf r.status) data
  status : r.status = 200 ∨ 400 ≤ r.status
  built : r = httpSendJson fault r.status (typeOf r.status) data

/-- The toast a response of the server comes to, for a call that got it. -/
def told (lib : Libraries) (decode : List UInt8 → JString) (unknown : Option JString)
    (r : Response) : JString :=
  outcome lib unknown ((readReply (replyOf decode r)).map some)

/-- What a delivery comes to. -/
theorem deliver_cases (fault : SendFault) (files : Files) (accepted : SendAccepted) :
    deliver fault files accepted = (files, 200, .lit "message", .lit "OK") ∨
      (∃ files', deliver fault files accepted
        = (files', 200, .lit "message", .lit "File saved")) ∨
      deliver fault files accepted = (files, 500, .lit "error", .lit "Cannot save file") := by
  unfold deliver
  cases needSave accepted with
  | none => exact Or.inl rfl
  | some path =>
      simp only
      cases saveTextToFile fault.regcomp fault.file files (heapString accepted.data) path with
      | some files' => exact Or.inr (Or.inl ⟨files', rfl⟩)
      | none => exact Or.inr (Or.inr rfl)

/-- A delivery's type goes with its status. -/
theorem deliver_typeOf (fault : SendFault) (files : Files) (accepted : SendAccepted) :
    ((deliver fault files accepted).2.1 = 200 ∨ 400 ≤ (deliver fault files accepted).2.1) ∧
      (deliver fault files accepted).2.2.1 = typeOf (deliver fault files accepted).2.1 := by
  rcases deliver_cases fault files accepted with h | ⟨files', h⟩ | h
  · rw [h]
    exact ⟨Or.inl rfl, rfl⟩
  · rw [h]
    exact ⟨Or.inl rfl, rfl⟩
  · rw [h]
    exact ⟨Or.inr (show (400 : Int) ≤ 500 by omega), rfl⟩

/-- An error has a status of its own. -/
theorem answered_error (fault : BuildFault) {status : Int} (hstatus : 400 ≤ status) {msg : CStr}
    (hmsg : ShortAscii (.lit "error") msg) :
    Answered fault (httpSendError fault status msg) msg := by
  have htype : typeOf status = .lit "error" := if_neg (by omega)
  refine ⟨?_, Or.inr hstatus, ?_⟩
  · rw [httpSendError_status, htype]
    exact hmsg
  · rw [httpSendError_status, htype]
    rfl

/-- Every answer has a text, and the type that goes with its status. -/
theorem Server.PostRequest.answered (request : PostRequest) (w : World) :
    ∃ r data, (request.handle w).sent = w.sent ++ [r] ∧ Answered request.buildFault r data := by
  have hrequired : ShortAscii (.lit "error") (.lit "POST required") := by decide
  cases request with
  | send parse fault req =>
      by_cases hmethod : req.method = .lit "POST"
      · cases hread : readRequest parse fault.malloc req with
        | error e =>
            rcases e with ⟨status, msg⟩
            have hstatus : 400 ≤ status := by
              rcases readRequest_error_status hread with rfl | ⟨rfl, _⟩
              · decide
              · decide
            refine ⟨_, msg, ?_, answered_error fault.build hstatus (readRequest_error_texts hread)⟩
            exact congrArg World.sent (apiSendHandler_rejected parse fault req w hmethod hread)
        | ok accepted =>
            have hshort := deliver_texts fault w.files accepted
            rcases deliver_typeOf fault w.files accepted with ⟨hstatus, htype⟩
            have hsent : ((PostRequest.send parse fault req).handle w).sent = w.sent ++
                [httpSendBuiltJson (deliver fault w.files accepted).2.1 (httpBuildJson fault.build
                  (deliver fault w.files accepted).2.2.1
                  (deliver fault w.files accepted).2.2.2)] := by
              rw [PostRequest.handle, apiSendHandler_accepted parse fault req w hmethod hread,
                answerSend_sent]
            rw [htype] at hsent hshort
            exact ⟨_, _, hsent, hshort, hstatus, rfl⟩
      · have hsent := congrArg World.sent (apiSendHandler_method parse fault req w hmethod)
        exact ⟨_, _, hsent, answered_error fault.build (by decide) hrequired⟩
  | upload fault req =>
      rw [PostRequest.handle]
      cases uploadWay fault req w with
      | method hmethod =>
          rw [apiUploadHandler_method fault req w hmethod]
          exact ⟨_, _, rfl, answered_error fault.build (by decide) hrequired⟩
      | form hmethod hform =>
          rw [apiUploadHandler_form fault req w hmethod hform]
          exact ⟨_, _, rfl, answered_error fault.build (by decide) (by decide)⟩
      | noFile hmethod hform hpath =>
          rw [apiUploadHandler_noFile fault req w hmethod hform hpath]
          exact ⟨_, _, rfl, answered_error fault.build (by decide) (by decide)⟩
      | noConnection hmethod hform hpath hconn =>
          rw [apiUploadHandler_noConnection fault req w hmethod hform hpath hconn]
          exact ⟨_, _, rfl, answered_error fault.build (by decide) (by decide)⟩
      | ok hmethod hform hpath hconn =>
          rw [(apiUploadHandler_ok fault req w hmethod hform hpath hconn).2]
          have hshort : ShortAscii (typeOf 200) (.lit "File(s) received") := by decide
          exact ⟨_, .lit "File(s) received", rfl, hshort, Or.inl rfl, rfl⟩

section Reading

variable {lib : Libraries}

/-- ASCII texts are compared as usual. -/
theorem equalsIgnoreCase_ascii (h : ReadsReplies lib) {s t : JString} (hs : ∀ u ∈ s, u < 128)
    (ht : ∀ u ∈ t, u < 128) : lib.equalsIgnoreCase s t = asciiLibraries.equalsIgnoreCase s t := by
  -- A letter in upper case is ASCII again.
  have hupper : ∀ u < 128, asciiLibraries.toUpperCase u < 128 := by
    intro u hu
    simp only [asciiLibraries]
    split
    · next hletter =>
        have hle : (32 : UInt16) ≤ u := UInt16.le_trans (by decide : (32 : UInt16) ≤ 97) hletter.1
        rw [UInt16.lt_iff_toNat_lt, UInt16.toNat_sub_of_le _ _ hle]
        exact Nat.lt_of_le_of_lt (Nat.sub_le _ _) (UInt16.lt_iff_toNat_lt.mp hu)
    · exact hu
  have hchar : ∀ u < 128, ∀ v < 128, lib.sameChar u v = asciiLibraries.sameChar u v := by
    intro u hu v hv
    rw [Libraries.sameChar, Libraries.sameChar, h.upper u hu, h.upper v hv,
      h.lower _ (hupper u hu), h.lower _ (hupper v hv)]
  have hzip : ∀ (s t : JString), (∀ u ∈ s, u < 128) → (∀ u ∈ t, u < 128) →
      (s.zip t).all (fun p => lib.sameChar p.1 p.2)
        = (s.zip t).all (fun p => asciiLibraries.sameChar p.1 p.2) := by
    intro s
    induction s with
    | nil => exact fun _ _ _ => rfl
    | cons u s ih =>
        intro t hs ht
        cases t with
        | nil => rfl
        | cons v t =>
            rw [List.forall_mem_cons] at hs ht
            rw [List.zip_cons_cons, List.all_cons, List.all_cons, hchar u hs.1 v ht.1,
              ih t hs.2 ht.2]
  rw [Libraries.equalsIgnoreCase, Libraries.equalsIgnoreCase, hzip s t hs ht]

/-- The two types as the server writes them. -/
theorem parseResponseType_built (h : ReadsReplies lib) :
    parseResponseType lib (some (lit "message")) = some .message ∧
      parseResponseType lib (some (lit "error")) = some .error := by
  have hsame : ∀ t : ResponseType, ∀ s ∈ [lit "message", lit "error"],
      lib.equalsIgnoreCase t.name s = asciiLibraries.equalsIgnoreCase t.name s := by
    intro t s hs
    have hname : ∀ u ∈ t.name, u.toNat < 128 := by cases t <;> simp [ResponseType.name, lit]
    have hlit : ∀ s ∈ [lit "message", lit "error"], ∀ u ∈ s, u.toNat < 128 := by simp [lit]
    exact equalsIgnoreCase_ascii h (fun u hu => UInt16.lt_iff_toNat_lt.mpr (hname u hu))
      fun u hu => UInt16.lt_iff_toNat_lt.mpr (hlit s hs u hu)
  constructor
  · rw [parseResponseType, if_neg (by decide)]
    simp only [ResponseType.values, List.find?_cons, hsame _ (lit "message") List.mem_cons_self]
    rfl
  · rw [parseResponseType, if_neg (by decide)]
    simp only [ResponseType.values, List.find?_cons,
      hsame _ (lit "error") (List.mem_cons_of_mem _ List.mem_cons_self)]
    rfl

/-- The object a body says, by what made it into it. -/
def builtObject (fault : BuildFault) (type data : CStr) : JSONObject where
  members := (builtMembers fault type data).map fun m => (ofBytes m.1, .string (ofBytes m.2))
  nodup := by
    have hboth : [ofBytes (ascii "type"), ofBytes (ascii "data")].Nodup := by decide
    rw [builtMembers]
    cases fault.type with
    | true =>
        cases fault.data with
        | true => exact List.nodup_nil
        | false => exact List.nodup_singleton _
    | false =>
        cases fault.data with
        | true => exact List.nodup_singleton _
        | false => exact hboth

/-- What the client finds in it. -/
theorem builtObject_optString (fault : BuildFault) (type data : CStr) :
    (builtObject fault type data).optString (lit "type") none
        = (if fault.type then none else some (ofBytes type.bytes)) ∧
      (builtObject fault type data).optString (lit "data") none
        = (if fault.data then none else some (ofBytes data.bytes)) := by
  have htype : (ofBytes (ascii "type") = lit "type") ∧ (ofBytes (ascii "data") = lit "data") ∧
      lit "type" ≠ lit "data" := by decide
  simp only [JSONObject.optString, JSONObject.opt, builtObject, builtMembers]
  cases fault.type <;> cases fault.data <;>
    simp only [Bool.false_eq_true, if_true, if_false, List.nil_append, List.cons_append,
      List.map_cons, List.map_nil, List.find?_cons, List.find?_nil, htype.1, htype.2.1, htype.2.2,
      htype.2.2.symm, decide_true, decide_false, Option.map_some, Option.map_none, Value.valueOf,
      and_self]

/-- What the client reads in a body. -/
theorem fromJson_built (h : ReadsReplies lib) {fault : BuildFault} {type data s : CStr}
    (hshort : ShortAscii type data) (hbuilt : httpBuildJson fault type data = some s) :
    fromJson lib (ofBytes s.bytes) =
      match parseResponseType lib (if fault.type then none else some (ofBytes type.bytes)) with
      | none => .error (.illegalArgumentException (lit "Unknown response type: " ++
          concat (if fault.type then none else some (ofBytes type.bytes))))
      | some t => .ok ⟨some t, if fault.data then none else some (ofBytes data.bytes)⟩ := by
  have htext : ObjectText (ofBytes s.bytes) (builtObject fault type data).members := by
    rw [httpBuildJson_bytes hshort hbuilt]
    refine objectText_cjson fun m hm b hb => ?_
    have hkeys : ∀ b ∈ ascii "type" ++ ascii "data", b.toNat < 128 :=
      List.all_iff_forall_prop.mp (by decide)
    -- A member has one of the two names and one of the two texts.
    rw [builtMembers, List.mem_append] at hm
    rw [List.mem_append] at hb
    rcases hm with hm | hm
    · split at hm
      · exact absurd hm List.not_mem_nil
      · rw [List.mem_singleton.mp hm] at hb
        rcases hb with hb | hb
        · exact hkeys b (List.mem_append_left _ hb)
        · exact hshort.1 b hb
    · split at hm
      · exact absurd hm List.not_mem_nil
      · rw [List.mem_singleton.mp hm] at hb
        rcases hb with hb | hb
        · exact hkeys b (List.mem_append_right _ hb)
        · exact hshort.2.1 b hb
  rcases builtObject_optString fault type data with ⟨htype, hdata⟩
  rw [fromJson, h.texts _ _ htext]
  cases hparse : parseResponseType lib (if fault.type then none else some (ofBytes type.bytes)) with
  | none => simp only [htype, hparse]
  | some t => simp only [htype, hdata, hparse]

variable {decode : List UInt8 → JString} (unknown : Option JString)

/-- Without an object or its text there is nothing to read. -/
theorem told_null (h : ReadsReplies lib) (hdecode : ∀ l, (∀ b ∈ l, b.toNat < 128) →
    decode l = ofBytes l) {r : Response} (hstatus : r.status = 200 ∨ 400 ≤ r.status)
    (hbody : r.body = []) :
    told lib decode unknown r =
      if r.status = 200 then lit "Error: " ++ concat unknown
      else lit "Error: " ++ (lit "HTTP " ++ decimal r.status ++ lit " " ++ ofBytes r.reason.bytes)
        := by
  have hempty : (replyOf decode r).body.getD [] = [] := by
    have hnil := hdecode [] fun b hb => absurd hb List.not_mem_nil
    simp only [replyOf, hbody, Option.getD_some, hnil]
    rfl
  have hcode : (replyOf decode r).code = r.status := rfl
  unfold told readReply
  simp only [hempty, and_true]
  by_cases hok : r.status = 200
  · have hsuccess : (replyOf decode r).isSuccessful ≠ false := by
      rw [HttpReply.isSuccessful, hcode, hok]
      decide
    rw [if_pos hok, if_neg hsuccess]
    simp only [Except.map, outcome, readResponse, fromJson, h.empty, Failure.getMessage]
  · have hfailure : (replyOf decode r).isSuccessful = false := by
      rw [HttpReply.isSuccessful, hcode, Bool.and_eq_false_iff]
      exact Or.inr (decide_eq_false (by omega))
    rw [if_neg hok, if_pos hfailure]
    simp only [Except.map, outcome, Failure.getMessage, concat, Option.getD_some, hcode]
    rfl

/-- The toast of an answer, whatever could not be allocated for it. -/
theorem told_answered (h : ReadsReplies lib) (hdecode : ∀ l, (∀ b ∈ l, b.toNat < 128) →
    decode l = ofBytes l) {fault : BuildFault} {r : Response} {data : CStr}
    (hr : Answered fault r data) :
    told lib decode unknown r =
      if fault.object = true ∨ fault.print = true then
        if r.status = 200 then lit "Error: " ++ concat unknown
        else lit "Error: " ++ (lit "HTTP " ++ decimal r.status ++ lit " " ++ ofBytes r.reason.bytes)
      else if fault.type = true then lit "Error: " ++ lit "Unknown response type: null"
      else (if r.status = 200 then lit "Server response: " else lit "Error: ") ++
        (if fault.data then lit "null" else ofBytes data.bytes) := by
  rcases hr with ⟨hshort, hstatus, hr⟩
  cases hbuilt : httpBuildJson fault (typeOf r.status) data with
  | none =>
      have hbody : r.body = [] := by
        rw [hr, httpSendJson, hbuilt]
        rfl
      rw [if_pos (httpBuildJson_eq_none.mp hbuilt), told_null unknown h hdecode hstatus hbody]
  | some s =>
      have hsome : ¬ (fault.object = true ∨ fault.print = true) := by
        intro hnull
        rw [httpBuildJson_eq_none.mpr hnull] at hbuilt
        exact absurd hbuilt (Option.some_ne_none s).symm
      rcases httpBuildJson_some hshort hbuilt with ⟨hne, hascii, hbody⟩
      -- A body that is there is read, whatever the status.
      have hread : readReply (replyOf decode r) = .ok (ofBytes s.bytes) := by
        have htext : (replyOf decode r).body = some (ofBytes s.bytes) := by
          rw [hr, httpSendJson, hbuilt, replyOf, hbody, hdecode s.bytes hascii]
        rcases readReply_cases (replyOf decode r) with ⟨hok, _⟩ | ⟨_, _, _, hno⟩
        · rw [hok, htext]
          rfl
        · rw [htext, Option.getD_some, ofBytes_eq_nil] at hno
          exact absurd hno hne
      rw [if_neg hsome, told, hread]
      simp only [Except.map, outcome, readResponse, fromJson_built h hshort hbuilt]
      by_cases htype : fault.type = true
      · simp only [htype, if_true, parseResponseType, Failure.getMessage, concat, Option.getD_some,
          Option.getD_none]
        rfl
      · rcases parseResponseType_built h with ⟨hmessage, herror⟩
        rw [Bool.not_eq_true] at htype
        by_cases hok : r.status = 200
        · have hname : ofBytes (typeOf r.status).bytes = lit "message" := by
            rw [typeOf, if_pos hok]
            rfl
          rw [if_pos hok]
          simp only [htype, hname, hmessage, Bool.false_eq_true, if_false, reduceCtorEq,
            Option.some.injEq]
          cases fault.data <;> rfl
        · have hname : ofBytes (typeOf r.status).bytes = lit "error" := by
            rw [typeOf, if_neg hok]
            rfl
          rw [if_neg hok]
          simp only [htype, hname, herror, Bool.false_eq_true, if_true, if_false]
          cases fault.data <;> rfl

end Reading

/-- For every request to either handler, whatever fails on the way, and whatever the
    client's libraries do beyond what is documented: the user is told of a success
    exactly if the status is 200 and the object, its type and its text could be
    allocated; where all could, the toast is the prefix that goes with the status and
    the text of the answer; and with a history row that was added, the user is told of
    a success exactly if the row is one and the object, its type and its text could be
    allocated. -/
theorem told_success_iff {lib : Libraries} (h : ReadsReplies lib) {decode : List UInt8 → JString}
    (hdecode : ∀ l, (∀ b ∈ l, b.toNat < 128) → decode l = ofBytes l) (unknown : Option JString)
    (request : PostRequest) (w : World) :
    ∃ r data, (request.handle w).sent = w.sent ++ [r] ∧ Answered request.buildFault r data ∧
      (lit "Server response: " <+: told lib decode unknown r ↔
        r.status = 200 ∧ request.buildFault.object = false ∧ request.buildFault.print = false ∧
          request.buildFault.type = false) ∧
      (request.buildFault = .none → told lib decode unknown r =
        (if r.status = 200 then lit "Server response: " else lit "Error: ") ++
          ofBytes data.bytes) ∧
      ∀ id row, Server.messages (request.handle w).db = Server.messages w.db ++ [(id, row)] →
        (lit "Server response: " <+: told lib decode unknown r ↔
          row.messageStatusId = MessageStatusId.success.id ∧ request.buildFault.object = false ∧
            request.buildFault.print = false ∧ request.buildFault.type = false) := by
  rcases request.answered w with ⟨r, data, hsent, hr⟩
  have htold := told_answered unknown h hdecode hr
  -- The two prefixes differ in their first letter.
  have hother : ∀ t, ¬ lit "Server response: " <+: lit "Error: " ++ t := by
    rintro t ⟨rest, hrest⟩
    have hhead : (83 : UInt16) = 69 := Option.some.inj (congrArg List.head? hrest)
    exact absurd hhead (by decide)
  have hiff : lit "Server response: " <+: told lib decode unknown r ↔
      r.status = 200 ∧ request.buildFault.object = false ∧ request.buildFault.print = false ∧
        request.buildFault.type = false := by
    rw [htold]
    by_cases hnull : request.buildFault.object = true ∨ request.buildFault.print = true
    · rw [if_pos hnull]
      refine iff_of_false ?_ fun hall => ?_
      · split
        · exact hother _
        · exact hother _
      · rw [hall.2.1, hall.2.2.1] at hnull
        exact hnull.elim Bool.false_ne_true Bool.false_ne_true
    · rw [if_neg hnull]
      rw [not_or, Bool.not_eq_true, Bool.not_eq_true] at hnull
      by_cases htype : request.buildFault.type = true
      · rw [if_pos htype]
        refine iff_of_false (hother _) fun hall => ?_
        rw [hall.2.2.2] at htype
        exact Bool.false_ne_true htype
      · rw [if_neg htype]
        by_cases hok : r.status = 200
        · rw [if_pos hok]
          exact iff_of_true (List.prefix_append _ _)
            ⟨hok, hnull.1, hnull.2, Bool.not_eq_true _ ▸ htype⟩
        · rw [if_neg hok]
          exact iff_of_false (hother _) fun hall => hok hall.1
  refine ⟨r, data, hsent, hr, hiff, fun hnone => ?_, fun id row hrow => ?_⟩
  · rw [htold, hnone]
    rfl
  · rcases request.recorded w with ⟨r', hsent', _, hsame | ⟨id', row', hrow', hrecords⟩⟩
    · rw [hsame] at hrow
      exact absurd (List.self_eq_append_right.mp hrow) (List.cons_ne_nil _ _)
    · rw [hsent, List.append_cancel_left_eq, List.cons.injEq] at hsent'
      rw [hrow', List.append_cancel_left_eq, List.cons.injEq, Prod.mk.injEq] at hrow
      rw [hiff, ← hrow.1.2, hrecords.status, ← hsent'.1]

theorem readsReplies_ascii : ReadsReplies asciiLibraries where
  texts := readsTexts_plain
  empty := rfl
  upper := fun _ _ => rfl
  lower := fun _ _ => rfl

/-- A text that could not be saved. -/
theorem told_success_iff_notSaved :
    ∃ r, (apiSendHandler sampleParse (sampleFault true) sampleRequest createdWorld).sent = [r] ∧
      r.status = 500 ∧ ¬ lit "Server response: " <+: told asciiLibraries ofBytes none r := by
  rcases told_success_iff readsReplies_ascii (fun l _ => rfl) none
    (.send sampleParse (sampleFault true) sampleRequest) createdWorld with
    ⟨r, data, hsent, _, hiff, _⟩
  have hstatus : (apiSendHandler sampleParse (sampleFault true) sampleRequest
      createdWorld).sent.map Response.status = [500] := by rfl
  have hone : (apiSendHandler sampleParse (sampleFault true) sampleRequest
      createdWorld).sent = [r] :=
    hsent
  rw [hone, List.map_singleton, List.cons.injEq] at hstatus
  refine ⟨r, hone, hstatus.1, fun htold => ?_⟩
  rw [hiff, hstatus.1] at htold
  exact absurd htold.1 (by decide)

end SendingSystem
