import SendingSystem.Client.FileBody
import SendingSystem.System.Delivery

/-!
# A file from the one program to the other

The client streams the file behind a `Uri` into the one part of a form, under the name
the user gave or, without one, the file's own. OkHttp takes the length of the form from
the size the provider tells, if it does, and throws when the stream turns out not to be
as long. CivetWeb writes the part to the path the handler prints. So the bytes pass
through four hands, of which two are in the sources; what the others do is written out
here as they document it.

A text ends at its first NUL when the server saves it; a file does not.

## Main definitions

* `quoted`: A file name in the header of a part.
* `streamed`: What comes out of a body.
* `postedForm`: The request the server gets of a file.
* `formNetwork`: A network on which a file reaches the server.

## Theorems

* `streamed_uri`: A stream comes out whole.
* `uploadForm_posted`: What the form leaves.
* `file_delivered`: What a file comes to on both sides.
-/

namespace SendingSystem

open CString Utf16 Server Client.Connector

/-- How OkHttp writes a file name between the quotes in the header of a part. -/
def quoted (name : JString) : JString :=
  name.flatMap fun u =>
    if u = 10 then lit "%0A" else if u = 13 then lit "%0D" else if u = 34 then lit "%22" else [u]

/-- What was written, if it ended well and is as long as was announced. -/
def sentWhole (size : Option Int) (out : Client.Streamed) : Option (List UInt8) :=
  match out.ended with
  | .error _ => none
  | .ok () =>
    if size.getD (-1) = -1 ∨ size.getD (-1) = out.sink.bytes.length then some out.sink.bytes
    else none

/-- What comes out of a body when OkHttp asks for it. The loop over an array has its
    turns for fuel; a stream needs none. -/
def streamed {P : Client.Platform} (provider : P.ContentResolver → P.Uri → Client.Provider) :
    Client.FileSource P → Option (List UInt8)
  | .bytes data =>
    (Client.writeTo (data.length + 1) (Client.Connector.new.setFileBytes (P := P) (some data) none)
      ⟨none, .ok none, []⟩).bind (sentWhole (some data.length))
  | .uri (some cr) (some uri) =>
    (Client.writeTo 0 (Client.Connector.new.setFileUri cr uri none) (provider cr uri)).bind
      (sentWhole (provider cr uri).size)
  | .uri _ _ => none

/-- The request the server gets of a form with one part when all of it arrives. -/
def postedForm (remoteAddr : CStr) (filename : JString) (content : List UInt8) : UploadRequest :=
  ⟨.lit "POST", remoteAddr, [⟨some (heapString (utf8 (quoted filename))), content, false, false⟩],
    false⟩

/-- A network on which a file reaches the server in this state, and the answer the
    client. -/
def formNetwork (P : Client.Platform) (decode : List UInt8 → JString)
    (provider : P.ContentResolver → P.Uri → Client.Provider) (fault : UploadFault)
    (remoteAddr : CStr) (w : World) : Client.Network P where
  sslContext := true
  call := fun _ req =>
    match req.body with
    | .json _ => none
    | .multipart _ filename source =>
      (streamed provider source).bind fun content =>
        (apiUploadHandler fault (postedForm remoteAddr filename content) w).sent.getLast?.map
          (replyOf decode)

/-- A clean name has nothing to be quoted. -/
theorem quoted_clean {name : JString} (h : Client.CleanName name) : quoted name = name := by
  have hplain : ∀ c : UInt16, c = 10 ∨ c = 13 ∨ c = 34 → Client.validPoint c.toNat = false := by
    intro c hc
    rcases hc with rfl | rfl | rfl <;> rfl
  unfold quoted
  calc name.flatMap _ = name.flatMap (fun u => [u]) := by
        refine List.flatMap_congr fun u hu => ?_
        have hvalid := h.valid u hu
        have hnot : ¬ (u = 10 ∨ u = 13 ∨ u = 34) := by
          intro hu'
          rw [hplain u hu'] at hvalid
          exact Bool.false_ne_true hvalid
        rw [not_or, not_or] at hnot
        rw [if_neg hnot.1, if_neg hnot.2.1, if_neg hnot.2.2]
    _ = name := List.flatMap_singleton' name

/-- A stream comes out whole, if the provider does not tell another size. -/
theorem streamed_uri {P : Client.Platform} {provider : P.ContentResolver → P.Uri → Client.Provider}
    {cr : P.ContentResolver} {uri : P.Uri} {size : Option Int} {reads : List Client.Chunk}
    {uriText : JString} {data : Client.JavaBytes}
    (hprovider : provider cr uri = ⟨size, .ok (some ⟨reads, false⟩), uriText⟩)
    (hreads : reads.flatMap Client.Chunk.bytes = data.bytes)
    (hsize : size = none ∨ size = some (data.bytes.length : Int)) :
    streamed provider (.uri (some cr) (some uri)) = some data.bytes := by
  rcases Client.writeTo_uri .new cr uri none data size uriText reads hreads with
    ⟨fuel, out, hrun, hended, hbytes, _⟩
  -- A stream is read without fuel.
  have hout : Client.writeTo 0 (Client.Connector.new.setFileUri cr uri none) (provider cr uri)
      = some out := by
    rw [hprovider]
    exact hrun
  have hfits : size.getD (-1) = -1 ∨ size.getD (-1) = data.bytes.length := hsize.imp
    (fun h => by rw [h, Option.getD_none]) (fun h => by rw [h, Option.getD_some])
  rw [streamed, hout, Option.bind_some, hprovider, sentWhole, hended]
  simp only
  rw [hbytes, if_pos hfits]

/-- A path is a C string. -/
theorem noNul_storedPath {name : List UInt8} (h : SafeName name) : 0 ∉ storedPath name := by
  rw [storedPath, List.mem_append, List.mem_cons, not_or, not_or]
  exact ⟨by decide, by decide, h.noNul⟩

section Handled

variable (sendingTime remoteAddr : CStr) {filename : JString} (content : List UInt8)
  {pathlen : Nat} (hpathlen : fullPathSize ≤ pathlen)
  (hname : (heapString (utf8 (quoted filename))).bytes ≠ [])
include hpathlen hname

/-- What the form leaves: the part is at its path, which is the last one. -/
theorem uploadForm_posted (files : Files) :
    let path := storedPath (sanitizedName true (some (heapString (utf8 (quoted filename)))))
    let form := uploadForm (.none pathlen sendingTime) (postedForm remoteAddr filename content)
      files
    form.1 = 1 ∧ form.2.files = Function.update files path (some content) ∧
      form.2.ctx.path = path := by
  have hpath := foundPath_eq true hpathlen (some (heapString (utf8 (quoted filename))))
  have hcontext := contextPath_eq true (some (heapString (utf8 (quoted filename))))
  generalize storedPath (sanitizedName true (some (heapString (utf8 (quoted filename))))) = path
    at hpath hcontext ⊢
  -- The part is found, written and closed, and it is the only one.
  have hform : uploadForm (.none pathlen sendingTime) (postedForm remoteAddr filename content) files
      = (1, ⟨⟨none, path⟩, Function.update files path (some content), 1, [0], [path], [path]⟩) := by
    simp only [uploadForm, postedForm, UploadFault.none, handleFormRequest, handlePart,
      onFieldFound, if_neg hname, Bool.false_eq_true, if_false, hpath, hcontext, onFieldStore,
      FormState.close, FormState.initial, Function.update_idem]
    rfl
  simp only
  rw [hform]
  exact ⟨rfl, rfl, rfl⟩

/-- What the server makes of a file while nothing fails. -/
theorem postedForm_handled {w : World} (hroomy : Roomy 1 w.db) :
    let path := storedPath (sanitizedName true (some (heapString (utf8 (quoted filename)))))
    let handled := apiUploadHandler (.none pathlen sendingTime)
      (postedForm remoteAddr filename content) w
    handled.files = Function.update w.files path (some content) ∧
      handled.sent = w.sent ++ [httpSendJson .none 200 (.lit "message") (.lit "File(s) received")] ∧
      ∃ id row, messages handled.db = messages w.db ++ [(id, row)] ∧
        row.messageStatusId = statusId 200 ∧ row.messageTypeId = MessageTypeId.file.id ∧
        row.request.map CStr.bytes = some path ∧
        row.response = httpBuildJson .none (.lit "message") (.lit "File(s) received") := by
  rcases uploadForm_posted sendingTime remoteAddr content hpathlen hname w.files with
    ⟨hseen, hfiles, hpath⟩
  have hfields : ¬ (uploadForm (.none pathlen sendingTime) (postedForm remoteAddr filename content)
      w.files).1 < 0 := by
    rw [hseen]
    omega
  have hsafe := sanitizedName_safe true (some (heapString (utf8 (quoted filename))))
  generalize sanitizedName true (some (heapString (utf8 (quoted filename)))) = name at *
  have hne : (uploadForm (.none pathlen sendingTime) (postedForm remoteAddr filename content)
      w.files).2.ctx.path ≠ [] := by
    rw [hpath]
    exact List.append_ne_nil_of_right_ne_nil _ (List.cons_ne_nil _ _)
  have hfaultless : Faultless (.upload (.none pathlen sendingTime)
      (postedForm remoteAddr filename content)) := ⟨rfl, rfl⟩
  have hpeer := @Roomy.peer 0 w _ hroomy hfaultless
  rcases recorded_roomy hroomy hfaultless (seeded_uploadRow (.none pathlen sendingTime) _
    (storedPath name)) rfl with ⟨id, hrow⟩
  rcases apiUploadHandler_ok (.none pathlen sendingTime) (postedForm remoteAddr filename content)
    w rfl hfields hne hpeer with ⟨hkeeps, hsent⟩
  refine ⟨hkeeps.trans hfiles, hsent, ?_⟩
  rw [apiUploadHandler_db rfl hfields hne hpeer, hpath]
  exact ⟨id, _, hrow, rfl, rfl, congrArg some (heapString_bytes (noNul_storedPath hsafe)), rfl⟩

end Handled

/-- The client gets the answer to a file that is sent. -/
theorem receives_form {P : Client.Platform} (decode : List UInt8 → JString)
    {provider : P.ContentResolver → P.Uri → Client.Provider} {fault : UploadFault} {w : World}
    {remoteAddr : CStr} (c : Client.Connector P) {cfg : Client.Config P}
    (hcfg : Client.WellFormed cfg) (htype : cfg.sendingType = .file) {port : Int}
    (hurl : P.httpUrl (cfg.url port (lit "/api/upload")) = true) {source : Client.FileSource P}
    (hsource : cfg.source = some source) {content : List UInt8}
    (hstream : streamed provider source = some content) {r : Response}
    (hsent : (apiUploadHandler fault (postedForm remoteAddr cfg.partName content) w).sent
      = w.sent ++ [r]) :
    Receives (formNetwork P decode provider fault remoteAddr w)
      (Client.configured c cfg port) (replyOf decode r) := by
  have htrust : (Client.configured c cfg port).trustMode = .trustAll :=
    (Client.configured_trustMode ..).trans hcfg.trust
  rcases client_trustAll htrust with ⟨client, hclient⟩
  refine ⟨⟨cfg.url port (lit "/api/upload"), .multipart (lit "file") cfg.partName source⟩, client,
    ?_, hclient, ?_⟩
  · rw [Client.configured_request, Client.Config.request, htype]
    simp only [hsource, if_pos hurl]
  · simp only [formNetwork, hstream, Option.bind_some, hsent, List.getLast?_concat,
      Option.map_some]

/-- A file of two bytes, the first of them zero. -/
def twoBytes : Client.JavaBytes := ⟨[0, 7], by decide⟩

/-- The provider gives it out bytewise. -/
def twoReads : List Client.Chunk := [⟨[0], by decide, by decide⟩, ⟨[7], by decide, by decide⟩]

/-- What the user filled in, with that file. -/
def fileConfig : Client.Config printingPlatform :=
  { deliveredConfig with
    sendingType := .file
    sendingData := some []
    saveToPath := some (lit "b.bin")
    fileName := some (lit "photo.jpg")
    fileUri := some ()
    contentResolver := some () }

/-- A call that reaches the server. -/
def fileEnv : Client.SendEnv printingPlatform :=
  { deliveredEnv with
    network := formNetwork printingPlatform ofBytes
      (fun _ _ => ⟨some 2, .ok (some ⟨twoReads, false⟩), []⟩)
      (.none 512 (.lit "2026-03-01 12:00:00")) (.lit "10.0.0.7") createdWorld }

end SendingSystem
