import SendingSystem.System.FileNames
import SendingSystem.System.Histories

/-!
# From the name the user sees to the name that is stored

The client sanitises the name twice before it sends it, the server once more when
it gets it. A clean name is ASCII, so it is the same in UTF-16 and on the wire,
and it is safe in the server's sense as long as it fits the server's array. What
arrives under it, a text or a file, is therefore stored under it.

Printing and parsing JSON, and carrying the file name of a form part, are outside
of both programs: `TextArrives` and `FileArrives` say that a request arrives as
the client built it.

## Main definitions

* `TextArrives`, `FileArrives`: The server gets the request the client built.

## Theorems

* `safeName_utf8`: A clean name that is not too long is a safe one.
* `textArrives_accepted`: What is saved of a text that arrives.
* `seen_name_is_stored`: The name the client shows is the name that is stored.
-/

namespace SendingSystem

open CString Utf16 CJson Server

variable {P : Client.Platform}

/-- The server gets the JSON request the client built: its body, with its length,
    which parses to the members that were put in, as UTF-8. -/
structure TextArrives (parse : CStr → Option CJson) (c : Client.Connector P) (req : SendRequest) :
    Prop where
  method : req.method = .lit "POST"
  body : req.body = some (utf8 (P.jsonObject c.jsonMembers))
  length : contentLength req = (utf8 (P.jsonObject c.jsonMembers)).length
  parsed : parse (heapString (utf8 (P.jsonObject c.jsonMembers)))
    = some (.object (c.jsonMembers.map (fun m => (utf8 m.1, .string (utf8 m.2)))))

/-- The server gets the form the client built: one part, under the name it was given. -/
structure FileArrives (c : Client.Connector P) (req : UploadRequest) (part : Part) : Prop where
  method : req.method = .lit "POST"
  parts : req.parts = [part]
  filename : part.filename.map (fun s => s.bytes) = some (utf8 c.multipartName)

/-- A clean name that is not too long is a safe one, and the same on the wire. -/
theorem safeName_utf8 {name : JString} (h : Client.CleanName name) (hlen : name.length ≤ 254) :
    SafeName (utf8 name) ∧ (utf8 name).length ≤ 254 := by
  rcases exists_ofBytes h.ascii with ⟨l, hl, rfl⟩
  rw [utf8_ofBytes hl]
  have hlen' : l.length ≤ 254 := by
    rw [ofBytes, List.length_map] at hlen
    exact hlen
  have hdot : Server.dot.toUInt16 = Client.dot := rfl
  -- Byte by byte the two classes and the two dots are the same.
  refine ⟨{
    valid := fun b hb => ?_
    nonempty := fun hnil => h.nonempty (ofBytes_eq_nil.mpr hnil)
    length_le := Nat.le_trans hlen' (by decide)
    noDotdot := fun hpair => h.noDotdot (hpair.map UInt8.toUInt16)
    head := fun hhead => h.head ?_ }, hlen'⟩
  · rw [← validPoint_toNat, ← toNat_toUInt16]
    exact h.valid _ (List.mem_map_of_mem hb)
  · rw [ofBytes, List.head?_map, hhead, Option.map_some, hdot]

/-- The server's sanitiser leaves a clean name alone. -/
theorem safeName_clean {name : JString} (h : Client.CleanName name) (hlen : name.length ≤ 254)
    {s : CStr} (hs : s.bytes = utf8 name) : safeName true (some s) = utf8 name := by
  rcases safeName_utf8 h hlen with ⟨hsafe, hlen'⟩
  rw [safeName_eq, sanitizedName_of_safe s (hs ▸ hsafe) (hs ▸ hlen'), hs]

/-- The members of the JSON body, looked up as the handler does. -/
theorem members_lookup (c : Client.Connector P) :
    getObjectItem (.object (c.jsonMembers.map (fun m => (utf8 m.1, .string (utf8 m.2)))))
        (ascii "data") = c.sendingData.map (fun d => .string (utf8 d)) ∧
      getObjectItem (.object (c.jsonMembers.map (fun m => (utf8 m.1, .string (utf8 m.2)))))
        (ascii "saveToPath") = c.savedName.map (fun name => .string (utf8 name)) := by
  have hdata : sameName (utf8 (lit "data")) (ascii "data") = true := by decide
  have hpath : sameName (utf8 (lit "saveToPath")) (ascii "saveToPath") = true := by decide
  have hdata' : sameName (utf8 (lit "data")) (ascii "saveToPath") = false := by decide
  have hpath' : sameName (utf8 (lit "saveToPath")) (ascii "data") = false := by decide
  unfold Client.Connector.jsonMembers getObjectItem
  -- Either member may be missing, and neither is taken for the other.
  cases c.sendingData with
  | none =>
      cases c.savedName with
      | none => exact ⟨rfl, rfl⟩
      | some name =>
          simp only [Option.map_none, Option.map_some, Option.toList_none, Option.toList_some,
            List.nil_append, List.map_cons, List.map_nil, List.find?_cons, List.find?_nil, hpath,
            hpath', and_self]
  | some d =>
      cases c.savedName with
      | none =>
          simp only [Option.map_none, Option.map_some, Option.toList_none, Option.toList_some,
            List.append_nil, List.map_cons, List.map_nil, List.find?_cons, List.find?_nil, hdata,
            hdata', and_self]
      | some name =>
          simp only [Option.map_some, Option.toList_some, List.singleton_append, List.map_cons,
            List.map_nil, List.find?_cons, hdata, hpath, hdata', and_self]

/-- A text that arrives and is accepted is saved under the connector's name. -/
theorem textArrives_accepted {parse : CStr → Option CJson} {c : Client.Connector P}
    {req : SendRequest} (h : TextArrives parse c req) {malloc : Bool} {accepted : SendAccepted}
    (hread : readRequest parse malloc req = .ok accepted) {name : JString}
    (hname : c.saveToPath = some name) (hclean : Client.CleanName name) (hlen : name.length ≤ 254) :
    needSave accepted = some (heapString (utf8 name)) ∧
      some accepted.data = c.sendingData.map utf8 := by
  rcases readRequest_ok_iff.mp hread with ⟨_, _, _, l, root, data, hbody, _, hparse, hdata, rfl⟩
  rw [h.body, Option.some.injEq] at hbody
  subst hbody
  rw [h.length, Int.toNat_natCast, List.take_length, h.parsed, Option.some.injEq] at hparse
  subst hparse
  rcases members_lookup c with ⟨hdataItem, hpathItem⟩
  -- A clean name is not empty, so the client does put it into the body.
  have hsaved : c.savedName = some name := by
    rw [Client.Connector.savedName, hname, Option.filter_some,
      if_pos (decide_eq_true hclean.nonempty)]
  constructor
  · have hsafe := (safeName_utf8 hclean hlen).1
    have hne : (heapString (utf8 name)).bytes ≠ [] := by
      rw [heapString_bytes hsafe.noNul]
      exact hsafe.nonempty
    simp only [needSave, hpathItem, hsaved, Option.map_some, stringValue, if_neg hne]
  · rw [hdataItem] at hdata
    cases hsending : c.sendingData with
    | none => simp only [hsending, Option.map_none, reduceCtorEq] at hdata
    | some d =>
        rw [hsending, Option.map_some, Option.some.injEq, CJson.string.injEq] at hdata
        simp only [hdata, Option.map_some]

/-- For every text the user gives as a file name, as long as its sanitised form
    has at most 254 characters: the connector holds that form, the server's
    sanitiser maps it to itself, and what the server writes for the request, a
    text or a file, it writes under that form in its directory. -/
theorem seen_name_is_stored (P : Client.Platform) (s : JString) (hs : s ≠ [])
    (hlen : (Client.sanitizeFilename (some s)).length ≤ 254) (c : Client.Connector P)
    (cfg : Client.Config P) (hcfg : cfg.saveToPath = some s) (port : Int) :
    (Client.configured c cfg port).saveToPath = some (Client.sanitizeFilename (some s)) ∧
    (∀ name : CStr, name.bytes = utf8 (Client.sanitizeFilename (some s)) →
      safeName true (some name) = name.bytes) ∧
    (∀ (parse : CStr → Option CJson) (fault : SendFault) (req : SendRequest) (w : World)
      (accepted : SendAccepted), fault.regcomp = true →
      TextArrives parse (Client.configured c cfg port) req →
      readRequest parse fault.malloc req = .ok accepted →
      some (apiSendHandler parse fault req w).files = cfg.sendingData.map (fun d =>
        (storeFile fault.file w.files (storedPath (utf8 (Client.sanitizeFilename (some s))))
          (truncate (utf8 d))).getD w.files)) ∧
    (∀ (fault : UploadFault) (req : UploadRequest) (w : World) (part : Part),
      fault.regcomp = true → fullPathSize ≤ fault.pathlen →
      FileArrives (Client.configured c cfg port) req part →
      (apiUploadHandler fault req w).files =
        if part.fopen then w.files
        else Function.update w.files (storedPath (utf8 (Client.sanitizeFilename (some s))))
          (if part.write then none else some part.content)) := by
  have hname := Client.configured_saveToPath c cfg port
  rw [hcfg] at hname
  have hclean := Client.sanitizeFilename_clean hs
  generalize Client.sanitizeFilename (some s) = name at *
  have hsafe := (safeName_utf8 hclean hlen).1
  refine ⟨hname, fun t ht => ?_, ?_, ?_⟩
  · rw [safeName_clean hclean hlen ht, ht]
  · intro parse fault req w accepted hregcomp harrives hread
    -- The text: what is parsed is what was put in, and the name is left alone.
    rcases textArrives_accepted harrives hread hname hclean hlen with ⟨hsave, hdata⟩
    rw [Client.configured_sendingData] at hdata
    have hpath : fullPath true (some (heapString (utf8 name))) = storedPath (utf8 name) := by
      rw [fullPath, savePath, safeName_clean hclean hlen (heapString_bytes hsafe.noNul)]
      exact List.take_of_length_le (by have := length_storedPath hsafe; omega)
    rw [apiSendHandler_accepted parse fault req w harrives.method hread]
    cases hsending : cfg.sendingData with
    | none =>
        rw [hsending] at hdata
        simp only [Option.map_none, reduceCtorEq] at hdata
    | some d =>
        rw [hsending, Option.map_some, Option.some.injEq] at hdata
        simp only [answerSend, World.send, deliver, hsave, saveTextToFile, hregcomp, hpath, hdata,
          Option.map_some, Option.some.injEq]
        rw [heapString]
        cases storeFile fault.file w.files (storedPath (utf8 name)) (truncate (utf8 d)) with
        | none => rfl
        | some files => rfl
  · intro fault req w part hregcomp hpathlen harrives
    have hsaved : (Client.configured c cfg port).multipartName = name := by
      rw [Client.Connector.multipartName, Client.Connector.savedName, hname, Option.filter_some,
        if_pos (decide_eq_true hclean.nonempty)]
    have hfilename := harrives.filename
    rw [hsaved, Option.map_eq_some_iff] at hfilename
    rcases hfilename with ⟨filename, hpart, hbytes⟩
    have hne : filename.bytes ≠ [] := hbytes ▸ hsafe.nonempty
    have hpath : foundPath true fault.pathlen (some filename) = storedPath (utf8 name) := by
      rw [foundPath, savePath, safeName_clean hclean hlen hbytes]
      exact List.take_of_length_le (by have := length_storedPath hsafe; omega)
    -- A form with one part leaves the files as that part does.
    have hform : (uploadForm fault req w.files).2.files
        = (handlePart fault.regcomp fault.pathlen part (FormState.initial w.files)).2.files := by
      rw [uploadForm, harrives.parts]
      simp only [handleFormRequest, FormState.files_close]
      split
      · next h => rw [h]
      · next h => rw [h]
    rw [apiUploadHandler_files fault req w harrives.method, hform, handlePart_files hpart hne,
      hregcomp, hpath]
    rfl

/-- A text given the name `.a.txt` is saved as `a.txt`. -/
theorem seen_name_is_stored_hidden :
    some (apiSendHandler sampleParse (sampleFault false) sampleRequest createdWorld).files
      = some (Function.update createdWorld.files (ascii "build/saves/a.txt") (some (ascii "hi"))) :=
  ((seen_name_is_stored Client.pinningPlatform (lit ".a.txt") (by decide) (by decide) .new
    { sampleConfig with saveToPath := some (lit ".a.txt") } rfl 5000).2.2.1 sampleParse
    (sampleFault false) sampleRequest createdWorld
    ⟨heapString sampleBody, ascii "hi", some (ascii "a.txt")⟩ rfl
    ⟨rfl, by decide, by decide, by rfl⟩ (by rfl)).trans (by rfl)

end SendingSystem
