import SendingSystem.Lib.CJson
import SendingSystem.Server.Config

/-!
# JSON responses

`http_json.c`: the body `{"type":…,"data":…}` is built on the heap, so any of
its allocations may fail, and is then written behind a header that states its
length. A body that could not be built is a null pointer, which is sent as an
empty one.

## Main definitions

* `BuildFault`: The allocations that fail while a body is built.
* `httpBuildJson`: The body, or a null pointer.
* `Response`: What is written to the connection.
* `httpSendBuiltJson`: Header and body of one response.
* `ShortAscii`: What the handlers' texts are like.

## Theorems

* `httpSendBuiltJson_status`, `httpSendError_status`: The status that was asked for.
* `httpBuildJson_eq_none`: When there is no body.
* `httpBuildJson_bytes`, `length_httpBuildJson`: The text that is built, and how long.
* `httpSendBuiltJson_body`, `httpBuildJson_some`: The body that is sent.
* `httpSendBuiltJson_wire`: The header states the length of the body.
-/

namespace SendingSystem

namespace Server

open CString CJson

/-- The allocations of `http_build_json` that fail: the object, its two members
    and the printed text. -/
structure BuildFault where
  object : Bool
  type : Bool
  data : Bool
  print : Bool

/-- Nothing fails. -/
def BuildFault.none : BuildFault := ⟨false, false, false, false⟩

/-- The members that made it into the object. -/
def builtMembers (fault : BuildFault) (type data : CStr) : List (List UInt8 × List UInt8) :=
  (if fault.type then [] else [(ascii "type", type.bytes)]) ++
    (if fault.data then [] else [(ascii "data", data.bytes)])

/-- A heap string holding these bytes and a terminator. -/
def heapString (bytes : List UInt8) : CStr := ⟨truncate bytes, noNul_truncate bytes⟩

/-- `http_build_json(type, data)`. Every cJSON call takes a null object in its
    stride, and a member that cannot be allocated is left out. -/
def httpBuildJson (fault : BuildFault) (type data : CStr) : Option CStr :=
  if fault.object then Option.none
  else if fault.print then Option.none
  else some (heapString (printObject (builtMembers fault type data)))

/-- One HTTP response: the status line, the `Content-Length` header and the body
    bytes that follow. The other headers are constants. -/
structure Response where
  status : Int
  reason : CStr
  contentLength : Int
  body : List UInt8

/-- The reason phrase. -/
def reasonPhrase (status : Int) : CStr :=
  if status = 200 then .lit "OK"
  else if status = 400 then .lit "Bad Request"
  else if status = 405 then .lit "Method Not Allowed"
  else if status = 500 then .lit "Internal Server Error"
  else .lit "Error"

/-- `(int)strlen(json)`, `0` for a null pointer. -/
def builtLength (json : Option CStr) : Int :=
  match json with
  | Option.none => 0
  | some s => (s.bytes.length : Int).bmod (2 ^ 32)

/-- `http_send_built_json(conn, status, json)`. -/
def httpSendBuiltJson (status : Int) (json : Option CStr) : Response :=
  let length := builtLength json
  ⟨status, reasonPhrase status, length,
    if 0 < length then (json.map (fun s => s.bytes.take length.toNat)).getD [] else []⟩

/-- `http_send_json(conn, status, type, data)`. -/
def httpSendJson (fault : BuildFault) (status : Int) (type data : CStr) : Response :=
  httpSendBuiltJson status (httpBuildJson fault type data)

/-- `http_send_error(conn, status, msg)`. -/
def httpSendError (fault : BuildFault) (status : Int) (msg : CStr) : Response :=
  httpSendJson fault status (.lit "error") msg

theorem heapString_bytes {bytes : List UInt8} (h : 0 ∉ bytes) : (heapString bytes).bytes = bytes :=
  truncate_of_noNul bytes h

theorem httpSendBuiltJson_status (status : Int) (json : Option CStr) :
    (httpSendBuiltJson status json).status = status := rfl

theorem httpSendBuiltJson_contentLength (status : Int) (json : Option CStr) :
    (httpSendBuiltJson status json).contentLength = builtLength json := rfl

theorem httpSendError_status (fault : BuildFault) (status : Int) (msg : CStr) :
    (httpSendError fault status msg).status = status := rfl

/-- There is no body when the object or its text cannot be allocated. -/
theorem httpBuildJson_eq_none {fault : BuildFault} {type data : CStr} :
    httpBuildJson fault type data = Option.none ↔ fault.object = true ∨ fault.print = true := by
  unfold httpBuildJson
  by_cases hobject : fault.object = true
  · rw [if_pos hobject]
    exact ⟨fun _ => Or.inl hobject, fun _ => rfl⟩
  · rw [if_neg hobject]
    by_cases hprint : fault.print = true
    · rw [if_pos hprint]
      exact ⟨fun _ => Or.inr hprint, fun _ => rfl⟩
    · rw [if_neg hprint]
      simp only [reduceCtorEq, hobject, hprint, or_self]

/-- A length below `2^31` survives the conversion to `int`. -/
theorem bmod_of_lt {n : Nat} (h : n < 2 ^ 31) : (n : Int).bmod (2 ^ 32) = n := by
  rw [Int.bmod_eq_of_le_mul_two]
  · omega
  · have hpow : ((2 ^ 32 : Nat) : Int) = 4294967296 := rfl
    omega

/-- A body shorter than `2^31` bytes is sent as it is. -/
theorem httpSendBuiltJson_body (status : Int) {s : CStr} (hlen : s.bytes.length < 2 ^ 31) :
    (httpSendBuiltJson status (some s)).body = s.bytes := by
  have hbuilt : builtLength (some s) = s.bytes.length := by
    unfold builtLength
    exact bmod_of_lt hlen
  simp only [httpSendBuiltJson, hbuilt, Option.map_some, Option.getD_some, Int.toNat_natCast,
    List.take_length]
  split
  · rfl
  · next h => exact (List.length_eq_zero_iff.mp (by omega)).symm

/-- Two texts in ASCII, short like the ones the handlers answer with. -/
def ShortAscii (type data : CStr) : Prop :=
  (∀ b ∈ type.bytes, b.toNat < 128) ∧ (∀ b ∈ data.bytes, b.toNat < 128) ∧
    type.bytes.length + data.bytes.length ≤ 1000

instance (type data : CStr) : Decidable (ShortAscii type data) :=
  decidable_of_iff
    ((type.bytes.all fun b => decide (b.toNat < 128)) = true ∧
      (data.bytes.all fun b => decide (b.toNat < 128)) = true ∧
        type.bytes.length + data.bytes.length ≤ 1000)
    (by rw [ShortAscii, List.all_iff_forall_prop, List.all_iff_forall_prop])

/-- What is printed of two ASCII texts is ASCII without NUL. -/
theorem printObject_builtMembers (fault : BuildFault) {type data : CStr}
    (hshort : ShortAscii type data) :
    ∀ c ∈ printObject (builtMembers fault type data), c ≠ 0 ∧ c.toNat < 128 := by
  rcases hshort with ⟨htype, hdata, _⟩
  refine printObject_plain fun m hm b hb => ?_
  -- Every byte comes from a key or from one of the two texts.
  have hkeys : ∀ b ∈ ascii "type" ++ ascii "data", b.toNat < 128 :=
    List.all_iff_forall_prop.mp (by decide)
  rw [builtMembers, List.mem_append] at hm
  rcases hm with hm | hm
  · split at hm
    · exact absurd hm List.not_mem_nil
    · rw [List.mem_singleton.mp hm, List.mem_append] at hb
      rcases hb with hb | hb
      · exact hkeys b (List.mem_append_left _ hb)
      · exact htype b hb
  · split at hm
    · exact absurd hm List.not_mem_nil
    · rw [List.mem_singleton.mp hm, List.mem_append] at hb
      rcases hb with hb | hb
      · exact hkeys b (List.mem_append_right _ hb)
      · exact hdata b hb

/-- The printed object has no NUL, so the C string is all of it. -/
theorem httpBuildJson_bytes {fault : BuildFault} {type data s : CStr}
    (hshort : ShortAscii type data) (h : httpBuildJson fault type data = some s) :
    s.bytes = printObject (builtMembers fault type data) := by
  unfold httpBuildJson at h
  split at h
  · simp only [reduceCtorEq] at h
  · split at h
    · simp only [reduceCtorEq] at h
    · rw [Option.some.injEq] at h
      rw [← h]
      exact heapString_bytes fun h0 => (printObject_builtMembers fault hshort 0 h0).1 rfl

/-- Each text is escaped to at most six bytes for one, far below the bound of `int`. -/
theorem length_httpBuildJson {fault : BuildFault} {type data s : CStr}
    (hshort : ShortAscii type data) (h : httpBuildJson fault type data = some s) :
    s.bytes.length < 2 ^ 31 := by
  have hsmall := hshort.2.2
  have h₁ := length_printString_le type.bytes
  have h₂ := length_printString_le data.bytes
  have h₃ : (printString (ascii "type")).length = 6 := by decide
  have h₄ : (printString (ascii "data")).length = 6 := by decide
  -- At most two members, with their names, quotes, colons and commas.
  rw [httpBuildJson_bytes hshort h, builtMembers, printObject]
  cases fault.type <;> cases fault.data <;>
    simp only [Bool.false_eq_true, if_true, if_false, List.nil_append, List.cons_append,
      List.map_cons, List.map_nil, printMember, List.intercalate, List.intersperse,
      List.flatten_cons, List.flatten_nil, List.length_append, List.length_cons,
      List.length_nil] <;>
    omega

/-- A body built of short ASCII texts is ASCII, not empty, and sent as it is. -/
theorem httpBuildJson_some {fault : BuildFault} {type data s : CStr}
    (hshort : ShortAscii type data) (h : httpBuildJson fault type data = some s) :
    s.bytes ≠ [] ∧ (∀ b ∈ s.bytes, b.toNat < 128) ∧
      ∀ status, (httpSendBuiltJson status (some s)).body = s.bytes := by
  have hbytes := httpBuildJson_bytes hshort h
  refine ⟨?_, ?_, fun status => httpSendBuiltJson_body status (length_httpBuildJson hshort h)⟩
  · rw [hbytes, printObject]
    exact List.cons_ne_nil _ _
  · rw [hbytes]
    exact fun b hb => (printObject_builtMembers fault hshort b hb).2

/-- Header and body agree: the body is the text that was built, or empty when
    there is none, and the header states its length. -/
theorem httpSendBuiltJson_wire (fault : BuildFault) (status : Int) {type data : CStr}
    (hshort : ShortAscii type data) :
    (httpSendBuiltJson status (httpBuildJson fault type data)).contentLength
        = (httpSendBuiltJson status (httpBuildJson fault type data)).body.length ∧
      (httpSendBuiltJson status (httpBuildJson fault type data)).body
        = ((httpBuildJson fault type data).map CStr.bytes).getD [] := by
  cases h : httpBuildJson fault type data with
  | none => exact ⟨rfl, rfl⟩
  | some s =>
      have hlen := length_httpBuildJson hshort h
      have hbuilt : builtLength (some s) = s.bytes.length := by
        unfold builtLength
        exact bmod_of_lt hlen
      rw [httpSendBuiltJson_body status hlen, httpSendBuiltJson_contentLength, hbuilt]
      exact ⟨rfl, rfl⟩

end Server

end SendingSystem
