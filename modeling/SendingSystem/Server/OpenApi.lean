import SendingSystem.Server.ApiSend

/-!
# The published request schema

The server describes `POST /api/send` in its OpenAPI document: the body is an
object with a string `data` of at least one character and, optionally, a string
`saveToPath`. The handler is a second description of the same bodies, by what it
lets through. It looks members up without regard to case, takes the first match,
and asks only that `data` be a string.

The two disagree on three kinds of objects, and on nothing else. The lookup may
find a string although no member of the exact name `data` is one that is not
empty; `saveToPath` may be something else than a string; or an earlier member
whose name differs in case only may hide a good `data`.

## Main definitions

* `Property`, `RequestSchema`: The part of a schema the catalogue uses.
* `sendSchema`: The request schema of `/api/send`.
* `conforms`: A value conforms to a schema.
* `DataMissing`, `PathUntyped`, `DataShadowed`: The three kinds.

## Theorems

* `conforms_sendSchema`: The published schema spelt out.
* `passesChecks_complete`: What decides over a complete body that parses.
* `accepts_conforming_iff`: When the checks and the schema agree.
* `published_schema_iff`: When the handler accepts what the schema describes.
-/

namespace SendingSystem

namespace Server

open CString CJson

/-- A property of type string with its least length. -/
structure Property where
  name : List UInt8
  minLength : Nat

/-- An object schema: its properties, all strings, and which are required. -/
structure RequestSchema where
  properties : List Property
  required : List (List UInt8)

/-- The request schema of `/api/send` in `k_endpoints`. -/
def sendSchema : RequestSchema where
  properties := [⟨ascii "data", 1⟩, ⟨ascii "saveToPath", 0⟩]
  required := [ascii "data"]

/-- A string of at least so many characters. Only 0 and 1 are asked for, for which
    counting bytes is counting characters. -/
def fits (minLength : Nat) : CJson → Bool
  | .string value => minLength ≤ value.length
  | _ => false

/-- A required property has a member of its name that fits; of another one every
    member of its name fits. -/
def Property.holds (required : List (List UInt8)) (members : List (List UInt8 × CJson))
    (p : Property) : Bool :=
  if required.contains p.name then members.any (fun m => m.1 = p.name && fits p.minLength m.2)
  else members.all (fun m => m.1 ≠ p.name || fits p.minLength m.2)

/-- The value conforms to the schema. -/
def conforms (schema : RequestSchema) : CJson → Bool
  | .object members => schema.properties.all (Property.holds schema.required members)
  | _ => false

/-- Some member `data` is a string that is not empty. -/
def hasData (members : List (List UInt8 × CJson)) : Bool :=
  members.any (fun m => m.1 = ascii "data" && fits 1 m.2)

/-- Every member `saveToPath` is a string. -/
def pathTyped (members : List (List UInt8 × CJson)) : Bool :=
  members.all (fun m => m.1 ≠ ascii "saveToPath" || fits 0 m.2)

/-- The first member whose name is `data` up to case is a string. -/
def firstIsString (members : List (List UInt8 × CJson)) : Bool :=
  match members.find? (fun m => sameName m.1 (ascii "data")) with
  | some m => fits 0 m.2
  | none => false

/-- The first `data` up to case is a string, but no `data` is one that is not
    empty: it is empty, or spelt in another case. -/
def DataMissing (v : CJson) : Prop :=
  ∃ members, v = .object members ∧ firstIsString members = true ∧ hasData members = false

/-- The first `data` up to case is a string, and some `saveToPath` is not. -/
def PathUntyped (v : CJson) : Prop :=
  ∃ members, v = .object members ∧ firstIsString members = true ∧ pathTyped members = false

/-- There is a good `data` and no bad `saveToPath`, but the first `data` up to case
    is not a string. -/
def DataShadowed (v : CJson) : Prop :=
  ∃ members, v = .object members ∧ hasData members = true ∧ pathTyped members = true ∧
    firstIsString members = false

/-- The published schema spelt out. -/
theorem conforms_sendSchema (members : List (List UInt8 × CJson)) :
    conforms sendSchema (.object members) = (hasData members && pathTyped members) := by
  have hrequired : (sendSchema.required.contains (ascii "data")) = true := by decide
  have hoptional : (sendSchema.required.contains (ascii "saveToPath")) = false := by decide
  simp only [conforms, sendSchema, List.all_cons, List.all_nil, Bool.and_true, Property.holds]
  simp only [sendSchema] at hrequired hoptional
  rw [if_pos hrequired, hoptional]
  simp only [Bool.false_eq_true, if_false]
  rfl

/-- The handler finds its text exactly when the first `data` up to case is a string. -/
theorem firstIsString_iff (members : List (List UInt8 × CJson)) :
    firstIsString members = true ↔
      ∃ data, getObjectItem (.object members) (ascii "data") = some (.string data) := by
  unfold firstIsString getObjectItem
  simp only
  -- Both sides look at the same member, the first one whose name matches.
  cases members.find? (fun m => sameName m.1 (ascii "data")) with
  | none => simp only [Option.map_none, reduceCtorEq, exists_false, Bool.false_eq_true]
  | some m =>
      simp only [Option.map_some, Option.some.injEq]
      cases m.2 with
      | string value => simp only [fits, Nat.zero_le, decide_true, CJson.string.injEq, exists_eq']
      | _ => simp only [fits, Bool.false_eq_true, reduceCtorEq, exists_false]

/-- A complete body that parses is rejected for its content only. -/
theorem passesChecks_complete {parse : CStr → Option CJson} {malloc : Bool} {req : SendRequest}
    {body : List UInt8} {v : CJson} (hbody : req.body = some body) (hpos : 1 ≤ body.length)
    (hmax : (body.length : Int) ≤ maxMessageSize) (hlen : contentLength req = body.length)
    (hparse : parse (heapString body) = some v) :
    PassesChecks parse malloc req ↔ (malloc = false →
      ∃ data, getObjectItem v (ascii "data") = some (.string data)) := by
  -- The announced length is the whole body, so reading it cuts nothing off.
  have htake : body.take (contentLength req).toNat = body := by
    rw [hlen, Int.toNat_natCast, List.take_length]
  constructor
  · intro h hmalloc
    rcases h.body hmalloc with ⟨l, root, data, hl, _, hroot, hdata⟩
    rw [hbody, Option.some.injEq] at hl
    subst hl
    rw [htake, hparse, Option.some.injEq] at hroot
    exact ⟨data, hroot ▸ hdata⟩
  · intro h
    refine ⟨by omega, by omega, fun hmalloc => ?_⟩
    rcases h hmalloc with ⟨data, hdata⟩
    exact ⟨body, v, data, hbody, by rw [htake, hlen], by rw [htake, hparse], hdata⟩

/-- With memory for the body, the handler accepts what conforms exactly when the
    value is of none of the three kinds. -/
theorem accepts_conforming_iff (v : CJson) :
    ((∃ data, getObjectItem v (ascii "data") = some (.string data)) ↔
      conforms sendSchema v = true) ↔
      ¬ DataMissing v ∧ ¬ PathUntyped v ∧ ¬ DataShadowed v := by
  cases v with
  | object members =>
      -- On an object all three kinds speak about three Booleans of its members.
      have hmissing : DataMissing (.object members) ↔
          firstIsString members = true ∧ hasData members = false := by
        simp only [DataMissing, CJson.object.injEq, exists_eq_left']
      have huntyped : PathUntyped (.object members) ↔
          firstIsString members = true ∧ pathTyped members = false := by
        simp only [PathUntyped, CJson.object.injEq, exists_eq_left']
      have hshadowed : DataShadowed (.object members) ↔
          hasData members = true ∧ pathTyped members = true ∧ firstIsString members = false := by
        simp only [DataShadowed, CJson.object.injEq, exists_eq_left']
      rw [← firstIsString_iff, conforms_sendSchema, hmissing, huntyped, hshadowed]
      cases firstIsString members <;> cases hasData members <;> cases pathTyped members <;> decide
  | _ =>
      -- Anything but an object is neither accepted nor described.
      simp only [getObjectItem, reduceCtorEq, exists_false, conforms, Bool.false_eq_true,
        DataMissing, PathUntyped, DataShadowed, false_and, not_false_eq_true, and_self]

/-- For every JSON value sent as a complete body: the handler goes on to log or
    save it (200 or 500) if and only if it conforms to the published schema, and
    answers 400 otherwise, exactly when, with memory for the body, the value is of
    none of the three kinds and, without it, it conforms. -/
theorem published_schema_iff (parse : CStr → Option CJson) (fault : SendFault) (req : SendRequest)
    (w : World) (body : List UInt8) (v : CJson) (hmethod : req.method = .lit "POST")
    (hbody : req.body = some body) (hpos : 1 ≤ body.length)
    (hmax : (body.length : Int) ≤ maxMessageSize) (hlen : contentLength req = body.length)
    (hparse : parse (heapString body) = some v) :
    (((Answers w (apiSendHandler parse fault req w) 200 ∨
          Answers w (apiSendHandler parse fault req w) 500) ↔ conforms sendSchema v = true) ∧
        (conforms sendSchema v = false → Answers w (apiSendHandler parse fault req w) 400)) ↔
      ((fault.malloc = false → ¬ DataMissing v ∧ ¬ PathUntyped v ∧ ¬ DataShadowed v) ∧
        (fault.malloc = true → conforms sendSchema v = true)) := by
  have hpasses : PassesChecks parse fault.malloc req ↔ (fault.malloc = false →
      ∃ data, getObjectItem v (ascii "data") = some (.string data)) :=
    passesChecks_complete hbody hpos hmax hlen hparse
  rcases apiSendHandler_status parse fault req w hmethod with ⟨r, hsent, hstatus⟩
  rw [answers_iff hsent, answers_iff hsent, answers_iff hsent]
  -- What is answered tells whether the request passed its checks.
  have hgoes : (r.status = 200 ∨ r.status = 500) ↔ PassesChecks parse fault.malloc req := by
    rcases hstatus with ⟨h, hno⟩ | ⟨h, hyes⟩
    · exact ⟨fun h' => by omega, fun h' => absurd h' hno⟩
    · exact ⟨fun _ => hyes, fun _ => h⟩
  have hrejected : r.status = 400 ↔ ¬ PassesChecks parse fault.malloc req := by
    rcases hstatus with ⟨h, hno⟩ | ⟨h, hyes⟩
    · exact ⟨fun _ => hno, fun _ => h⟩
    · exact ⟨fun h' => by omega, fun h' => absurd hyes h'⟩
  -- What does not conform is answered 400 as soon as the acceptances agree.
  have hproperty : ((PassesChecks parse fault.malloc req ↔ conforms sendSchema v = true) ∧
      (conforms sendSchema v = false → ¬ PassesChecks parse fault.malloc req)) ↔
      (PassesChecks parse fault.malloc req ↔ conforms sendSchema v = true) := by
    refine ⟨fun h => h.1, fun h => ⟨h, fun hfalse hpass => ?_⟩⟩
    rw [h, hfalse] at hpass
    exact Bool.false_ne_true hpass
  -- Without memory the members are never looked at.
  rw [hgoes, hrejected, hproperty, hpasses]
  cases fault.malloc with
  | true =>
      simp only [Bool.true_eq_false, false_implies, true_iff, true_implies, true_and]
  | false =>
      simp only [true_implies, Bool.false_eq_true, false_implies, and_true]
      exact accepts_conforming_iff v

/-- A parser, as far as one body goes. -/
def parseOnly (body : List UInt8) (v : CJson) (s : CStr) : Option CJson :=
  if s.bytes = body then some v else none

/-- A request with a complete body. -/
def sendBody (length : String) (body : List UInt8) : SendRequest :=
  ⟨.lit "POST", .lit "10.0.0.7", some (.lit length), some body⟩

/-- A text of two characters is described, and accepted. -/
theorem published_schema_iff_text :
    conforms sendSchema (.object [(ascii "data", .string (ascii "hi"))]) = true ∧
    (Answers createdWorld
        (apiSendHandler (parseOnly (ascii "\x7b\"data\":\"hi\"\x7d")
          (.object [(ascii "data", .string (ascii "hi"))])) (.none (.lit "2026-03-01 12:00:00"))
          (sendBody "13" (ascii "\x7b\"data\":\"hi\"\x7d")) createdWorld) 200 ∨
      Answers createdWorld
        (apiSendHandler (parseOnly (ascii "\x7b\"data\":\"hi\"\x7d")
          (.object [(ascii "data", .string (ascii "hi"))])) (.none (.lit "2026-03-01 12:00:00"))
          (sendBody "13" (ascii "\x7b\"data\":\"hi\"\x7d")) createdWorld) 500) := by
  refine ⟨rfl, ?_⟩
  refine ((published_schema_iff _ _ _ _ (ascii "\x7b\"data\":\"hi\"\x7d") _ rfl rfl (by decide)
    (by decide) (by decide) rfl).mpr ⟨fun _ => ?_, fun h => absurd h Bool.false_ne_true⟩).1.mpr rfl
  rw [← accepts_conforming_iff]
  exact ⟨fun _ => rfl, fun _ => ⟨_, rfl⟩⟩

/-- An empty text is not described, and accepted all the same. -/
theorem published_schema_empty_data :
    conforms sendSchema (.object [(ascii "data", .string [])]) = false ∧
    Answers createdWorld
      (apiSendHandler (parseOnly (ascii "\x7b\"data\":\"\"\x7d")
        (.object [(ascii "data", .string [])])) (.none (.lit "2026-03-01 12:00:00"))
        (sendBody "11" (ascii "\x7b\"data\":\"\"\x7d")) createdWorld) 200 :=
  ⟨rfl, _, rfl, rfl⟩

end Server

end SendingSystem
