import SendingSystem.Client.Connector
import SendingSystem.Lib.OrgJson

/-!
# The server's response

`ServerResponse.java`: a reply of the server, a type and a text, read from JSON
and written as JSON. Writing puts the null of JSON for a reference that is null.
Reading asks for both members with `optString` and null as the fallback, which is
for a name that is not there; the null of JSON is there, and its text is `null`.

So a response comes back from its own JSON unless its data is null, which comes
back as the text `null`. A type that is null is no response any more.

## Main definitions

* `ResponseType`, `ServerResponse`: The data.
* `Libraries`: What is outside of the code.
* `fromJson`, `toJson`: Reading and writing.
* `RoundTrips`: A response comes back from its JSON.

## Theorems

* `parseResponseType_name`: A name is the type's own.
* `fromJson_toJson`: What comes of a response written and read.
* `roundTrips_iff`: When a response comes back.
-/

namespace SendingSystem

namespace Client

open Utf16 OrgJson Connector

/-- `ResponseType`. -/
inductive ResponseType where
  | error
  | message
  deriving DecidableEq

/-- `name()`. -/
def ResponseType.name : ResponseType → JString
  | .error => lit "Error"
  | .message => lit "Message"

/-- `values()`. -/
def ResponseType.values : List ResponseType := [.error, .message]

/-- `ServerResponse`. -/
structure ServerResponse where
  type : Option ResponseType
  data : Option JString
  deriving DecidableEq

/-- What the class takes from its libraries: `org.json`, and the case of a `char`. -/
structure Libraries where
  json : Codec
  toUpperCase : UInt16 → UInt16
  toLowerCase : UInt16 → UInt16

namespace Libraries

/-- Two `char`s that `equalsIgnoreCase` takes for the same. -/
def sameChar (lib : Libraries) (u v : UInt16) : Bool :=
  u = v || lib.toUpperCase u = lib.toUpperCase v ||
    lib.toLowerCase (lib.toUpperCase u) = lib.toLowerCase (lib.toUpperCase v)

/-- `s.equalsIgnoreCase(t)`. -/
def equalsIgnoreCase (lib : Libraries) (s t : JString) : Bool :=
  s.length = t.length && (s.zip t).all (fun p => lib.sameChar p.1 p.2)

end Libraries

/-- `parseResponseType`. -/
def parseResponseType (lib : Libraries) (typeStr : Option JString) : Option ResponseType :=
  match typeStr with
  | none => none
  | some s =>
    if s = [] then none else ResponseType.values.find? (fun t => lib.equalsIgnoreCase t.name s)

/-- `fromJson`. -/
def fromJson (lib : Libraries) (jsonString : JString) : Except Failure ServerResponse :=
  match lib.json.parse jsonString with
  | none => .error .thrown
  | some json =>
    let typeStr := json.optString (lit "type") none
    match parseResponseType lib typeStr with
    | none => .error (.illegalArgumentException (lit "Unknown response type: " ++ concat typeStr))
    | some type => .ok ⟨some type, json.optString (lit "data") none⟩

/-- The object that is written. -/
def ServerResponse.json (r : ServerResponse) : JSONObject :=
  (JSONObject.empty.put (lit "type") (match r.type with
    | some type => .string type.name
    | none => .null)).put (lit "data") (match r.data with
    | some data => .string data
    | none => .null)

/-- `toJson`. -/
def ServerResponse.toJson (lib : Libraries) (r : ServerResponse) : JString :=
  lib.json.print r.json

/-- Written and read, the response is there again. -/
def RoundTrips (lib : Libraries) (r : ServerResponse) : Prop :=
  fromJson lib (r.toJson lib) = .ok r

theorem equalsIgnoreCase_self (lib : Libraries) (s : JString) :
    lib.equalsIgnoreCase s s = true := by
  have hall : (s.zip s).all (fun p => lib.sameChar p.1 p.2) = true := by
    induction s with
    | nil => rfl
    | cons u s ih =>
        rw [List.zip_cons_cons, List.all_cons, ih, Libraries.sameChar, decide_eq_true rfl]
        rfl
  rw [Libraries.equalsIgnoreCase, hall, decide_eq_true rfl]
  rfl

theorem equalsIgnoreCase_length (lib : Libraries) {s t : JString} (h : s.length ≠ t.length) :
    lib.equalsIgnoreCase s t = false := by
  rw [Libraries.equalsIgnoreCase, decide_eq_false h, Bool.false_and]

/-- A name is the type's own: the names differ in length. -/
theorem parseResponseType_name (lib : Libraries) (t : ResponseType) :
    parseResponseType lib (some t.name) = some t := by
  cases t with
  | error =>
      have hsame := equalsIgnoreCase_self lib ResponseType.error.name
      rw [parseResponseType, if_neg (by decide), ResponseType.values]
      simp only [List.find?_cons, hsame]
  | message =>
      -- The names have 5 and 7 letters.
      have hother :
          lib.equalsIgnoreCase ResponseType.error.name ResponseType.message.name = false :=
        equalsIgnoreCase_length lib (by decide)
      have hsame := equalsIgnoreCase_self lib ResponseType.message.name
      rw [parseResponseType, if_neg (by decide), ResponseType.values]
      simp only [List.find?_cons, hother, hsame]

/-- The text of a null is no name. -/
theorem parseResponseType_null (lib : Libraries) :
    parseResponseType lib (some (lit "null")) = none := by
  rw [parseResponseType, if_neg (by decide), List.find?_eq_none]
  intro t _
  rw [equalsIgnoreCase_length lib (by cases t <;> decide)]
  exact Bool.false_ne_true

theorem plain_json (r : ServerResponse) : r.json.Plain := by
  refine JSONObject.plain_put (JSONObject.plain_put (fun m hm => absurd hm List.not_mem_nil) _ ?_)
    _ ?_
  · cases r.type with
    | none => exact trivial
    | some type => exact trivial
  · cases r.data with
    | none => exact trivial
    | some data => exact trivial

/-- What comes of a response written and read: the data is never null. -/
theorem fromJson_toJson (lib : Libraries) (h : lib.json.Documented) (r : ServerResponse) :
    fromJson lib (r.toJson lib) =
      match r.type with
      | none => .error (.illegalArgumentException (lit "Unknown response type: null"))
      | some type => .ok ⟨some type, some (concat r.data)⟩ := by
  -- The name is there in either case, so the fallback is not used.
  have hdata : r.json.optString (lit "data") none = some (concat r.data) := by
    rw [JSONObject.optString, ServerResponse.json, JSONObject.opt_put]
    cases r.data with
    | none => rfl
    | some data => rfl
  have htype : r.json.opt (lit "type") = some (match r.type with
      | some type => .string type.name
      | none => .null) := by
    rw [ServerResponse.json, JSONObject.opt_put_of_ne _ _ (by decide), JSONObject.opt_put]
  rw [fromJson, ServerResponse.toJson, h r.json (plain_json r)]
  simp only [hdata]
  rw [JSONObject.optString, htype]
  -- A null type is written as the null of JSON, whose text is no name.
  cases r.type with
  | none =>
      simp only [Value.valueOf, parseResponseType_null]
      rfl
  | some type => simp only [Value.valueOf, parseResponseType_name]

/-- For every response with a type and any data, whatever the libraries do beyond
    what is documented: it comes back from its own JSON exactly when its data is
    not null. -/
theorem roundTrips_iff (lib : Libraries) (h : lib.json.Documented) (r : ServerResponse)
    (htype : r.type ≠ none) : RoundTrips lib r ↔ r.data ≠ none := by
  rcases Option.ne_none_iff_exists'.mp htype with ⟨type, ht⟩
  rcases r with ⟨type', data⟩
  rw [RoundTrips, fromJson_toJson lib h]
  simp only at ht
  simp only [ht, Except.ok.injEq, ServerResponse.mk.injEq, true_and]
  cases data with
  | none => exact iff_of_false (fun h => by cases h) (fun h => h rfl)
  | some data => exact iff_of_true rfl (Option.some_ne_none data)

/-- `Character` on ASCII. -/
def asciiLibraries : Libraries where
  json := Codec.plain
  toUpperCase u := if 97 ≤ u ∧ u ≤ 122 then u - 32 else u
  toLowerCase u := if 65 ≤ u ∧ u ≤ 90 then u + 32 else u

/-- A message comes back. -/
theorem roundTrips_message :
    RoundTrips asciiLibraries ⟨some .message, some (lit "OK")⟩ ↔
      (some (lit "OK") : Option JString) ≠ none :=
  roundTrips_iff asciiLibraries plain_documented ⟨some .message, some (lit "OK")⟩
    (Option.some_ne_none _)

/-- An error without data comes back with the text `null`. -/
theorem roundTrips_noData : ¬ ∀ lib : Libraries, lib.json.Documented → ∀ r : ServerResponse,
    r.type ≠ none → RoundTrips lib r := by
  intro h
  have hback := h asciiLibraries plain_documented ⟨some .error, none⟩ (Option.some_ne_none _)
  rw [RoundTrips, fromJson_toJson asciiLibraries plain_documented] at hback
  cases hback

end Client

end SendingSystem
