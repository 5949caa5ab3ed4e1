import SendingSystem.Lib.CString

/-!
# JSON trees as cJSON has them

The tree a cJSON parse builds and the few accessors a handler uses. Strings are
the bytes of the decoded buffer; C code that reads one stops at its first NUL, so
a `\u0000` escape cuts what is seen of it. Member names are compared that way
too, and without regard to ASCII case; a lookup answers the first match. On
anything but an object it answers nothing.

Printing is given for objects whose members are all strings, which is what a
handler builds itself.

## Main definitions

* `CJson`: The tree.
* `sameName`: The comparison of member names.
* `getObjectItem`: The first member of a name.
* `printString`, `printObject`: Unformatted output.

## Theorems

* `forall_mem_printObject`, `printObject_plain`: The bytes of a printed object.
* `stringValue_eq_some`: Only a string has a string value.
-/

namespace SendingSystem

open CString

/-- A JSON value as the parser leaves it. -/
inductive CJson where
  | null
  | bool (b : Bool)
  | number (text : List UInt8)
  | string (value : List UInt8)
  | array (items : List CJson)
  | object (members : List (List UInt8 × CJson))

namespace CJson

/-- `tolower` in the C locale. -/
def lower (b : UInt8) : UInt8 := if 65 ≤ b ∧ b ≤ 90 then b + 32 else b

/-- Two names that `case_insensitive_strcmp` takes for the same. -/
def sameName (a b : List UInt8) : Bool := (truncate a).map lower = (truncate b).map lower

/-- `cJSON_GetObjectItem`. -/
def getObjectItem (item : CJson) (name : List UInt8) : Option CJson :=
  match item with
  | .object members => (members.find? (fun m => sameName m.1 name)).map (fun m => m.2)
  | _ => none

/-- `valuestring` of an item for which `cJSON_IsString` holds. -/
def stringValue : Option CJson → Option (List UInt8)
  | some (.string value) => some value
  | _ => none

/-- A hexadecimal digit. -/
def hexDigit (n : UInt8) : UInt8 := if n < 10 then 48 + n else 87 + n

/-- One byte of a printed string. -/
def printByte (b : UInt8) : List UInt8 :=
  if b = 34 then [92, 34]
  else if b = 92 then [92, 92]
  else if b = 8 then [92, 98]
  else if b = 12 then [92, 102]
  else if b = 10 then [92, 110]
  else if b = 13 then [92, 114]
  else if b = 9 then [92, 116]
  else if b < 32 then [92, 117, 48, 48, hexDigit (b / 16), hexDigit (b % 16)]
  else [b]

/-- A string between quotes, with what needs it escaped. -/
def printString (s : List UInt8) : List UInt8 := 34 :: s.flatMap printByte ++ [34]

/-- A member `"name":"value"`. -/
def printMember (m : List UInt8 × List UInt8) : List UInt8 :=
  printString m.1 ++ 58 :: printString m.2

/-- `cJSON_PrintUnformatted` of an object of string members. -/
def printObject (members : List (List UInt8 × List UInt8)) : List UInt8 :=
  123 :: [44].intercalate (members.map printMember) ++ [125]

/-- A property of the punctuation and of what is printed for each byte holds of
    all that is printed. -/
theorem forall_mem_printObject {P : UInt8 → Prop} {members : List (List UInt8 × List UInt8)}
    (hpunct : ∀ c ∈ [34, 44, 58, 123, 125], P c)
    (hbyte : ∀ m ∈ members, ∀ b ∈ m.1 ++ m.2, ∀ c ∈ printByte b, P c) :
    ∀ c ∈ printObject members, P c := by
  -- Each level adds its own punctuation: quotes, a colon, commas, braces.
  have hstring : ∀ s : List UInt8, (∀ b ∈ s, ∀ c ∈ printByte b, P c) →
      ∀ c ∈ printString s, P c := by
    intro s hs c hc
    rw [printString, List.mem_append, List.mem_cons, List.mem_singleton] at hc
    rcases hc with (rfl | hc) | rfl
    · exact hpunct 34 (by decide)
    · rcases List.mem_flatMap.mp hc with ⟨b, hb, hc⟩
      exact hs b hb c hc
    · exact hpunct 34 (by decide)
  have hmember : ∀ x ∈ members.map printMember, ∀ c ∈ x, P c := by
    intro x hx c hc
    rcases List.mem_map.mp hx with ⟨m, hm, rfl⟩
    rw [printMember, List.mem_append, List.mem_cons] at hc
    rcases hc with hc | rfl | hc
    · exact hstring m.1 (fun b hb => hbyte m hm b (List.mem_append_left _ hb)) c hc
    · exact hpunct 58 (by decide)
    · exact hstring m.2 (fun b hb => hbyte m hm b (List.mem_append_right _ hb)) c hc
  have hjoin : ∀ l : List (List UInt8), (∀ x ∈ l, ∀ c ∈ x, P c) →
      ∀ c ∈ [44].intercalate l, P c := by
    intro l
    induction l with
    | nil => exact fun _ c hc => absurd hc List.not_mem_nil
    | cons x l ih =>
        intro hl c hc
        have hrest := ih (fun y hy => hl y (List.mem_cons_of_mem x hy))
        cases l with
        | nil =>
            simp only [List.intercalate, List.intersperse, List.flatten_cons, List.flatten_nil,
              List.append_nil] at hc
            exact hl x List.mem_cons_self c hc
        | cons y l =>
            simp only [List.intercalate, List.intersperse, List.flatten_cons, List.mem_append,
              List.mem_singleton] at hc hrest
            rcases hc with hc | rfl | hc
            · exact hl x List.mem_cons_self c hc
            · exact hpunct 44 (by decide)
            · exact hrest c hc
  intro c hc
  rw [printObject, List.mem_append, List.mem_cons, List.mem_singleton] at hc
  rcases hc with (rfl | hc) | rfl
  · exact hpunct 123 (by decide)
  · exact hjoin _ hmember c hc
  · exact hpunct 125 (by decide)

/-- What is printed for a byte of a C string is ASCII if the byte is, and no NUL. -/
theorem printByte_plain {b c : UInt8} (hb : b.toNat < 128) (hc : c ∈ printByte b) :
    c ≠ 0 ∧ c.toNat < 128 := by
  have hcheck : ∀ n : Fin 128,
      (printByte n.val.toUInt8).all (fun c => decide (c ≠ 0 ∧ c.toNat < 128)) = true := by decide
  have h := List.all_iff_forall_prop.mp (hcheck ⟨b.toNat, hb⟩)
  simp only [Nat.toUInt8, UInt8.ofNat_toNat] at h
  exact h c hc

/-- An object of ASCII texts is printed in ASCII, without NUL. -/
theorem printObject_plain {members : List (List UInt8 × List UInt8)}
    (h : ∀ m ∈ members, ∀ b ∈ m.1 ++ m.2, b.toNat < 128) :
    ∀ c ∈ printObject members, c ≠ 0 ∧ c.toNat < 128 :=
  forall_mem_printObject (List.all_iff_forall_prop.mp (by decide))
    (fun m hm b hb _ hc => printByte_plain (h m hm b hb) hc)

theorem length_printString_le (s : List UInt8) : (printString s).length ≤ 6 * s.length + 2 := by
  have hbyte : ∀ b, (printByte b).length ≤ 6 := by
    intro b
    unfold printByte
    repeat' split
    all_goals simp only [List.length_cons, List.length_nil]; omega
  -- The longest escape is `\u` and four digits.
  have hflat : (s.flatMap printByte).length ≤ 6 * s.length := by
    induction s with
    | nil => exact Nat.le_refl 0
    | cons b s ih =>
        rw [List.flatMap_cons, List.length_append, List.length_cons]
        have := hbyte b
        omega
  rw [printString, List.length_append, List.length_cons, List.length_singleton]
  omega

theorem stringValue_eq_some {item : Option CJson} {value : List UInt8} :
    stringValue item = some value ↔ item = some (.string value) := by
  constructor
  · intro h
    unfold stringValue at h
    split at h
    · rw [Option.some.injEq] at h
      rw [h]
    · simp only [reduceCtorEq] at h
  · intro h
    rw [h]
    rfl

end CJson

end SendingSystem
