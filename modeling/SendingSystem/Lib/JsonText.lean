import SendingSystem.Lib.CJson
import SendingSystem.Lib.OrgJson

/-!
# JSON texts of flat objects

What a text says, apart from any program that reads or writes it: an object without
blanks whose values are strings and nulls. A string may spell a unit by itself, by
a backslash and a letter, or by its number, which is not that of a surrogate; a
surrogate stands for itself.

Two printers write such texts of the members they are given, and a reader that is
given one finds the members.

## Main definitions

* `Spells`, `Letters`, `Literal`: Strings.
* `ValueText`, `MemberText`, `ObjectText`: Values, members, objects.
* `Codec.ReadsTexts`: A reader that reads every such text.

## Theorems

* `objectText_print`: What org.json prints.
* `objectText_cjson`: What cJSON prints of ASCII strings.
* `readObject_text`: A text is read.
* `objectText_ne_zero`: A text has no zero in it.
* `objectText_unique`: A text says one thing.
-/

namespace SendingSystem

namespace JsonText

open Utf16 OrgJson IpText

/-- What is between the quotes for one unit. -/
inductive Spells : JString → UInt16 → Prop where
  | plain (u : UInt16) (hcontrol : 32 ≤ u) (hquote : u ≠ 34) (hbackslash : u ≠ 92) : Spells [u] u
  | escaped (v : UInt16) (h : v ∈ [34, 92, 47, 98, 102, 110, 114, 116]) :
      Spells [92, v] (unescape v)
  | numbered (a b c d : UInt16) (n : Nat) (h : readHexadecimal [a, b, c, d] = some n)
      (hsurrogate : n < 55296 ∨ 57344 ≤ n) : Spells [92, 117, a, b, c, d] n.toUInt16

/-- What is between the quotes. -/
inductive Letters : JString → JString → Prop where
  | nil : Letters [] []
  | cons {e t s : JString} {u : UInt16} (h : Spells e u) (hrest : Letters t s) :
      Letters (e ++ t) (u :: s)

/-- A string with its quotes. -/
def Literal (t s : JString) : Prop := ∃ l, Letters l s ∧ t = 34 :: (l ++ [34])

/-- A string or a null. -/
inductive ValueText : JString → Value → Prop where
  | null : ValueText (lit "null") .null
  | string {t s : JString} (h : Literal t s) : ValueText t (.string s)

/-- A name, a colon and a value. -/
def MemberText (t : JString) (m : JString × Value) : Prop :=
  ∃ n v, Literal n m.1 ∧ ValueText v m.2 ∧ t = n ++ 58 :: v

/-- Members between braces, with commas. -/
def ObjectText (t : JString) (members : List (JString × Value)) : Prop :=
  ∃ ts, List.Forall₂ MemberText ts members ∧ t = 123 :: ([44].intercalate ts ++ [125])

/-- A reader that reads every such text, if its names are distinct. -/
def ReadsTexts (parse : JString → Option JSONObject) : Prop :=
  ∀ (t : JString) (o : JSONObject), ObjectText t o.members → parse t = some o

section Printing

/-- What is printed for a unit spells it. -/
theorem spells_escape (u : UInt16) : Spells (escape u) u := by
  unfold escape
  by_cases hsame : u = 34 ∨ u = 92 ∨ u = 47
  · rw [if_pos hsame]
    rcases hsame with rfl | rfl | rfl
    · exact .escaped 34 (by decide)
    · exact .escaped 92 (by decide)
    · exact .escaped 47 (by decide)
  rw [if_neg hsame]
  rw [not_or, not_or] at hsame
  by_cases h9 : u = 9
  · rw [if_pos h9, h9]
    exact .escaped 116 (by decide)
  by_cases h8 : u = 8
  · rw [if_neg h9, if_pos h8, h8]
    exact .escaped 98 (by decide)
  by_cases h10 : u = 10
  · rw [if_neg h9, if_neg h8, if_pos h10, h10]
    exact .escaped 110 (by decide)
  by_cases h13 : u = 13
  · rw [if_neg h9, if_neg h8, if_neg h10, if_pos h13, h13]
    exact .escaped 114 (by decide)
  by_cases h12 : u = 12
  · rw [if_neg h9, if_neg h8, if_neg h10, if_neg h13, if_pos h12, h12]
    exact .escaped 102 (by decide)
  rw [if_neg h9, if_neg h8, if_neg h10, if_neg h13, if_neg h12]
  by_cases hcontrol : u < 32
  · have hnat : u.toNat < 32 := UInt16.lt_iff_toNat_lt.mp hcontrol
    have hback : Nat.toUInt16 u.toNat = u := UInt16.ofNat_toNat
    have hread := readHexadecimal_control u.toNat hnat
    rw [hback] at hread
    have hspells := Spells.numbered 48 48 (hexDigit (u / 16)) (hexDigit (u % 16)) u.toNat hread
      (Or.inl (by omega))
    rw [hback] at hspells
    rw [if_pos hcontrol]
    exact hspells
  · rw [if_neg hcontrol]
    exact .plain u (UInt16.not_lt.mp hcontrol) hsame.1 hsame.2.1

theorem letters_print (s : JString) : Letters (s.flatMap escape) s := by
  induction s with
  | nil => exact .nil
  | cons u s ih =>
      rw [List.flatMap_cons]
      exact .cons (spells_escape u) ih

theorem literal_print (s : JString) : Literal (printString s) s :=
  ⟨s.flatMap escape, letters_print s, rfl⟩

theorem memberText_print {m : JString × Value} (h : m.2.Plain) : MemberText (printMember m) m := by
  rcases m with ⟨name, value⟩
  cases value with
  | null => exact ⟨_, _, literal_print name, .null, rfl⟩
  | string s => exact ⟨_, _, literal_print name, .string (literal_print s), rfl⟩
  | other text => exact h.elim

/-- What org.json prints of an object of strings and nulls says its members. -/
theorem objectText_print {o : JSONObject} (h : o.Plain) : ObjectText (printObject o) o.members := by
  refine ⟨o.members.map printMember, ?_, rfl⟩
  rw [List.forall₂_map_left_iff]
  exact List.forall₂_same.mpr fun m hm => memberText_print (h m hm)

/-- A slash is printed as it is, and any other byte as org.json prints the unit. -/
theorem printByte_escape : ∀ n < 128, n ≠ 47 →
    ofBytes (CJson.printByte (Nat.toUInt8 n)) = escape (Nat.toUInt16 n) := by decide

theorem spells_printByte {b : UInt8} (hb : b.toNat < 128) :
    Spells (ofBytes (CJson.printByte b)) b.toUInt16 := by
  by_cases hslash : b = 47
  · rw [hslash]
    exact .plain 47 (by decide) (by decide) (by decide)
  · have hne : b.toNat ≠ 47 := fun h => hslash (UInt8.toNat_inj.mp h)
    have hprint := printByte_escape b.toNat hb hne
    have hbyte : Nat.toUInt8 b.toNat = b := UInt8.ofNat_toNat
    have hunit : Nat.toUInt16 b.toNat = b.toUInt16 := UInt16.ofNat_uInt8ToNat b
    rw [hbyte, hunit] at hprint
    rw [hprint]
    exact spells_escape _

theorem literal_cjson {l : List UInt8} (h : ∀ b ∈ l, b.toNat < 128) :
    Literal (ofBytes (CJson.printString l)) (ofBytes l) := by
  refine ⟨ofBytes (l.flatMap CJson.printByte), ?_, ?_⟩
  · induction l with
    | nil => exact .nil
    | cons b l ih =>
        rw [List.forall_mem_cons] at h
        rw [List.flatMap_cons, ofBytes, List.map_append]
        exact .cons (spells_printByte h.1) (ih h.2)
  · rw [CJson.printString, ofBytes, List.map_append, List.map_cons]
    rfl

theorem map_intercalate {α β : Type} (f : α → β) (sep : List α) (ls : List (List α)) :
    (sep.intercalate ls).map f = (sep.map f).intercalate (ls.map (List.map f)) := by
  induction ls with
  | nil => rfl
  | cons l ls ih =>
      cases ls with
      | nil =>
          rw [List.map_singleton, List.intercalate_singleton, List.intercalate_singleton]
      | cons l' ls =>
          rw [List.map_cons, List.map_cons, List.intercalate_cons_cons, List.intercalate_cons_cons,
            List.map_append, List.map_append, ih, List.map_cons]

/-- What cJSON prints of ASCII strings says the members. -/
theorem objectText_cjson {members : List (List UInt8 × List UInt8)}
    (h : ∀ m ∈ members, ∀ b ∈ m.1 ++ m.2, b.toNat < 128) :
    ObjectText (ofBytes (CJson.printObject members))
      (members.map fun m => (ofBytes m.1, .string (ofBytes m.2))) := by
  refine ⟨members.map fun m => ofBytes (CJson.printMember m), ?_, ?_⟩
  · rw [List.forall₂_map_left_iff, List.forall₂_map_right_iff]
    refine List.forall₂_same.mpr fun m hm => ?_
    have hname := literal_cjson fun b hb => h m hm b (List.mem_append_left _ hb)
    have hvalue := literal_cjson fun b hb => h m hm b (List.mem_append_right _ hb)
    refine ⟨_, _, hname, .string hvalue, ?_⟩
    rw [CJson.printMember, ofBytes, List.map_append, List.map_cons]
    rfl
  · rw [CJson.printObject, ofBytes, List.map_append, List.map_cons, List.cons_append,
      map_intercalate, List.map_map]
    rfl

end Printing

section Reading

/-- What spells a unit is read as the unit, whatever is behind it. -/
theorem readString_spells {e : JString} {u : UInt16} (h : Spells e u) (rest : JString) :
    readString (e ++ rest) = (readString rest).map fun r => (u :: r.1, r.2) := by
  cases h with
  | plain u hcontrol hquote hbackslash =>
      rw [List.singleton_append, readString.eq_def (u :: rest)]
      simp only [if_neg hquote, if_neg hbackslash]
  | escaped v hv =>
      have hnumber : v ≠ 117 := by
        rintro rfl
        exact absurd hv (by decide)
      exact readString_backslash hnumber rest
  | numbered a b c d n hread hsurrogate =>
      simp only [List.cons_append, List.nil_append]
      rw [readString.eq_def (92 :: 117 :: _)]
      simp only [if_neg (by decide : ¬ (92 : UInt16) = 34), if_true, hread, Option.bind_some]

/-- A string is read up to its closing quote. -/
theorem readString_letters {l s : JString} (h : Letters l s) (rest : JString) :
    readString (l ++ 34 :: rest) = some (s, rest) := by
  induction h with
  | nil =>
      rw [List.nil_append, readString.eq_def]
      rfl
  | cons hunit _ ih =>
      rw [List.append_assoc, readString_spells hunit, ih]
      rfl

theorem readValue_text {t : JString} {v : Value} (h : ValueText t v) (rest : JString) :
    readValue (t ++ rest) = some (v, rest) := by
  cases h with
  | null => rfl
  | string hs =>
      rcases hs with ⟨l, hl, rfl⟩
      rw [List.cons_append, List.append_assoc, readValue, List.singleton_append,
        readString_letters hl]
      rfl

theorem readMember_text {t : JString} {m : JString × Value} (h : MemberText t m) (rest : JString) :
    readMember (t ++ rest) = some (m, rest) := by
  rcases h with ⟨n, v, ⟨l, hl, rfl⟩, hv, rfl⟩
  rw [List.append_assoc, List.cons_append, List.cons_append, List.append_assoc,
    List.singleton_append, readMember, readString_letters hl, Option.bind_some]
  simp only [readValue_text hv, Option.map_some]

/-- Members are read, if the reader may turn as often as there are. -/
theorem readMembers_text {ts : List JString} {members : List (JString × Value)}
    (h : List.Forall₂ MemberText ts members) : ∀ fuel, ts ≠ [] → ts.length ≤ fuel →
    readMembers fuel ([44].intercalate ts ++ [125]) = some members := by
  induction h with
  | nil => exact fun _ hne _ => absurd rfl hne
  | @cons t m ts members hm hrest ih =>
      intro fuel _ hfuel
      rw [List.length_cons] at hfuel
      cases fuel with
      | zero => omega
      | succ fuel =>
          -- The last member is followed by the brace, any other by a comma.
          cases ts with
          | nil =>
              cases hrest
              rw [List.intercalate_singleton, readMembers, readMember_text hm, Option.bind_some]
              rfl
          | cons t' ts =>
              have hlater := ih fuel (List.cons_ne_nil _ _) (by omega)
              rw [List.intercalate_cons_cons, List.append_assoc, List.append_assoc, readMembers,
                readMember_text hm, Option.bind_some]
              simp only [List.singleton_append, hlater, Option.map_some]

/-- A member is not empty, so there are no more members than units. -/
theorem length_le_text {ts : List JString} {members : List (JString × Value)}
    (h : List.Forall₂ MemberText ts members) : ts.length ≤ ([44].intercalate ts).length := by
  have hone : ∀ {t m}, MemberText t m → 1 ≤ t.length := by
    rintro t m ⟨n, v, ⟨l, _, rfl⟩, _, rfl⟩
    rw [List.length_append, List.length_cons]
    omega
  induction h with
  | nil => exact Nat.zero_le _
  | @cons t m ts members hm hrest ih =>
      have hpos := hone hm
      cases ts with
      | nil =>
          rw [List.intercalate_singleton]
          exact hpos
      | cons t' ts =>
          rw [List.intercalate_cons_cons, List.length_append, List.length_append, List.length_cons]
          omega

/-- A text is read, whatever its members are. -/
theorem readObject_text {t : JString} {members : List (JString × Value)}
    (h : ObjectText t members) : readObject t = some (ofMembers members) := by
  rcases h with ⟨ts, hts, rfl⟩
  have hle := length_le_text hts
  rw [readObject]
  by_cases hnil : ts = []
  · subst hnil
    cases hts
    rw [List.intercalate_nil, List.nil_append, if_pos rfl]
    rfl
  · have hpos := List.length_pos_iff.mpr hnil
    have hlong : [44].intercalate ts ++ [125] ≠ [125] := by
      intro htext
      have hlength := congrArg List.length htext
      rw [List.length_append, List.length_singleton] at hlength
      omega
    rw [if_neg hlong, readMembers_text hts _ hnil (by rw [List.length_append]; omega),
      Option.map_some]

/-- No unit of what spells another is zero. -/
theorem spells_ne_zero {e : JString} {u : UInt16} (h : Spells e u) : 0 ∉ e := by
  cases h with
  | plain u hcontrol hquote hbackslash =>
      rw [List.mem_singleton]
      rintro rfl
      exact absurd hcontrol (by decide)
  | escaped v hv =>
      rw [List.mem_cons, List.mem_singleton, not_or]
      refine ⟨by decide, ?_⟩
      rintro rfl
      exact absurd hv (by decide)
  | numbered a b c d n hread hsurrogate =>
      rw [List.mem_cons, List.mem_cons, not_or, not_or]
      exact ⟨by decide, by decide, fun h0 => absurd (digits_all hread 0 h0) (by decide)⟩

theorem literal_ne_zero {t s : JString} (h : Literal t s) : 0 ∉ t := by
  rcases h with ⟨l, hl, rfl⟩
  have hletters : 0 ∉ l := by
    induction hl with
    | nil => exact List.not_mem_nil
    | cons hunit _ ih =>
        rw [List.mem_append, not_or]
        exact ⟨spells_ne_zero hunit, ih⟩
  rw [List.mem_cons, List.mem_append, List.mem_singleton, not_or, not_or]
  exact ⟨by decide, hletters, by decide⟩

theorem memberText_ne_zero {t : JString} {m : JString × Value} (h : MemberText t m) : 0 ∉ t := by
  rcases m with ⟨name, value⟩
  rcases h with ⟨n, v, hn, hv, rfl⟩
  have hvalue : 0 ∉ v := by
    cases hv with
    | null => decide
    | string hs => exact literal_ne_zero hs
  rw [List.mem_append, List.mem_cons, not_or, not_or]
  exact ⟨literal_ne_zero hn, by decide, hvalue⟩

/-- A text has no zero in it, whatever its members have. -/
theorem objectText_ne_zero {t : JString} {members : List (JString × Value)}
    (h : ObjectText t members) : 0 ∉ t := by
  rcases h with ⟨ts, hts, rfl⟩
  have hall : 0 ∉ [44].intercalate ts := by
    induction hts with
    | nil => exact List.not_mem_nil
    | @cons t m ts members hm hrest ih =>
        cases ts with
        | nil =>
            rw [List.intercalate_singleton]
            exact memberText_ne_zero hm
        | cons t' ts =>
            rw [List.intercalate_cons_cons, List.mem_append, List.mem_append, not_or, not_or]
            exact ⟨⟨memberText_ne_zero hm, by decide⟩, ih⟩
  rw [List.mem_cons, List.mem_append, List.mem_singleton, not_or, not_or]
  exact ⟨by decide, hall, by decide⟩

/-- The reader of objects without blanks reads them all. -/
theorem readsTexts_plain : ReadsTexts Codec.plain.parse := by
  intro t o h
  rw [Codec.plain]
  simp only [readObject_text h, ofMembers_members]

/-- A text says one thing. -/
theorem objectText_unique {t : JString} {o o' : JSONObject} (h : ObjectText t o.members)
    (h' : ObjectText t o'.members) : o = o' := by
  have hread := readObject_text h
  rw [readObject_text h', ofMembers_members, ofMembers_members] at hread
  exact (Option.some.inj hread).symm

end Reading

end JsonText

end SendingSystem
