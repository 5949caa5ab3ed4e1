import Mathlib.Data.List.Basic
import Mathlib.Data.List.Nodup
import SendingSystem.Lib.IpText

/-!
# JSON objects as org.json has them

A `JSONObject` is a map from names to values that remembers the order in which
names were put. A value that is asked for as a string is converted: a string is
itself, and everything else is what it is printed as, the null of JSON included.

Texts are read and printed by a `Codec`, of which only is documented that objects
of strings and nulls are read back as they were printed. `Codec.plain` is one: it
prints such objects without blanks, and reads what it prints.

## Main definitions

* `Value`, `JSONObject`: The tree, one level deep.
* `put`, `opt`, `optString`: The accessors.
* `Codec`, `Codec.Documented`: Reading and printing.
* `printString`, `readString`: A string between quotes.
* `Codec.plain`: Reading and printing of objects of strings and nulls.

## Theorems

* `opt_put`, `opt_put_of_ne`: A value that was put.
* `readString_print`: A string is read back.
* `plain_documented`: An object is read back.
-/

namespace SendingSystem

namespace OrgJson

open Utf16 IpText

/-- A value. Of one that is neither null nor a string there is its text. -/
inductive Value where
  | null
  | string (s : JString)
  | other (text : JString)
  deriving DecidableEq

/-- `String.valueOf`. -/
def Value.valueOf : Value → JString
  | .null => lit "null"
  | .string s => s
  | .other text => text

/-- A null or a string. -/
def Value.Plain : Value → Prop
  | .null => True
  | .string _ => True
  | .other _ => False

/-- Names with their values, every name once. -/
structure JSONObject where
  members : List (JString × Value)
  nodup : (members.map Prod.fst).Nodup

namespace JSONObject

/-- `new JSONObject()`. -/
def empty : JSONObject := ⟨[], List.nodup_nil⟩

/-- The value of a name that is there is replaced where it stands. -/
def replace (o : JSONObject) (name : JString) (value : Value) : JSONObject where
  members := o.members.map (fun m => if m.1 = name then (name, value) else m)
  nodup := by
    have hnames : (o.members.map (fun m => if m.1 = name then (name, value) else m)).map Prod.fst
        = o.members.map Prod.fst := by
      rw [List.map_map]
      refine List.map_congr_left (fun m _ => ?_)
      by_cases hm : m.1 = name
      · rw [Function.comp_apply, if_pos hm, hm]
      · rw [Function.comp_apply, if_neg hm]
    rw [hnames]
    exact o.nodup

/-- A name that is not there goes behind the others. -/
def append (o : JSONObject) (name : JString) (value : Value)
    (h : name ∉ o.members.map Prod.fst) : JSONObject where
  members := o.members ++ [(name, value)]
  nodup := by
    rw [List.map_append, List.map_singleton, List.nodup_append]
    refine ⟨o.nodup, List.nodup_singleton _, fun a ha b hb hab => h ?_⟩
    rw [List.mem_singleton] at hb
    have hname : b = name := hb
    rw [← hname, ← hab]
    exact ha

/-- `put`. -/
def put (o : JSONObject) (name : JString) (value : Value) : JSONObject :=
  if h : name ∈ o.members.map Prod.fst then o.replace name value else o.append name value h

/-- `opt`. -/
def opt (o : JSONObject) (name : JString) : Option Value :=
  (o.members.find? (fun m => m.1 = name)).map Prod.snd

/-- `optString`. -/
def optString (o : JSONObject) (name : JString) (fallback : Option JString) : Option JString :=
  match o.opt name with
  | some value => some value.valueOf
  | none => fallback

/-- All values are strings or nulls. -/
def Plain (o : JSONObject) : Prop := ∀ m ∈ o.members, m.2.Plain

/-- Replacing a value keeps the names where they are. -/
theorem find?_replace (o : JSONObject) (name other : JString) (value : Value) :
    (o.replace name value).members.find? (fun m => m.1 = other)
      = (o.members.find? (fun m => m.1 = other)).map
        (fun m => if m.1 = name then (name, value) else m) := by
  have hname : ((fun m : JString × Value => decide (m.1 = other)) ∘
      fun m => if m.1 = name then (name, value) else m) = fun m => decide (m.1 = other) := by
    funext m
    by_cases hm : m.1 = name
    · rw [Function.comp_apply, if_pos hm, hm]
    · rw [Function.comp_apply, if_neg hm]
  rw [replace, List.find?_map, hname]

/-- A name has the value that was put last. -/
theorem opt_put (o : JSONObject) (name : JString) (value : Value) :
    (o.put name value).opt name = some value := by
  unfold put opt
  split
  · next h =>
      -- The member that has the name already keeps its place.
      rw [find?_replace]
      rcases List.mem_map.mp h with ⟨m, hm, hname⟩
      cases hfind : o.members.find? (fun m => m.1 = name) with
      | none => exact absurd (decide_eq_true hname) (List.find?_eq_none.mp hfind m hm)
      | some m' =>
          have hm' := List.find?_some hfind
          rw [Option.map_some, if_pos (of_decide_eq_true hm')]
          rfl
  · next h =>
      have hnone : o.members.find? (fun m => m.1 = name) = none := by
        refine List.find?_eq_none.mpr (fun m hm hname => h ?_)
        exact List.mem_map.mpr ⟨m, hm, of_decide_eq_true hname⟩
      rw [append, List.find?_append, hnone, Option.none_or, List.find?_singleton,
        if_pos (decide_eq_true rfl)]
      rfl

/-- The other names keep theirs. -/
theorem opt_put_of_ne (o : JSONObject) {name other : JString} (value : Value)
    (h : other ≠ name) : (o.put name value).opt other = o.opt other := by
  unfold put opt
  split
  · rw [find?_replace]
    cases hfind : o.members.find? (fun m => m.1 = other) with
    | none => rfl
    | some m =>
        have hm := List.find?_some hfind
        rw [Option.map_some, if_neg (fun hname => h ((of_decide_eq_true hm).symm.trans hname))]
  · rw [append, List.find?_append, List.find?_cons_of_neg, List.find?_nil, Option.or_none]
    exact fun hname => h (of_decide_eq_true hname).symm

theorem plain_put {o : JSONObject} (h : o.Plain) (name : JString) {value : Value}
    (hvalue : value.Plain) : (o.put name value).Plain := by
  intro m hm
  unfold put at hm
  -- The value is put in the place of the old one, or behind all others.
  split at hm
  · rcases List.mem_map.mp hm with ⟨m', hm', rfl⟩
    split
    · exact hvalue
    · exact h m' hm'
  · rcases List.mem_append.mp hm with hm | hm
    · exact h m hm
    · rw [List.mem_singleton] at hm
      rw [hm]
      exact hvalue

end JSONObject

/-- `new JSONObject(String)`, nothing when it throws, and `toString()`. -/
structure Codec where
  parse : JString → Option JSONObject
  print : JSONObject → JString

/-- What is documented: objects of strings and nulls are read back. -/
def Codec.Documented (c : Codec) : Prop := ∀ o : JSONObject, o.Plain → c.parse (c.print o) = some o

/-- A hexadecimal digit. -/
def hexDigit (u : UInt16) : UInt16 := if u < 10 then 48 + u else 87 + u

/-- One unit of a printed string. -/
def escape (u : UInt16) : JString :=
  if u = 34 ∨ u = 92 ∨ u = 47 then [92, u]
  else if u = 9 then [92, 116]
  else if u = 8 then [92, 98]
  else if u = 10 then [92, 110]
  else if u = 13 then [92, 114]
  else if u = 12 then [92, 102]
  else if u < 32 then [92, 117, 48, 48, hexDigit (u / 16), hexDigit (u % 16)]
  else [u]

/-- A string between quotes. -/
def printString (s : JString) : JString := 34 :: s.flatMap escape ++ [34]

/-- A value. -/
def printValue : Value → JString
  | .null => lit "null"
  | .string s => printString s
  | .other text => text

/-- A member `"name":value`. -/
def printMember (m : JString × Value) : JString := printString m.1 ++ 58 :: printValue m.2

/-- The unit an escaped unit stands for, a number in four digits apart. -/
def unescape (u : UInt16) : UInt16 :=
  if u = 116 then 9
  else if u = 98 then 8
  else if u = 110 then 10
  else if u = 114 then 13
  else if u = 102 then 12
  else u

/-- What is behind the quote that begins a string: the string, and what is behind
    the quote that ends it. -/
def readString : JString → Option (JString × JString)
  | [] => none
  | u :: s =>
    if u = 34 then some ([], s)
    else if u = 92 then
      match s with
      | [] => none
      | v :: s =>
        if v = 117 then
          match s with
          | a :: b :: c :: d :: s => (readHexadecimal [a, b, c, d]).bind (fun n =>
              (readString s).map (fun r => (n.toUInt16 :: r.1, r.2)))
          | _ => none
        else (readString s).map (fun r => (unescape v :: r.1, r.2))
    else (readString s).map (fun r => (u :: r.1, r.2))

/-- A string or a null, and what is behind it. -/
def readValue : JString → Option (Value × JString)
  | 34 :: s => (readString s).map (fun r => (.string r.1, r.2))
  | 110 :: 117 :: 108 :: 108 :: s => some (.null, s)
  | _ => none

/-- A member, and what is behind it. -/
def readMember : JString → Option ((JString × Value) × JString)
  | 34 :: s => (readString s).bind (fun r =>
    match r.2 with
    | 58 :: s => (readValue s).map (fun q => ((r.1, q.1), q.2))
    | _ => none)
  | _ => none

/-- Members up to the closing brace, which ends the text. -/
def readMembers : Nat → JString → Option (List (JString × Value))
  | 0, _ => none
  | fuel + 1, s => (readMember s).bind (fun r =>
    match r.2 with
    | [125] => some [r.1]
    | 44 :: s => (readMembers fuel s).map (fun l => r.1 :: l)
    | _ => none)

/-- The object with these members, put one by one. -/
def ofMembers (l : List (JString × Value)) : JSONObject :=
  l.foldl (fun o m => o.put m.1 m.2) JSONObject.empty

/-- An object of strings and nulls without blanks, and nothing behind it. -/
def readObject : JString → Option JSONObject
  | 123 :: s =>
    if s = [125] then some JSONObject.empty else (readMembers s.length s).map ofMembers
  | _ => none

/-- An object without blanks. -/
def printObject (o : JSONObject) : JString :=
  123 :: ([44].intercalate (o.members.map printMember) ++ [125])

/-- Reading and printing of objects of strings and nulls. -/
def Codec.plain : Codec := ⟨readObject, printObject⟩

/-- A backslash and a unit that is no `u`. -/
theorem readString_backslash {v : UInt16} (hv : v ≠ 117) (s : JString) :
    readString (92 :: v :: s) = (readString s).map (fun r => (unescape v :: r.1, r.2)) := by
  rw [readString.eq_def (92 :: v :: s)]
  simp only [if_neg (by decide : ¬ (92 : UInt16) = 34), if_true, if_neg hv]

/-- A control character is written in two digits behind two zeros. -/
theorem readHexadecimal_control : ∀ n < 32,
    readHexadecimal [48, 48, hexDigit (Nat.toUInt16 n / 16), hexDigit (Nat.toUInt16 n % 16)]
      = some n := by decide

/-- A unit is read back, whatever is behind it. -/
theorem readString_escape (u : UInt16) (s : JString) :
    readString (escape u ++ s) = (readString s).map (fun r => (u :: r.1, r.2)) := by
  unfold escape
  by_cases hsame : u = 34 ∨ u = 92 ∨ u = 47
  · rw [if_pos hsame]
    have hu : u ≠ 117 ∧ unescape u = u := by
      rcases hsame with rfl | rfl | rfl <;> decide
    refine (readString_backslash hu.1 s).trans ?_
    rw [hu.2]
  rw [if_neg hsame]
  rw [not_or] at hsame
  -- The five control characters with a letter of their own.
  by_cases h9 : u = 9
  · rw [if_pos h9, h9]
    exact readString_backslash (by decide) s
  by_cases h8 : u = 8
  · rw [if_neg h9, if_pos h8, h8]
    exact readString_backslash (by decide) s
  by_cases h10 : u = 10
  · rw [if_neg h9, if_neg h8, if_pos h10, h10]
    exact readString_backslash (by decide) s
  by_cases h13 : u = 13
  · rw [if_neg h9, if_neg h8, if_neg h10, if_pos h13, h13]
    exact readString_backslash (by decide) s
  by_cases h12 : u = 12
  · rw [if_neg h9, if_neg h8, if_neg h10, if_neg h13, if_pos h12, h12]
    exact readString_backslash (by decide) s
  rw [if_neg h9, if_neg h8, if_neg h10, if_neg h13, if_neg h12]
  by_cases hcontrol : u < 32
  · have hnat : u.toNat < 32 := UInt16.lt_iff_toNat_lt.mp hcontrol
    have hback : Nat.toUInt16 u.toNat = u := UInt16.ofNat_toNat
    have hread := readHexadecimal_control u.toNat hnat
    rw [hback] at hread
    rw [if_pos hcontrol]
    simp only [List.cons_append, List.nil_append]
    rw [readString.eq_def (92 :: 117 :: _)]
    simp only [if_neg (by decide : ¬ (92 : UInt16) = 34), if_true, hread, Option.bind_some, hback]
  · rw [if_neg hcontrol, List.singleton_append, readString.eq_def (u :: s)]
    simp only [if_neg hsame.1, if_neg (fun h => hsame.2 (Or.inl h))]

/-- A string is read back up to its closing quote. -/
theorem readString_print (s rest : JString) :
    readString (s.flatMap escape ++ 34 :: rest) = some (s, rest) := by
  induction s with
  | nil =>
      rw [List.flatMap_nil, List.nil_append, readString.eq_def]
      rfl
  | cons u s ih =>
      rw [List.flatMap_cons, List.append_assoc, readString_escape, ih]
      rfl

theorem readValue_print {v : Value} (h : v.Plain) (rest : JString) :
    readValue (printValue v ++ rest) = some (v, rest) := by
  cases v with
  | null => rfl
  | string s =>
      have hsplit : printValue (.string s) ++ rest = 34 :: (s.flatMap escape ++ 34 :: rest) := by
        rw [printValue, printString, List.append_assoc]
        rfl
      rw [hsplit, readValue, readString_print]
      rfl
  | other text => exact h.elim

theorem readMember_print {m : JString × Value} (h : m.2.Plain) (rest : JString) :
    readMember (printMember m ++ rest) = some (m, rest) := by
  have hsplit : printMember m ++ rest
      = 34 :: (m.1.flatMap escape ++ 34 :: (58 :: (printValue m.2 ++ rest))) := by
    rw [printMember, printString, List.append_assoc, List.append_assoc]
    rfl
  rw [hsplit, readMember, readString_print, Option.bind_some]
  simp only [readValue_print h, Option.map_some]

/-- Members are read back, if the reader may turn as often as there are. -/
theorem readMembers_print : ∀ (l : List (JString × Value)) (fuel : Nat), l ≠ [] →
    l.length ≤ fuel → (∀ m ∈ l, m.2.Plain) →
    readMembers fuel ([44].intercalate (l.map printMember) ++ [125]) = some l := by
  intro l
  induction l with
  | nil => exact fun _ h _ _ => absurd rfl h
  | cons m l ih =>
      intro fuel _ hfuel hplain
      have hm := hplain m List.mem_cons_self
      cases fuel with
      | zero =>
          rw [List.length_cons] at hfuel
          omega
      | succ fuel =>
          rw [List.length_cons] at hfuel
          -- The last member is followed by the brace, any other by a comma.
          cases l with
          | nil =>
              rw [List.map_singleton, List.intercalate_singleton, readMembers,
                readMember_print hm, Option.bind_some]
              rfl
          | cons m' l =>
              have hrest := ih fuel (List.cons_ne_nil _ _) (by omega)
                (fun q hq => hplain q (List.mem_cons_of_mem m hq))
              rw [List.map_cons, List.map_cons, List.intercalate_cons_cons, ← List.map_cons,
                List.append_assoc, List.append_assoc, readMembers, readMember_print hm,
                Option.bind_some]
              simp only [List.singleton_append, hrest, Option.map_some]

theorem length_le_intercalate (l : List (JString × Value)) :
    l.length ≤ ([44].intercalate (l.map printMember)).length := by
  have hone : ∀ m, 1 ≤ (printMember m).length := by
    intro m
    rw [printMember, List.length_append, List.length_cons]
    omega
  induction l with
  | nil => exact Nat.zero_le _
  | cons m l ih =>
      have hm := hone m
      cases l with
      | nil =>
          rw [List.map_singleton, List.intercalate_singleton]
          exact hm
      | cons m' l =>
          rw [List.map_cons, List.map_cons, List.intercalate_cons_cons, ← List.map_cons,
            List.length_append, List.length_append, List.length_cons]
          omega

/-- Members with names of their own are put behind each other. -/
theorem members_foldl_put : ∀ (l : List (JString × Value)) (o : JSONObject),
    ((o.members ++ l).map Prod.fst).Nodup →
    (l.foldl (fun o m => o.put m.1 m.2) o).members = o.members ++ l := by
  intro l
  induction l with
  | nil => exact fun o _ => (List.append_nil _).symm
  | cons m l ih =>
      intro o hnodup
      -- The names are distinct, so this one is not there yet.
      have hnew : m.1 ∉ o.members.map Prod.fst := by
        rw [List.map_append, List.map_cons, List.nodup_append] at hnodup
        exact fun hm => hnodup.2.2 m.1 hm m.1 List.mem_cons_self rfl
      have hput : (o.put m.1 m.2).members = o.members ++ [m] := by
        rw [JSONObject.put, dif_neg hnew]
        rfl
      rw [List.foldl_cons, ih]
      · rw [hput, List.append_assoc, List.singleton_append]
      · rw [hput, List.append_assoc, List.singleton_append]
        exact hnodup

theorem ofMembers_members (o : JSONObject) : ofMembers o.members = o := by
  have hmembers : (ofMembers o.members).members = o.members :=
    members_foldl_put o.members JSONObject.empty o.nodup
  rcases h : ofMembers o.members with ⟨members, nodup⟩
  rw [h] at hmembers
  rcases o with ⟨members', nodup'⟩
  rw [JSONObject.mk.injEq]
  exact hmembers

/-- An object of strings and nulls is read back. -/
theorem plain_documented : Codec.plain.Documented := by
  intro o hplain
  have hle := length_le_intercalate o.members
  rw [Codec.plain]
  simp only [printObject, readObject]
  by_cases hnil : o.members = []
  · have hempty : JSONObject.empty = o := by
      rw [← ofMembers_members o, hnil]
      rfl
    rw [hnil, List.map_nil, List.intercalate_nil, List.nil_append, if_pos rfl, hempty]
  -- A member is more than the brace that ends the text.
  · have hpos := List.length_pos_iff.mpr hnil
    rw [if_neg (fun htext => ?_), readMembers_print o.members _ hnil _ hplain, Option.map_some,
      ofMembers_members]
    · rw [List.length_append]
      omega
    · have hlen := congrArg List.length htext
      rw [List.length_append, List.length_singleton] at hlen
      omega

end OrgJson

end SendingSystem
