import SendingSystem.Lib.CJson

/-!
# JSON documents and schemas

A reader's view of a tree: names are compared as they are spelt, of several members of
one name the first counts, and a reference is a path of names from the root. A schema
is a tree too; of its keywords the ones here are those that say something about the
shape of a value, and any other one is a remark.

Printing a whole tree is next to printing a flat object, which it extends.

## Main definitions

* `member`, `follow`, `resolve`: Members, paths and references.
* `print`: Unformatted output of a tree.
* `satisfies`: A value is as its schema says.

## Theorems

* `follow_append`: A path is followed in parts.
* `print_strings`: An object of strings is printed as a flat one.
-/

namespace SendingSystem

namespace CJson

open CString

/-- The value of the first member of this very name. -/
def member (v : CJson) (name : List UInt8) : Option CJson :=
  match v with
  | .object members => (members.find? (fun m => m.1 = name)).map (fun m => m.2)
  | _ => none

/-- The value at the end of a path of names. -/
def follow : CJson → List (List UInt8) → Option CJson
  | v, [] => some v
  | v, name :: names => (v.member name).bind (fun u => follow u names)

/-- What a reference `#/a/b` refers to. -/
def resolve (document : CJson) (reference : List UInt8) : Option CJson :=
  match reference with
  | 35 :: 47 :: path => document.follow (path.splitOn 47)
  | _ => none

mutual

/-- `cJSON_PrintUnformatted`. -/
def print : CJson → List UInt8
  | .null => ascii "null"
  | .bool true => ascii "true"
  | .bool false => ascii "false"
  | .number text => text
  | .string value => printString value
  | .array items => 91 :: (printItems items ++ [93])
  | .object members => 123 :: (printMembers members ++ [125])

/-- Items with commas between them. -/
def printItems : List CJson → List UInt8
  | [] => []
  | v :: vs => print v ++ (match vs with | [] => [] | _ :: _ => 44 :: printItems vs)

/-- Members with commas between them. -/
def printMembers : List (List UInt8 × CJson) → List UInt8
  | [] => []
  | (name, v) :: ms =>
    printString name ++ 58 :: (print v ++
      (match ms with | [] => [] | _ :: _ => 44 :: printMembers ms))

end

/-- The name of a value's type. -/
def typeName : CJson → List UInt8
  | .null => ascii "null"
  | .bool _ => ascii "boolean"
  | .number _ => ascii "number"
  | .string _ => ascii "string"
  | .array _ => ascii "array"
  | .object _ => ascii "object"

/-- The number of characters of a UTF-8 string. -/
def characters (value : List UInt8) : Nat := (value.filter (fun b => b < 128 || 192 ≤ b)).length

/-- The number some digits write. -/
def digitsNumber (text : List UInt8) : Nat := text.foldl (fun n b => 10 * n + (b.toNat - 48)) 0

/-- The names a list of strings requires are there. -/
def hasNames (names : List CJson) (members : List (List UInt8 × CJson)) : Bool :=
  names.all (fun n => match n with
    | .string name => members.any (fun m => m.1 = name)
    | _ => true)

mutual

/-- The value is as the schema says. -/
def satisfies : CJson → CJson → Bool
  | .object keywords, v => keywordsHold keywords v
  | .bool b, _ => b
  | _, _ => false
termination_by structural schema => schema

/-- Every keyword holds. -/
def keywordsHold : List (List UInt8 × CJson) → CJson → Bool
  | [], _ => true
  | (name, schema) :: keywords, v => keywordHolds schema name v && keywordsHold keywords v
termination_by structural keywords => keywords

/-- One keyword. Those for objects hold of what is not an object, those for strings of
    what is not a string. -/
def keywordHolds : CJson → List UInt8 → CJson → Bool
  | .string type, name, v => name ≠ ascii "type" || v.typeName = type
  | .number text, name, v =>
    name ≠ ascii "minLength" || (match v with
      | .string value => digitsNumber text ≤ characters value
      | _ => true)
  | .array names, name, v =>
    name ≠ ascii "required" || (match v with
      | .object members => hasNames names members
      | _ => true)
  | .object properties, name, v =>
    name ≠ ascii "properties" || (match v with
      | .object members => propertiesHold properties members
      | _ => true)
  | _, _, _ => true
termination_by structural schema => schema

/-- Every member of a property's name is as the property says. -/
def propertiesHold : List (List UInt8 × CJson) → List (List UInt8 × CJson) → Bool
  | [], _ => true
  | (name, schema) :: properties, members =>
    members.all (fun m => m.1 ≠ name || satisfies schema m.2) && propertiesHold properties members
termination_by structural properties => properties

end

/-- A path is followed in parts. -/
theorem follow_append (v : CJson) (names names' : List (List UInt8)) :
    v.follow (names ++ names') = (v.follow names).bind fun u => u.follow names' := by
  induction names generalizing v with
  | nil => rfl
  | cons name names ih =>
      rw [List.cons_append, follow, follow, Option.bind_assoc]
      exact congrArg _ (funext fun u => ih u)

/-- An object of strings is printed as a flat one. -/
theorem print_strings (members : List (List UInt8 × List UInt8)) :
    print (.object (members.map fun m => (m.1, .string m.2))) = printObject members := by
  have hmembers : printMembers (members.map fun m => (m.1, .string m.2))
      = [44].intercalate (members.map printMember) := by
    induction members with
    | nil => rfl
    | cons m members ih =>
        cases members with
        | nil =>
            simp only [List.map_singleton, List.intercalate_singleton, printMembers, print,
              List.append_nil, printMember]
        | cons m' members =>
            have hjoin : [44].intercalate ((m :: m' :: members).map printMember)
                = printMember m ++ [44] ++ [44].intercalate ((m' :: members).map printMember) :=
              List.intercalate_cons_cons
            rw [hjoin, ← ih]
            simp only [List.map_cons, printMembers, print, printMember, List.append_assoc,
              List.cons_append, List.nil_append]
  rw [print, hmembers, printObject, List.cons_append]

end CJson

end SendingSystem
