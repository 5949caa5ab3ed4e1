import Mathlib.Data.List.TakeWhile
import SendingSystem.Lib.IpText

/-!
# Uniform resource identifiers

The generic syntax of a URI with an authority: `scheme://authority/path`, with a
query and a fragment behind it. The authority is a host, perhaps with user
information before an `@` and a port behind a `:`. A host is an address in
brackets, an IPv4 address or else a registered name; what is in brackets is an
IPv6 address or one of a version to come.

A text is split at its delimiters first, and every component is checked then.

## Main definitions

* `Host`, `Authority`, `Uri`: The components.
* `parseHost`, `parseAuthority`, `parse`: The components of a text.

## Theorems

* `encoded_plain`: Text without encoded units.
* `parse_eq`: The components of a text that is put together.
* `parseAuthority_bare`: Without user information it is host and port.
* `parsePort_decimal`: A port is read back.
* `parseHost_literal`, `parseHost_name`: A host with a port.
* `parseHost_colons`: A host that has a colon but no brackets.
-/

namespace SendingSystem

namespace Uri

open Utf16 IpText

/-- A letter. -/
def isAlpha (u : UInt16) : Bool := (65 ≤ u && u < 91) || (97 ≤ u && u < 123)

/-- `unreserved`. -/
def isUnreserved (u : UInt16) : Bool := isAlpha u || isDigit u || (lit "-._~").contains u

/-- `sub-delims`. -/
def isSubDelim (u : UInt16) : Bool := (lit "!$&'()*+,;=").contains u

/-- Units of a class, and `pct-encoded`. -/
def encoded (ok : UInt16 → Bool) : JString → Bool
  | [] => true
  | u :: s =>
    -- `%` and two hexadecimal digits stand for any unit.
    if u = 37 then
      match s with
      | a :: b :: s => isHexDigit a && isHexDigit b && encoded ok s
      | _ => false
    else ok u && encoded ok s

/-- `scheme`. -/
def isScheme : JString → Bool
  | [] => false
  | u :: s => isAlpha u && s.all (fun v => isAlpha v || isDigit v || (lit "+-.").contains v)

/-- `userinfo`. -/
def isUserinfo (s : JString) : Bool :=
  encoded (fun u => isUnreserved u || isSubDelim u || u == 58) s

/-- `reg-name`. -/
def isRegName (s : JString) : Bool := encoded (fun u => isUnreserved u || isSubDelim u) s

/-- A unit of a `pchar` that is not encoded. -/
def isPchar (u : UInt16) : Bool := isUnreserved u || isSubDelim u || u == 58 || u == 64

/-- `path-abempty`. -/
def isPath (s : JString) : Bool :=
  (s = [] || s.head? = some 47) && encoded (fun u => isPchar u || u == 47) s

/-- `query` and `fragment`. -/
def isQuery (s : JString) : Bool := encoded (fun u => isPchar u || u == 47 || u == 63) s

/-- `host`. -/
inductive Host where
  | ipv4 (address : BitVec 32)
  | ipv6 (address : BitVec 128)
  | future (text : JString)
  | regName (name : JString)
  deriving DecidableEq

/-- `authority`. -/
structure Authority where
  userinfo : Option JString
  host : Host
  port : Option Nat
  deriving DecidableEq

end Uri

/-- A URI with an authority. -/
structure Uri where
  scheme : JString
  authority : Uri.Authority
  path : JString
  query : Option JString
  fragment : Option JString
  deriving DecidableEq

namespace Uri

open Utf16 IpText

/-- `IPvFuture`, without the brackets. -/
def isFuture : JString → Bool
  | [] => false
  | u :: s =>
    (u == 118 || u == 86) && s.takeWhile (· ≠ 46) ≠ [] && (s.takeWhile (· ≠ 46)).all isHexDigit &&
      match s.dropWhile (· ≠ 46) with
      | _ :: v :: s => (v :: s).all (fun u => isUnreserved u || isSubDelim u || u == 58)
      | _ => false

/-- What is in the brackets of an `IP-literal`. -/
def parseLiteral (s : JString) : Option Host :=
  match Reading.strict.ipv6 s with
  | some a => some (.ipv6 a)
  | none => if isFuture s then some (.future s) else none

/-- `host`, without brackets. The first that fits is meant. -/
def parseName (s : JString) : Option Host :=
  match Reading.strict.ipv4 s with
  | some a => some (.ipv4 a)
  | none => if isRegName s then some (.regName s) else none

/-- `[ ":" port ]`. No digits are no port. -/
def parsePort : JString → Option (Option Nat)
  | [] => some none
  | u :: s => if u = 58 then if s = [] then some none else (readDecimal s).map some else none

/-- `host [ ":" port ]`. -/
def parseHost (userinfo : Option JString) (s : JString) : Option Authority :=
  if s.head? = some 91 then
    match s.tail.dropWhile (· ≠ 93) with
    | [] => none
    | _ :: rest => (parseLiteral (s.tail.takeWhile (· ≠ 93))).bind (fun host =>
        (parsePort rest).map (fun port => ⟨userinfo, host, port⟩))
  else (parseName (s.takeWhile (· ≠ 58))).bind (fun host =>
    (parsePort (s.dropWhile (· ≠ 58))).map (fun port => ⟨userinfo, host, port⟩))

/-- `authority`. -/
def parseAuthority (s : JString) : Option Authority :=
  match s.dropWhile (· ≠ 64) with
  | [] => parseHost none s
  | _ :: rest =>
    if isUserinfo (s.takeWhile (· ≠ 64)) then parseHost (some (s.takeWhile (· ≠ 64))) rest else none

/-- Not one of these delimiters. -/
def noneOf (delimiters : JString) (u : UInt16) : Bool := !delimiters.contains u

/-- A component behind its delimiter, if it is there. -/
def component (s : JString) : Option (Option JString) :=
  match s with
  | [] => some none
  | _ :: s => if isQuery s then some (some s) else none

/-- What follows the authority. -/
def parseRest (scheme : JString) (authority : Authority) (s : JString) : Option Uri :=
  let path := s.takeWhile (noneOf (lit "?#"))
  let behind := s.dropWhile (noneOf (lit "?#"))
  let query := if behind.head? = some 63 then behind.takeWhile (noneOf (lit "#")) else []
  let fragment := behind.dropWhile (noneOf (lit "#"))
  if isPath path then
    (component query).bind (fun query => (component fragment).map (fun fragment =>
      ⟨scheme, authority, path, query, fragment⟩))
  else none

/-- The components of a URI with an authority. -/
def parse (s : JString) : Option Uri :=
  match s.dropWhile (· ≠ 58) with
  | 58 :: 47 :: 47 :: rest =>
    if isScheme (s.takeWhile (· ≠ 58)) then
      (parseAuthority (rest.takeWhile (noneOf (lit "/?#")))).bind (fun authority =>
        parseRest (s.takeWhile (· ≠ 58)) authority (rest.dropWhile (noneOf (lit "/?#"))))
    else none
  | _ => none

/-- A text of units of the class is one without encoded units, too. -/
theorem encoded_plain {ok : UInt16 → Bool} {s : JString} (h : ∀ u ∈ s, u ≠ 37 ∧ ok u = true) :
    encoded ok s = true := by
  induction s with
  | nil => rfl
  | cons u s ih =>
      have hu := h u List.mem_cons_self
      rw [encoded.eq_def]
      simp only [if_neg hu.1, hu.2, Bool.true_and]
      exact ih (fun v hv => h v (List.mem_cons_of_mem u hv))

/-- A text up to a delimiter, and what follows. -/
theorem takeWhile_delimited {p : UInt16 → Bool} {s t : JString} {u : UInt16}
    (h : ∀ v ∈ s, p v = true) (hu : p u = false) :
    (s ++ u :: t).takeWhile p = s ∧ (s ++ u :: t).dropWhile p = u :: t := by
  constructor
  · rw [List.takeWhile_append_of_pos h, List.takeWhile_cons_of_neg (by rw [hu]; exact
      Bool.false_ne_true), List.append_nil]
  · rw [List.dropWhile_append_of_pos h, List.dropWhile_cons_of_neg (by rw [hu]; exact
      Bool.false_ne_true)]

/-- A text without a delimiter. -/
theorem takeWhile_whole {p : UInt16 → Bool} {s : JString} (h : ∀ v ∈ s, p v = true) :
    s.takeWhile p = s ∧ s.dropWhile p = [] := by
  constructor
  · exact List.takeWhile_eq_self_iff.mpr h
  · exact List.dropWhile_eq_nil_iff.mpr h

/-- A scheme, an authority and a path put together are parsed one by one. -/
theorem parse_eq {scheme authority path : JString} (hscheme : isScheme scheme = true)
    (hcolon : ∀ u ∈ scheme, u ≠ 58) (hauthority : ∀ u ∈ authority, noneOf (lit "/?#") u = true)
    (hpath : isPath (47 :: path) = true) (hplain : ∀ u ∈ path, noneOf (lit "?#") u = true) :
    parse (scheme ++ lit "://" ++ authority ++ 47 :: path)
      = (parseAuthority authority).map (fun a => ⟨scheme, a, 47 :: path, none, none⟩) := by
  have hsplit : scheme ++ lit "://" ++ authority ++ 47 :: path
      = scheme ++ 58 :: (47 :: 47 :: (authority ++ 47 :: path)) := by
    rw [List.append_assoc, List.append_assoc]
    rfl
  have hfirst := takeWhile_delimited (p := fun u => decide (u ≠ 58)) (u := 58)
    (t := 47 :: 47 :: (authority ++ 47 :: path))
    (fun u hu => decide_eq_true (hcolon u hu)) rfl
  have hsecond := takeWhile_delimited (u := 47) (t := path) hauthority rfl
  have hthird := takeWhile_whole (p := noneOf (lit "?#")) (s := 47 :: path) (fun u hu => by
    rcases List.mem_cons.mp hu with rfl | hu
    · rfl
    · exact hplain u hu)
  -- Each component ends at the first delimiter, which none before it contains.
  rw [hsplit, parse]
  simp only [hfirst.1, hfirst.2, hscheme, if_true, hsecond.1, hsecond.2]
  cases parseAuthority authority with
  | none => rfl
  | some a =>
      rw [Option.bind_some, parseRest]
      simp only [hthird.1, hthird.2, hpath, if_true]
      rfl

/-- Without an `@` there is no user information. -/
theorem parseAuthority_bare {s : JString} (h : ∀ u ∈ s, u ≠ 64) :
    parseAuthority s = parseHost none s := by
  rw [parseAuthority, (takeWhile_whole (p := fun u => decide (u ≠ 64))
    (fun u hu => decide_eq_true (h u hu))).2]

/-- A port is read back. -/
theorem parsePort_decimal (n : Nat) : parsePort (58 :: lit (toString n)) = some (some n) := by
  have hread := readDecimal_toString n
  rw [parsePort, if_pos rfl, if_neg (digits_ne_nil hread), hread]
  rfl

/-- A host in brackets with a port. -/
theorem parseHost_literal {userinfo : Option JString} {s : JString} (h : ∀ u ∈ s, u ≠ 93)
    (n : Nat) : parseHost userinfo (91 :: s ++ 93 :: 58 :: lit (toString n))
      = (parseLiteral s).map (fun host => ⟨userinfo, host, some n⟩) := by
  have hsplit := takeWhile_delimited (p := fun u => decide (u ≠ 93)) (u := 93)
    (t := 58 :: lit (toString n)) (fun u hu => decide_eq_true (h u hu)) rfl
  have hhead : (91 :: s ++ 93 :: 58 :: lit (toString n)).head? = some 91 := rfl
  rw [parseHost, if_pos hhead]
  simp only [List.cons_append, List.tail_cons, hsplit.1, hsplit.2, parsePort_decimal,
    Option.map_some]
  cases parseLiteral s with
  | none => rfl
  | some host => rfl

/-- A host without brackets and colons, with a port. -/
theorem parseHost_name {userinfo : Option JString} {s : JString} (hbracket : s.head? ≠ some 91)
    (hne : s ≠ []) (h : ∀ u ∈ s, u ≠ 58) (n : Nat) :
    parseHost userinfo (s ++ 58 :: lit (toString n))
      = (parseName s).map (fun host => ⟨userinfo, host, some n⟩) := by
  have hsplit := takeWhile_delimited (p := fun u => decide (u ≠ 58)) (u := 58)
    (t := lit (toString n)) (fun u hu => decide_eq_true (h u hu)) rfl
  have hhead : (s ++ 58 :: lit (toString n)).head? = s.head? := by
    rw [List.head?_append_of_ne_nil _ hne]
  rw [parseHost, hhead, if_neg hbracket, hsplit.1, hsplit.2, parsePort_decimal]
  cases parseName s with
  | none => rfl
  | some host => rfl

/-- The first colon outside of brackets is the port's: with another behind it there
    is no authority. -/
theorem parseHost_colons {userinfo : Option JString} {s port : JString}
    (hbracket : s.head? ≠ some 91) (h : 58 ∈ s) : parseHost userinfo (s ++ 58 :: port) = none := by
  have hhead : (s ++ 58 :: port).head? = s.head? :=
    List.head?_append_of_ne_nil _ (List.ne_nil_of_mem h)
  rcases List.eq_append_cons_of_mem h with ⟨front, back, hs, hfront⟩
  have hsplit := takeWhile_delimited (p := fun u => decide (u ≠ 58)) (s := front) (u := 58)
    (t := back ++ 58 :: port)
    (fun u hu => decide_eq_true (fun hcolon => hfront (hcolon ▸ hu))) rfl
  -- The second colon is among the digits.
  have hport : parsePort (58 :: (back ++ 58 :: port)) = none := by
    rw [parsePort, if_pos rfl, if_neg (List.append_ne_nil_of_right_ne_nil _ (List.cons_ne_nil _ _)),
      Option.map_eq_none_iff, readDecimal, digits, if_neg]
    rintro ⟨_, hall⟩
    have hcolon := List.all_eq_true.mp hall 58 (List.mem_append_right _ List.mem_cons_self)
    exact absurd hcolon (by decide)
  rw [parseHost, hhead, if_neg hbracket, hs, List.append_assoc, List.cons_append, hsplit.1,
    hsplit.2, hport]
  cases parseName front with
  | none => rfl
  | some host => rfl

end Uri

end SendingSystem
