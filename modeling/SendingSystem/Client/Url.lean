import Mathlib.Data.List.TakeWhile
import SendingSystem.Client.SendData
import SendingSystem.Client.TlsClient
import SendingSystem.Lib.Uri

/-!
# The address in the URL

`isValidInetAddress` takes whatever `InetAddress.getByName` makes an address of,
and `baseUrl` puts the text between the scheme and the port as it is. The two do
not agree on how an address is written. `getByName` takes an IPv6 address with
brackets or without, with a zone behind a `%`, and numbers by their value; it
also takes an IPv4 address of fewer than four numbers. In a URL an IPv6 address
stands in brackets, since its colons are taken for the port's otherwise, and an
IPv4 address is four numbers without leading zeros.

## Main definitions

* `InetAddress`, `getByName`: Addresses, and the texts that are read as one.
* `PointsTo`: A URL is one for an address, a port and a path.
* `IsUriHost`: An address as a URL has it.

## Theorems

* `parse_baseUrl`: The components of the URL are those of its authority.
* `getByName_cases`, `getByName_isUriHost`: What a text is read as.
* `parseHost_inet4`, `parseHost_brackets`: When an address is read as a host again.
* `baseUrl_pointsTo_iff`: When the URL points to the accepted address.
-/

namespace SendingSystem

namespace Client

open Utf16 Connector IpText

/-- `java.net.InetAddress`, an IPv6 address with its zone. -/
inductive InetAddress where
  | inet4 (address : BitVec 32)
  | inet6 (address : BitVec 128) (zone : Option JString)
  deriving DecidableEq

namespace InetAddress

/-- Whether it is an `Inet4Address` or an `Inet6Address`. -/
def version : InetAddress → IPVersion
  | inet4 _ => .ipv4
  | inet6 _ _ => .ipv6

/-- The address with these 16 bytes. A mapped IPv4 address becomes that address. -/
def ofBytes (address : BitVec 128) : InetAddress :=
  if address >>> 32 = 0xFFFF then .inet4 (address.setWidth 32) else .inet6 address none

end InetAddress

/-- The literals of an IPv4 address: up to four decimal numbers, of which the last
    one fills the bytes that are left. -/
def parseInet4 (s : JString) : Option (BitVec 32) :=
  ((s.splitOn 46).mapM readDecimal).bind (fun l =>
    if l.length ≤ 4 ∧ (∀ n ∈ l.dropLast, n < 256) ∧ l.getLastD 0 < 256 ^ (5 - l.length) then
      some (BitVec.ofNat 32 (number 256 l.dropLast * 256 ^ (5 - l.length) + l.getLastD 0))
    else none)

/-- The literals of an IPv6 address, which may name a zone; `zones` are the ones
    there are. -/
def parseInet6 (zones : JString → Bool) (s : JString) : Option InetAddress :=
  (Reading.byValue.ipv6 (s.takeWhile (· ≠ 37))).bind (fun address =>
    match s.dropWhile (· ≠ 37) with
    | [] => some (.ofBytes address)
    | _ :: zone =>
      match InetAddress.ofBytes address with
      | .inet4 _ => none
      | .inet6 address _ => if zones zone then some (.inet6 address (some zone)) else none)

/-- `InetAddress.getByName` for a literal; nothing for a text that is none. -/
def getByName (zones : JString → Bool) (host : JString) : Option InetAddress :=
  if host.head? = some 91 then
    if host.tail.getLast? = some 93 then parseInet6 zones host.tail.dropLast else none
  else
    match parseInet4 host with
    | some address => some (.inet4 address)
    | none => parseInet6 zones host

/-- The scheme of the URL. -/
def Connector.scheme {P : Platform} (c : Connector P) : JString :=
  if c.isSSLEncryptEnabled then lit "https" else lit "http"

/-- The paths requests are sent to. -/
def endpoints : List JString := [lit "/api/send", lit "/api/upload"]

/-- The address a host names, if it names one itself. -/
def inetAddress : Uri.Host → Option InetAddress
  | .ipv4 address => some (.inet4 address)
  | .ipv6 address => some (.ofBytes address)
  | .future _ => none
  | .regName _ => none

/-- The URL consists of the scheme, a host that is the address, the port and the
    path, and nothing else. -/
def PointsTo (url scheme : JString) (address : InetAddress) (port : Int) (path : JString) : Prop :=
  ∃ host n, Uri.parse url = some ⟨scheme, ⟨none, host, some n⟩, path, none, none⟩ ∧
    inetAddress host = some address ∧ (n : Int) = port

/-- Four decimal numbers without leading zeros, or an IPv6 address in brackets. -/
def IsUriHost (s : JString) : Prop :=
  (Reading.strict.ipv4 s).isSome ∨
    ∃ t, s = 91 :: t ++ [93] ∧ (Reading.strict.ipv6 t).isSome

/-- A unit that is no delimiter of the authority. -/
def inAuthority (u : UInt16) : Bool := Uri.noneOf (lit "/?#@") u

/-- The units of literals are no delimiters. -/
theorem inAuthority_of_literal {u : UInt16}
    (h : isHexDigit u = true ∨ u ∈ [46, 58, 91, 93]) : inAuthority u = true := by
  by_contra hdelimiter
  rw [inAuthority, Uri.noneOf, Bool.not_eq_true', Bool.not_eq_false, List.contains_iff_mem]
    at hdelimiter
  have hmem : u ∈ ([47, 63, 35, 64] : JString) := hdelimiter
  simp only [List.mem_cons, List.not_mem_nil, or_false] at hmem
  rcases hmem with rfl | rfl | rfl | rfl <;> exact absurd h (by decide)

theorem inAuthority_spec {u : UInt16} (h : inAuthority u = true) :
    Uri.noneOf (lit "/?#") u = true ∧ u ≠ 64 := by
  rw [inAuthority, Uri.noneOf, Bool.not_eq_true', ← Bool.not_eq_true, List.contains_iff_mem] at h
  rw [Uri.noneOf, Bool.not_eq_true', ← Bool.not_eq_true, List.contains_iff_mem]
  have hall : u ∉ ([47, 63, 35, 64] : JString) := h
  have hsome : u ∉ ([47, 63, 35] : JString) → u ∉ lit "/?#" := fun h => h
  refine ⟨hsome (fun hmem => hall ?_), fun hat => hall ?_⟩
  · exact List.mem_append_left [64] hmem
  · rw [hat]
    decide

/-- A path of letters and slashes ends where the text does. -/
theorem isPath_letters {p : JString} (h : ∀ u ∈ p, u = 47 ∨ Uri.isAlpha u = true) :
    Uri.isPath (47 :: p) = true ∧ ∀ u ∈ p, Uri.noneOf (lit "?#") u = true := by
  refine ⟨?_, fun u hu => ?_⟩
  · rw [Uri.isPath, List.head?_cons, decide_eq_true rfl, Bool.or_true, Bool.true_and]
    refine Uri.encoded_plain (fun u hu => ?_)
    have hletter : u = 47 ∨ Uri.isAlpha u = true := by
      rcases List.mem_cons.mp hu with rfl | hu
      · exact Or.inl rfl
      · exact h u hu
    -- A letter is `unreserved`, and so it is no percent sign.
    rcases hletter with rfl | halpha
    · decide
    · refine ⟨fun hpercent => ?_, ?_⟩
      · rw [hpercent] at halpha
        exact absurd halpha (by decide)
      · rw [Uri.isPchar, Uri.isUnreserved, halpha]
        rfl
  · by_contra hdelimiter
    rw [Uri.noneOf, Bool.not_eq_true', Bool.not_eq_false, List.contains_iff_mem] at hdelimiter
    have hmem : u ∈ ([63, 35] : JString) := hdelimiter
    simp only [List.mem_cons, List.not_mem_nil, or_false] at hmem
    rcases hmem with rfl | rfl <;> exact absurd (h _ hu) (by decide)

/-- A port may stand behind what may stand in an authority. -/
theorem inAuthority_port {s : JString} (h : ∀ u ∈ s, inAuthority u = true) (n : Nat) :
    ∀ u ∈ s ++ 58 :: lit (toString n), inAuthority u = true := by
  have hdigits : ∀ u ∈ lit (toString n), isDigit u = true := digits_all (readDecimal_toString n)
  intro u hu
  rcases List.mem_append.mp hu with hu | hu
  · exact h u hu
  · rcases List.mem_cons.mp hu with rfl | hu
    · rfl
    · exact inAuthority_of_literal (Or.inl (Reading.isHexDigit_of_isDigit (hdigits u hu)))

/-- `http` and `https` are schemes. -/
theorem isScheme_scheme {P : Platform} (c : Connector P) :
    Uri.isScheme c.scheme = true ∧ ∀ u ∈ c.scheme, u ≠ 58 := by
  have hno : ∀ {l : JString}, l.contains 58 = false → ∀ u ∈ l, u ≠ 58 := by
    intro l hl u hu hcolon
    rw [← hcolon, List.contains_iff_mem.mpr hu] at hl
    exact Bool.false_ne_true hl.symm
  unfold Connector.scheme
  cases c.isSSLEncryptEnabled with
  | false => exact ⟨rfl, hno rfl⟩
  | true => exact ⟨rfl, hno rfl⟩

/-- The endpoints are paths of letters and slashes. -/
theorem endpoint_letters {path : JString} (h : path ∈ endpoints) :
    ∃ p, path = 47 :: p ∧ ∀ u ∈ p, u = 47 ∨ Uri.isAlpha u = true := by
  have hletter : ∀ {l : JString}, l.all (fun u => u == 47 || Uri.isAlpha u) = true →
      ∀ u ∈ l, u = 47 ∨ Uri.isAlpha u = true := by
    intro l hl u hu
    have hunit := List.all_eq_true.mp hl u hu
    rw [Bool.or_eq_true, beq_iff_eq] at hunit
    exact hunit
  simp only [endpoints, List.mem_cons, List.not_mem_nil, or_false] at h
  rcases h with rfl | rfl
  · exact ⟨lit "api/send", rfl, hletter rfl⟩
  · exact ⟨lit "api/upload", rfl, hletter rfl⟩

/-- The components of the URL are those of its authority. -/
theorem parse_baseUrl {P : Platform} (c : Connector P) {s path : JString} {n : Nat}
    (hs : c.serverIp = some s) (hport : c.serverPort = n) (hpath : path ∈ endpoints)
    (hunits : ∀ u ∈ s, inAuthority u = true) :
    Uri.parse (c.baseUrl path)
      = (Uri.parseHost none (s ++ 58 :: lit (toString n))).map
        (fun a => ⟨c.scheme, a, path, none, none⟩) := by
  have hauthority := inAuthority_port hunits n
  have hurl : c.baseUrl path
      = c.scheme ++ lit "://" ++ (s ++ 58 :: lit (toString n)) ++ path := by
    rw [baseUrl, hs, hport, Connector.decimal, Connector.scheme]
    simp only [concat, Option.getD_some, List.append_assoc]
    rfl
  have hscheme := isScheme_scheme c
  rcases endpoint_letters hpath with ⟨p, rfl, hletters⟩
  -- What is accepted has no unit that ends the authority, nor an `@`.
  rw [hurl, Uri.parse_eq hscheme.1 hscheme.2
    (fun u hu => (inAuthority_spec (hauthority u hu)).1) (isPath_letters hletters).1
    (isPath_letters hletters).2,
    Uri.parseAuthority_bare (fun u hu => (inAuthority_spec (hauthority u hu)).2)]

/-- A URL points to an address when its authority is a host for it. -/
theorem pointsTo_iff {P : Platform} (c : Connector P) {s path : JString} {n : Nat}
    {address : InetAddress} (hs : c.serverIp = some s) (hport : c.serverPort = n)
    (hpath : path ∈ endpoints) (hunits : ∀ u ∈ s, inAuthority u = true) :
    PointsTo (c.baseUrl path) c.scheme address c.serverPort path ↔
      ∃ host, Uri.parseHost none (s ++ 58 :: lit (toString n)) = some ⟨none, host, some n⟩ ∧
        inetAddress host = some address := by
  rw [PointsTo, parse_baseUrl c hs hport hpath hunits, hport]
  constructor
  -- The port of the URL is the port that was put there.
  · rintro ⟨host, m, hparse, hhost, hm⟩
    rw [Option.map_eq_some_iff] at hparse
    rcases hparse with ⟨authority, hauthority, heq⟩
    simp only [Uri.mk.injEq, true_and, and_true] at heq
    rw [heq, Int.natCast_inj.mp hm] at hauthority
    exact ⟨host, hauthority, hhost⟩
  · rintro ⟨host, hparse, hhost⟩
    exact ⟨host, n, by rw [hparse]; rfl, hhost, rfl⟩

/-- An IPv4 address of a URI is read as that address. -/
theorem parseInet4_strict {s : JString} {a : BitVec 32} (h : Reading.strict.ipv4 s = some a) :
    parseInet4 s = some a := by
  have hbyValue := Reading.strict_le_byValue.ipv4 h
  rw [Reading.ipv4, Option.map_eq_some_iff] at hbyValue
  rcases hbyValue with ⟨l, hl, rfl⟩
  rw [Reading.quad, Option.filter_eq_some_iff, decide_eq_true_eq] at hl
  rcases hl with ⟨hread, hlen⟩
  have hdecimal : (s.splitOn 46).mapM readDecimal = some l :=
    mapM_le (fun h => (Option.filter_eq_some_iff.mp h).1) hread
  have hsmall : ∀ n ∈ l, n < 256 := by
    intro n hn
    rcases mapM_forall hread n hn with ⟨t, ht⟩
    exact of_decide_eq_true (Option.filter_eq_some_iff.mp ht).2
  rw [parseInet4, hdecimal, Option.bind_some]
  -- The last of four numbers fills the last byte.
  rcases List.eq_nil_or_concat' l with rfl | ⟨front, n, rfl⟩
  · exact absurd hlen (by decide)
  · rw [List.length_append, List.length_singleton] at hlen
    have hnumber : number 256 (front ++ [n]) = number 256 front * 256 + n := by
      rw [number, List.foldl_append, Nat.mul_comm]
      rfl
    rw [List.dropLast_concat, List.getLastD_concat, List.length_append, List.length_singleton,
      hlen, hnumber]
    refine if_pos ⟨Nat.le_refl 4, fun m hm => hsmall m (List.mem_append_left _ hm), ?_⟩
    exact hsmall n (List.mem_append_right _ List.mem_cons_self)

/-- The units of an IPv4 literal. -/
theorem parseInet4_units {s : JString} {a : BitVec 32} (h : parseInet4 s = some a) :
    s ≠ [] ∧ ∀ u ∈ s, isDigit u = true ∨ u = 46 := by
  rw [parseInet4, Option.bind_eq_some_iff] at h
  rcases h with ⟨l, hl, _⟩
  refine ⟨fun hnil => ?_, fun u hu => ?_⟩
  · rw [hnil] at hl
    cases hl
  · rcases mem_splitOn hu with hdot | ⟨t, ht, hut⟩
    · exact Or.inr hdot
    · rcases mapM_mem hl t ht with ⟨n, hn⟩
      exact Or.inl (digits_all hn u hut)

/-- A digit or a dot is no other mark of an address. -/
theorem not_mark {u v : UInt16} (h : isDigit u = true ∨ u = 46) (hv : v ∈ [58, 91, 93]) :
    u ≠ v := by
  rintro rfl
  simp only [List.mem_cons, List.not_mem_nil, or_false] at hv
  rcases hv with rfl | rfl | rfl <;> exact absurd h (by decide)

/-- A literal is an IPv6 address, or has a zone. -/
theorem parseInet6_cases {zones : JString → Bool} {s : JString} {address : InetAddress}
    (h : parseInet6 zones s = some address) :
    (∃ a, Reading.byValue.ipv6 s = some a ∧ address = .ofBytes a) ∨
      ∃ a zone, address = .inet6 a (some zone) := by
  rw [parseInet6, Option.bind_eq_some_iff] at h
  rcases h with ⟨a, ha, h⟩
  cases hrest : s.dropWhile (fun u => decide (u ≠ 37)) with
  | nil =>
      -- Without a `%` the text is the address as a whole.
      rw [hrest] at h
      cases h
      rw [(Uri.takeWhile_whole (List.dropWhile_eq_nil_iff.mp hrest)).1] at ha
      exact Or.inl ⟨a, ha, rfl⟩
  | cons u zone =>
      rw [hrest] at h
      right
      cases hbytes : InetAddress.ofBytes a with
      -- An address that is mapped to an IPv4 address has no zone.
      | inet4 b =>
          simp only [hbytes, reduceCtorEq] at h
      | inet6 b z =>
          simp only [hbytes, Option.ite_none_right_eq_some] at h
          cases h.2
          exact ⟨b, zone, rfl⟩

/-- An IPv6 address of a URI is read as that address. -/
theorem parseInet6_strict (zones : JString → Bool) {s : JString} {a : BitVec 128}
    (h : Reading.strict.ipv6 s = some a) : parseInet6 zones s = some (.ofBytes a) := by
  have hwhole := Uri.takeWhile_whole (p := fun u => decide (u ≠ 37)) (s := s) (fun u hu => by
    refine decide_eq_true (fun hpercent => ?_)
    have hunit := Reading.ipv6_mem h u hu
    rw [hpercent] at hunit
    exact absurd hunit (by decide))
  rw [parseInet6, hwhole.1, hwhole.2, Reading.strict_le_byValue.ipv6 h]
  rfl

/-- What a text is read as: an IPv4 address; an IPv6 address without or with
    brackets; or one with a zone. -/
theorem getByName_cases {zones : JString → Bool} {s : JString} {address : InetAddress}
    (h : getByName zones s = some address) :
    (∃ a, parseInet4 s = some a ∧ address = .inet4 a) ∨
    (s.head? ≠ some 91 ∧ ∃ a, Reading.byValue.ipv6 s = some a) ∨
    (∃ t a, s = 91 :: t ++ [93] ∧ Reading.byValue.ipv6 t = some a ∧ address = .ofBytes a) ∨
    ∃ a zone, address = .inet6 a (some zone) := by
  rw [getByName] at h
  -- Brackets are taken off first; without them the dotted form is tried first.
  by_cases hbracket : s.head? = some 91
  · rw [if_pos hbracket, Option.ite_none_right_eq_some] at h
    rcases h with ⟨hlast, h⟩
    rcases parseInet6_cases h with ⟨a, ha, haddress⟩ | hzone
    · refine Or.inr (Or.inr (Or.inl ⟨s.tail.dropLast, a, ?_, ha, haddress⟩))
      rcases List.head?_eq_some_iff.mp hbracket with ⟨t, rfl⟩
      exact congrArg (List.cons 91) (List.dropLast_append_getLast? 93 hlast).symm
    · exact Or.inr (Or.inr (Or.inr hzone))
  · rw [if_neg hbracket] at h
    cases hinet4 : parseInet4 s with
    | some a =>
        simp only [hinet4] at h
        cases h
        exact Or.inl ⟨a, rfl, rfl⟩
    | none =>
        simp only [hinet4] at h
        rcases parseInet6_cases h with ⟨a, ha, _⟩ | hzone
        · exact Or.inr (Or.inl ⟨hbracket, a, ha⟩)
        · exact Or.inr (Or.inr (Or.inr hzone))

/-- The units of an address without a zone do not end the authority. -/
theorem inAuthority_inet6 {s : JString} {a : BitVec 128} (h : Reading.byValue.ipv6 s = some a) :
    ∀ u ∈ s, inAuthority u = true := by
  intro u hu
  rcases Reading.ipv6_mem h u hu with hhex | hdot | hcolon
  · exact inAuthority_of_literal (Or.inl hhex)
  · exact inAuthority_of_literal (Or.inr (by rw [hdot]; decide))
  · exact inAuthority_of_literal (Or.inr (by rw [hcolon]; decide))

theorem inAuthority_inet4 {s : JString} {a : BitVec 32} (h : parseInet4 s = some a) :
    ∀ u ∈ s, inAuthority u = true := by
  intro u hu
  rcases (parseInet4_units h).2 u hu with hdigit | hdot
  · exact inAuthority_of_literal (Or.inl (Reading.isHexDigit_of_isDigit hdigit))
  · exact inAuthority_of_literal (Or.inr (by rw [hdot]; decide))

theorem inAuthority_brackets {s : JString} {a : BitVec 128}
    (h : Reading.byValue.ipv6 s = some a) : ∀ u ∈ 91 :: s ++ [93], inAuthority u = true := by
  intro u hu
  simp only [List.cons_append, List.mem_cons, List.mem_append, List.not_mem_nil, or_false] at hu
  rcases hu with rfl | hu | rfl
  · exact inAuthority_of_literal (Or.inr (by decide))
  · exact inAuthority_inet6 h u hu
  · exact inAuthority_of_literal (Or.inr (by decide))

/-- An address with a zone is no host's. -/
theorem inetAddress_zone {host : Uri.Host} {a : BitVec 128} {zone : JString} :
    inetAddress host ≠ some (.inet6 a (some zone)) := by
  intro h
  cases host with
  | ipv4 b => cases h
  | ipv6 b =>
      rw [inetAddress, InetAddress.ofBytes] at h
      split at h <;> cases h
  | future text => cases h
  | regName name => cases h

/-- Four numbers, read as a host. -/
theorem parseHost_inet4 {s : JString} {a : BitVec 32} (h : parseInet4 s = some a) (n : Nat) :
    (∃ host, Uri.parseHost none (s ++ 58 :: lit (toString n)) = some ⟨none, host, some n⟩ ∧
      inetAddress host = some (.inet4 a)) ↔ (Reading.strict.ipv4 s).isSome := by
  rcases parseInet4_units h with ⟨hne, hunits⟩
  have hbracket : s.head? ≠ some 91 := fun hhead =>
    not_mark (hunits 91 (List.mem_of_head? hhead)) (by decide) rfl
  rw [Uri.parseHost_name hbracket hne (fun u hu => not_mark (hunits u hu) (by decide)),
    Uri.parseName]
  cases hstrict : Reading.strict.ipv4 s with
  | some b =>
      -- There is one reading only.
      have hsame := parseInet4_strict hstrict
      rw [h] at hsame
      cases hsame
      exact ⟨fun _ => rfl, fun _ => ⟨.ipv4 a, rfl, rfl⟩⟩
  | none =>
      -- Then the host is a name, which is looked up and is no address.
      refine ⟨?_, fun hsome => absurd hsome Bool.false_ne_true⟩
      rintro ⟨host, hparse, haddress⟩
      simp only [Option.map_eq_some_iff, Option.ite_none_right_eq_some] at hparse
      rcases hparse with ⟨_, ⟨_, hname⟩, heq⟩
      cases hname
      cases heq
      cases haddress

/-- An address in brackets, read as a host. -/
theorem parseHost_brackets {s : JString} {a : BitVec 128} (h : Reading.byValue.ipv6 s = some a)
    (n : Nat) :
    (∃ host, Uri.parseHost none (91 :: s ++ [93] ++ 58 :: lit (toString n))
        = some ⟨none, host, some n⟩ ∧ inetAddress host = some (.ofBytes a)) ↔
      (Reading.strict.ipv6 s).isSome := by
  have hunits : ∀ u ∈ s, u ≠ 93 := by
    rintro u hu rfl
    exact absurd (Reading.ipv6_mem h 93 hu) (by decide)
  rw [List.append_assoc, List.singleton_append, Uri.parseHost_literal hunits, Uri.parseLiteral]
  cases hstrict : Reading.strict.ipv6 s with
  | some b =>
      -- There is one reading of it, too.
      have hsame := Reading.strict_le_byValue.ipv6 hstrict
      rw [h] at hsame
      cases hsame
      exact ⟨fun _ => rfl, fun _ => ⟨.ipv6 a, rfl, rfl⟩⟩
  | none =>
      refine ⟨?_, fun hsome => absurd hsome Bool.false_ne_true⟩
      rintro ⟨host, hparse, haddress⟩
      simp only [Option.map_eq_some_iff, Option.ite_none_right_eq_some] at hparse
      rcases hparse with ⟨_, ⟨_, hfuture⟩, heq⟩
      cases hfuture
      cases heq
      cases haddress

/-- What a host is written as decides what it is read as. -/
theorem getByName_isUriHost (zones : JString → Bool) {s : JString} (h : IsUriHost s) :
    (∃ a, Reading.strict.ipv4 s = some a ∧ getByName zones s = some (.inet4 a)) ∨
    (∃ t a, s = 91 :: t ++ [93] ∧ Reading.strict.ipv6 t = some a ∧
      getByName zones s = some (.ofBytes a)) := by
  -- A host of a URI is dotted, or it is in brackets.
  rcases h with hstrict | ⟨t, rfl, hstrict⟩
  · rcases Option.isSome_iff_exists.mp hstrict with ⟨a, ha⟩
    have hinet4 := parseInet4_strict ha
    have hbracket : s.head? ≠ some 91 := fun hhead =>
      not_mark ((parseInet4_units hinet4).2 91 (List.mem_of_head? hhead)) (by decide) rfl
    refine Or.inl ⟨a, ha, ?_⟩
    rw [getByName, if_neg hbracket, hinet4]
  · rcases Option.isSome_iff_exists.mp hstrict with ⟨a, ha⟩
    refine Or.inr ⟨t, a, rfl, ha, ?_⟩
    have hhead : (91 :: t ++ [93]).head? = some 91 := rfl
    rw [getByName, if_pos hhead, List.cons_append, List.tail_cons, List.getLast?_concat,
      if_pos rfl, List.dropLast_concat]
    exact parseInet6_strict zones ha

/-- For every literal that is accepted as an address of a family, whatever zones
    there are, every port, scheme and endpoint: the URL has that address as its
    host exactly when the literal is written as a URI has it. -/
theorem baseUrl_pointsTo_iff {P : Platform} (c : Connector P) (zones : JString → Bool)
    {s path : JString} (version : IPVersion) (hs : c.serverIp = some s)
    (haccepted : isValidInetAddress ((getByName zones s).map InetAddress.version) version = true)
    (hport : 1 ≤ c.serverPort ∧ c.serverPort ≤ 65535) (hpath : path ∈ endpoints) :
    (∃ address, getByName zones s = some address ∧
      PointsTo (c.baseUrl path) c.scheme address c.serverPort path) ↔ IsUriHost s := by
  rcases Int.eq_ofNat_of_zero_le (Int.le_trans (by decide) hport.1) with ⟨n, hn⟩
  constructor
  · rintro ⟨address, haddress, hpoints⟩
    rcases getByName_cases haddress with ⟨a, ha, rfl⟩ | ⟨hbracket, a, ha⟩ | ⟨t, a, rfl, ha, rfl⟩ |
      ⟨a, zone, rfl⟩
    · rw [pointsTo_iff c hs hn hpath (inAuthority_inet4 ha)] at hpoints
      exact Or.inl ((parseHost_inet4 ha n).mp hpoints)
    -- The first of its colons is taken for the port's.
    · rw [pointsTo_iff c hs hn hpath (inAuthority_inet6 ha)] at hpoints
      rcases hpoints with ⟨host, hparse, _⟩
      rw [Uri.parseHost_colons hbracket (Reading.ipv6_colon ha)] at hparse
      cases hparse
    · rw [pointsTo_iff c hs hn hpath (inAuthority_brackets ha)] at hpoints
      exact Or.inr ⟨t, rfl, (parseHost_brackets ha n).mp hpoints⟩
    · rcases hpoints with ⟨host, _, _, hhost, _⟩
      exact absurd hhost inetAddress_zone
  · intro h
    rcases getByName_isUriHost zones h with ⟨a, ha, hname⟩ | ⟨t, a, rfl, ha, hname⟩
    · have hinet4 := parseInet4_strict ha
      refine ⟨_, hname, (pointsTo_iff c hs hn hpath (inAuthority_inet4 hinet4)).mpr ?_⟩
      exact (parseHost_inet4 hinet4 n).mpr (Option.isSome_iff_exists.mpr ⟨a, ha⟩)
    · have hinet6 := Reading.strict_le_byValue.ipv6 ha
      refine ⟨_, hname, (pointsTo_iff c hs hn hpath (inAuthority_brackets hinet6)).mpr ?_⟩
      exact (parseHost_brackets hinet6 n).mpr (Option.isSome_iff_exists.mpr ⟨a, ha⟩)

/-- A new connector with this address. -/
def connectorTo (serverIp : JString) : Connector pinningPlatform :=
  { Connector.new with serverIp := some serverIp }

/-- An IPv4 address as it is usually written is accepted, and the URL has it. -/
theorem baseUrl_pointsTo_usual :
    isValidInetAddress ((getByName (fun _ => false) (lit "10.0.0.1")).map InetAddress.version) .ipv4
      = true ∧
    ((∃ address, getByName (fun _ => false) (lit "10.0.0.1") = some address ∧
      PointsTo ((connectorTo (lit "10.0.0.1")).baseUrl (lit "/api/send"))
        (connectorTo (lit "10.0.0.1")).scheme address 5000 (lit "/api/send")) ↔
      IsUriHost (lit "10.0.0.1")) :=
  ⟨by decide, baseUrl_pointsTo_iff (connectorTo (lit "10.0.0.1")) (fun _ => false) .ipv4 rfl
    (by decide) (by decide) (by decide)⟩

/-- An IPv6 address as it is usually written is accepted, and what comes of it is no
    URL. -/
theorem baseUrl_loopback : ¬ ∀ (P : Platform) (c : Connector P) (zones : JString → Bool)
    (s path : JString) (version : IPVersion), c.serverIp = some s →
    isValidInetAddress ((getByName zones s).map InetAddress.version) version = true →
    1 ≤ c.serverPort ∧ c.serverPort ≤ 65535 → path ∈ endpoints →
    ∃ address, getByName zones s = some address ∧
      PointsTo (c.baseUrl path) c.scheme address c.serverPort path := by
  intro h
  have hread : Reading.byValue.ipv6 (lit "::1") = some 1 := by decide
  rcases h pinningPlatform (connectorTo (lit "::1")) (fun _ => false) (lit "::1")
    (lit "/api/send") .ipv6 rfl (by decide) (by decide) (by decide) with ⟨address, _, hpoints⟩
  rw [pointsTo_iff (n := 5000) _ rfl rfl (by decide) (inAuthority_inet6 hread)] at hpoints
  rcases hpoints with ⟨host, hparse, _⟩
  -- The colons of the address are not in brackets, so no host can be read.
  rw [Uri.parseHost_colons (by decide) (Reading.ipv6_colon hread)] at hparse
  cases hparse

end Client

end SendingSystem
