import Mathlib.Algebra.Group.Nat.Defs
import Mathlib.Data.List.Induction
import SendingSystem.Lib.Utf16

/-!
# IP addresses in text

The textual forms of IP addresses: four numbers with dots between them, and eight
hexadecimal pieces with colons, where `::` stands for the zeros that are left out
and the last two pieces may be written as four numbers with dots.

Readers differ in which numbers they take. A URI has numbers without leading
zeros and pieces of at most four digits; other readers go by the value. So the
forms are read with a `Reading`, and a reading that takes less than another gives
the same addresses where it takes a text.

## Main definitions

* `readDecimal`, `readHexadecimal`: The number some digits write.
* `Reading`: Which texts are numbers of an address.
* `Reading.strict`, `Reading.byValue`: The two readings.
* `Reading.ipv4`, `Reading.ipv6`: The address a text writes.

## Theorems

* `readDecimal_toString`: A number is written in its decimal digits.
* `Reading.quad_mem`, `Reading.ipv6_mem`: What an address consists of.
* `Reading.ipv6_colon`: An IPv6 address has a colon.
* `Reading.Le.ipv4`, `Reading.Le.ipv6`: More lenient readings agree.
-/

namespace SendingSystem

namespace IpText

open Utf16

/-- `0` to `9`. -/
def isDigit (u : UInt16) : Bool := 48 ≤ u && u < 58

/-- A digit of a hexadecimal number. -/
def isHexDigit (u : UInt16) : Bool := isDigit u || (65 ≤ u && u < 71) || (97 ≤ u && u < 103)

/-- The value of a digit. -/
def digitValue (u : UInt16) : Nat :=
  if u < 58 then u.toNat - 48 else if u < 71 then u.toNat - 55 else u.toNat - 87

/-- The number with these digits, the highest first. -/
def number (base : Nat) (l : List Nat) : Nat := l.foldl (fun n d => base * n + d) 0

/-- A text of one digit or more. -/
def digits (digit : UInt16 → Bool) (base : Nat) (s : JString) : Option Nat :=
  if s ≠ [] ∧ s.all digit then some (number base (s.map digitValue)) else none

/-- A decimal number. -/
def readDecimal (s : JString) : Option Nat := digits isDigit 10 s

/-- A hexadecimal number. -/
def readHexadecimal (s : JString) : Option Nat := digits isHexDigit 16 s

theorem digits_all {digit : UInt16 → Bool} {base n : Nat} {s : JString}
    (h : digits digit base s = some n) : ∀ u ∈ s, digit u = true := by
  rw [digits, Option.ite_none_right_eq_some] at h
  exact List.all_eq_true.mp h.1.2

theorem digits_ne_nil {digit : UInt16 → Bool} {base n : Nat} {s : JString}
    (h : digits digit base s = some n) : s ≠ [] := by
  rw [digits, Option.ite_none_right_eq_some] at h
  exact h.1.1

/-- Every further digit is another factor of the base. -/
theorem number_lt {base : Nat} {l : List Nat} (h : ∀ d ∈ l, d < base) :
    number base l < base ^ l.length := by
  -- The last digit is the lowest: the number is the rest times the base and less than a
  -- base.
  induction l using List.reverseRecOn with
  | nil => exact Nat.one_pos
  | append_singleton l d ih =>
      have hl := ih (fun e he => h e (List.mem_append_left _ he))
      have hd := h d (List.mem_append_right _ List.mem_cons_self)
      rw [number, List.foldl_append, List.length_append, List.length_singleton, Nat.pow_succ]
      calc base * number base l + d < base * (number base l + 1) := by
            rw [Nat.mul_succ]
            omega
        _ ≤ base * base ^ l.length := Nat.mul_le_mul_left base hl
        _ = base ^ l.length * base := Nat.mul_comm _ _

theorem digitValue_lt {u : UInt16} (h : isHexDigit u = true) : digitValue u < 16 := by
  have hto : ∀ n : UInt16, u < n ↔ u.toNat < n.toNat := fun _ => UInt16.lt_iff_toNat_lt
  have hle : ∀ n : UInt16, n ≤ u ↔ n.toNat ≤ u.toNat := fun _ => UInt16.le_iff_toNat_le
  rw [isHexDigit, isDigit] at h
  simp only [Bool.or_eq_true, Bool.and_eq_true, decide_eq_true_eq, hto, hle] at h
  rw [digitValue]
  simp only [hto]
  simp only [UInt16.reduceToNat] at h ⊢
  split
  · omega
  · split <;> omega

/-- The unit of a decimal digit. -/
theorem isDigit_lit {c : Char} (h : c.isDigit = true) :
    isDigit c.toNat.toUInt16 = true ∧ digitValue c.toNat.toUInt16 = c.toNat - '0'.toNat := by
  have hrange : 48 ≤ c.toNat ∧ c.toNat ≤ 57 := by
    rw [Char.isDigit, Bool.and_eq_true, decide_eq_true_eq, decide_eq_true_eq] at h
    exact h
  have hunit : c.toNat.toUInt16.toNat = c.toNat := by
    rw [Nat.toUInt16_eq, UInt16.toNat_ofNat']
    exact Nat.mod_eq_of_lt (by omega)
  have hlow : (48 : UInt16).toNat = 48 := rfl
  have hhigh : (58 : UInt16).toNat = 58 := rfl
  have hlt : c.toNat.toUInt16 < 58 := by
    rw [UInt16.lt_iff_toNat_lt]
    omega
  have hle : 48 ≤ c.toNat.toUInt16 := by
    rw [UInt16.le_iff_toNat_le]
    omega
  -- Both are the code point less that of `0`.
  refine ⟨by rw [isDigit, decide_eq_true hle, decide_eq_true hlt]; rfl, ?_⟩
  rw [digitValue, if_pos hlt, hunit]
  rfl

/-- A number is read back from its decimal digits. -/
theorem readDecimal_toString (n : Nat) : readDecimal (lit (toString n)) = some n := by
  have hdigits : ∀ c ∈ Nat.toDigits 10 n, c.isDigit = true :=
    fun c hc => Nat.isDigit_of_mem_toDigits (by omega) (by omega) hc
  have hvalue : ∀ (l : List Char), (∀ c ∈ l, c.isDigit = true) → ∀ m,
      ((l.map (fun c => c.toNat.toUInt16)).map digitValue).foldl (fun n d => 10 * n + d) m
        = Nat.ofDigitChars 10 l m := by
    intro l
    induction l with
    | nil => exact fun _ m => rfl
    | cons c l ih =>
        intro hl m
        rw [List.map_cons, List.map_cons, List.foldl_cons, Nat.ofDigitChars_cons,
          (isDigit_lit (hl c List.mem_cons_self)).2]
        exact ih (fun d hd => hl d (List.mem_cons_of_mem c hd)) _
  -- Reading the units is folding the digit characters, which gives the number.
  rw [Nat.toString_eq_repr, lit, Nat.toList_repr, readDecimal, digits, if_pos]
  · exact congrArg some ((hvalue _ hdigits 0).trans Nat.ofDigitChars_ten_toDigits)
  · refine ⟨fun hnil => Nat.toDigits_ne_nil (List.map_eq_nil_iff.mp hnil), ?_⟩
    rw [List.all_map, List.all_eq_true]
    exact fun c hc => (isDigit_lit (hdigits c hc)).1

/-- Which texts are numbers of an address: a byte in decimal, 16 bits in
    hexadecimal digits. -/
structure Reading where
  octet : JString → Option Nat
  piece : JString → Option Nat
  octet_digits : ∀ {s n}, octet s = some n → ∀ u ∈ s, isDigit u = true
  piece_digits : ∀ {s n}, piece s = some n → ∀ u ∈ s, isHexDigit u = true

/-- `dec-octet` and `h16`: no leading zeros, and at most four digits. -/
def Reading.strict : Reading where
  octet s := if s.head? = some 48 ∧ s ≠ [48] then none else (readDecimal s).filter (· < 256)
  piece s := if s.length ≤ 4 then readHexadecimal s else none
  octet_digits h := by
    rw [Option.ite_none_left_eq_some, Option.filter_eq_some_iff] at h
    exact digits_all h.2.1
  piece_digits h := by
    rw [Option.ite_none_right_eq_some] at h
    exact digits_all h.2

/-- Numbers by their value, however many zeros are in front. -/
def Reading.byValue : Reading where
  octet s := (readDecimal s).filter (· < 256)
  piece s := (readHexadecimal s).filter (· < 65536)
  octet_digits h := digits_all (Option.filter_eq_some_iff.mp h).1
  piece_digits h := digits_all (Option.filter_eq_some_iff.mp h).1

/-- Four numbers with dots between them. -/
def Reading.quad (r : Reading) (s : JString) : Option (List Nat) :=
  ((s.splitOn 46).mapM r.octet).filter (fun l => l.length = 4)

/-- An IPv4 address. -/
def Reading.ipv4 (r : Reading) (s : JString) : Option (BitVec 32) :=
  (r.quad s).map (fun l => BitVec.ofNat 32 (number 256 l))

/-- The pieces of an address, the last two perhaps as an IPv4 address. -/
def Reading.pieces (r : Reading) : List JString → Option (List Nat)
  | [] => some []
  | [s] =>
    if 46 ∈ s then
      (r.quad s).map (fun l => [number 256 (l.take 2), number 256 (l.drop 2)])
    else (r.piece s).map (fun n => [n])
  | s :: l => (r.piece s).bind (fun n => (r.pieces l).map (fun m => n :: m))

/-- The texts before and after the first `::`. -/
def splitDouble : JString → Option (JString × JString)
  | [] => none
  | u :: s =>
    if u = 58 ∧ s.head? = some 58 then some ([], s.tail)
    else (splitDouble s).map (fun p => (u :: p.1, p.2))

/-- An IPv6 address. -/
def Reading.ipv6 (r : Reading) (s : JString) : Option (BitVec 128) :=
  match splitDouble s with
  | none =>
    ((r.pieces (s.splitOn 58)).filter (fun l => l.length = 8)).map
      (fun l => BitVec.ofNat 128 (number 65536 l))
  | some (left, right) =>
    let before := if left = [] then some [] else (left.splitOn 58).mapM r.piece
    let after := if right = [] then some [] else r.pieces (right.splitOn 58)
    before.bind (fun l => after.bind (fun m =>
      if l.length + m.length < 8 then
        some (BitVec.ofNat 128
          (number 65536 (l ++ List.replicate (8 - l.length - m.length) 0 ++ m)))
      else none))

/-- A unit of a text is the separator or in one of the parts. -/
theorem mem_splitOn {x u : UInt16} {s : JString} (h : u ∈ s) :
    u = x ∨ ∃ t ∈ s.splitOn x, u ∈ t := by
  have hmem : ∀ l : List JString, u ∈ [x].intercalate l → u = x ∨ ∃ t ∈ l, u ∈ t := by
    intro l
    induction l with
    | nil => exact fun h => absurd h List.not_mem_nil
    | cons t l ih =>
        intro h
        cases l with
        | nil =>
            rw [List.intercalate_singleton] at h
            exact Or.inr ⟨t, List.mem_cons_self, h⟩
        | cons t' l =>
            rw [List.intercalate_cons_cons, List.mem_append, List.mem_append,
              List.mem_singleton] at h
            rcases h with (h | h) | h
            · exact Or.inr ⟨t, List.mem_cons_self, h⟩
            · exact Or.inl h
            · rcases ih h with h | ⟨t'', ht'', hu⟩
              · exact Or.inl h
              · exact Or.inr ⟨t'', List.mem_cons_of_mem t ht'', hu⟩
  -- The parts with the separator between them are the text again.
  have hparts : [x].intercalate (s.splitOn x) = s := List.intercalate_splitOn x
  rw [← hparts] at h
  exact hmem _ h

/-- What is read one by one is read each. -/
theorem mapM_mem {read : JString → Option Nat} : ∀ {l : List JString} {m : List Nat},
    l.mapM read = some m → ∀ s ∈ l, ∃ n, read s = some n := by
  intro l
  induction l with
  | nil => exact fun _ s hs => absurd hs List.not_mem_nil
  | cons t l ih =>
      intro m h s hs
      simp only [List.mapM_cons, Option.bind_eq_bind, Option.pure_def, Option.bind_eq_some_iff] at h
      rcases h with ⟨n, hn, m', hm', _⟩
      rcases List.mem_cons.mp hs with rfl | hs
      · exact ⟨n, hn⟩
      · exact ih hm' s hs

/-- Every number was read. -/
theorem mapM_forall {read : JString → Option Nat} : ∀ {l : List JString} {m : List Nat},
    l.mapM read = some m → ∀ n ∈ m, ∃ s, read s = some n := by
  intro l
  induction l with
  | nil =>
      intro m h n hn
      cases h
      exact absurd hn List.not_mem_nil
  | cons t l ih =>
      intro m h n hn
      simp only [List.mapM_cons, Option.bind_eq_bind, Option.pure_def, Option.bind_eq_some_iff,
        Option.some.injEq] at h
      rcases h with ⟨n', hn', m', hm', rfl⟩
      rcases List.mem_cons.mp hn with rfl | hn
      · exact ⟨t, hn'⟩
      · exact ih hm' n hn

/-- A reader that takes more reads the same. -/
theorem mapM_le {read read' : JString → Option Nat}
    (hle : ∀ {s n}, read s = some n → read' s = some n) : ∀ {l : List JString} {m : List Nat},
    l.mapM read = some m → l.mapM read' = some m := by
  intro l
  induction l with
  | nil => exact fun h => h
  | cons t l ih =>
      intro m h
      simp only [List.mapM_cons, Option.bind_eq_bind, Option.pure_def,
        Option.bind_eq_some_iff] at h ⊢
      rcases h with ⟨n, hn, m', hm', hm⟩
      exact ⟨n, hle hn, m', ih hm', hm⟩

namespace Reading

variable {r : Reading} {s : JString}

theorem quad_mem {l : List Nat} (h : r.quad s = some l) :
    ∀ u ∈ s, isDigit u = true ∨ u = 46 := by
  intro u hu
  rw [quad, Option.filter_eq_some_iff] at h
  rcases mem_splitOn hu with hdot | ⟨t, ht, hut⟩
  · exact Or.inr hdot
  · rcases mapM_mem h.1 t ht with ⟨n, hn⟩
    exact Or.inl (r.octet_digits hn u hut)

theorem isHexDigit_of_isDigit {u : UInt16} (h : isDigit u = true) : isHexDigit u = true := by
  rw [isHexDigit, h]
  rfl

theorem pieces_mem : ∀ {l : List JString} {m : List Nat}, r.pieces l = some m →
    ∀ s ∈ l, ∀ u ∈ s, isHexDigit u = true ∨ u = 46 := by
  intro l
  induction l with
  | nil => exact fun _ s hs => absurd hs List.not_mem_nil
  | cons t l ih =>
      intro m h s hs u hu
      -- Only the last piece may have the dotted form.
      cases l with
      | nil =>
          rw [List.mem_singleton] at hs
          subst hs
          rw [pieces] at h
          by_cases hdot : (46 : UInt16) ∈ s
          · rw [if_pos hdot, Option.map_eq_some_iff] at h
            rcases h with ⟨q, hq, _⟩
            exact (quad_mem hq u hu).imp_left isHexDigit_of_isDigit
          · rw [if_neg hdot, Option.map_eq_some_iff] at h
            rcases h with ⟨n, hn, _⟩
            exact Or.inl (r.piece_digits hn u hu)
      | cons t' l =>
          rw [pieces, Option.bind_eq_some_iff] at h
          rcases h with ⟨n, hn, h⟩
          rw [Option.map_eq_some_iff] at h
          rcases h with ⟨m', hm', _⟩
          rcases List.mem_cons.mp hs with rfl | hs
          · exact Or.inl (r.piece_digits hn u hu)
          · exact ih hm' s hs u hu
          · exact fun h => by cases h

/-- Both sides and the `::` between them are the text. -/
theorem splitDouble_eq : ∀ {s left right : JString}, splitDouble s = some (left, right) →
    s = left ++ 58 :: 58 :: right := by
  intro s
  induction s with
  | nil => exact fun h => by cases h
  | cons u s ih =>
      intro left right h
      rw [splitDouble] at h
      -- The split is at the first two colons in a row.
      by_cases hdouble : u = 58 ∧ s.head? = some 58
      · rw [if_pos hdouble] at h
        cases h
        rcases hdouble with ⟨rfl, hhead⟩
        rcases List.head?_eq_some_iff.mp hhead with ⟨s', rfl⟩
        rfl
      · rw [if_neg hdouble, Option.map_eq_some_iff] at h
        rcases h with ⟨⟨left', right'⟩, hsplit, heq⟩
        cases heq
        rw [ih hsplit]
        rfl

/-- Nothing, or read in pieces. -/
theorem side_mem {f : List JString → Option (List Nat)}
    (hread : ∀ {l m}, f l = some m → ∀ t ∈ l, ∀ u ∈ t, isHexDigit u = true ∨ u = 46)
    {m : List Nat} (h : (if s = [] then some [] else f (s.splitOn 58)) = some m) :
    ∀ u ∈ s, isHexDigit u = true ∨ u = 46 ∨ u = 58 := by
  intro u hu
  rw [if_neg (List.ne_nil_of_mem hu)] at h
  rcases mem_splitOn hu with hcolon | ⟨t, ht, hut⟩
  · exact Or.inr (Or.inr hcolon)
  · exact (hread h t ht u hut).imp_right Or.inl

/-- An IPv6 address consists of hexadecimal digits, dots and colons. -/
theorem ipv6_mem {a : BitVec 128} (h : r.ipv6 s = some a) :
    ∀ u ∈ s, isHexDigit u = true ∨ u = 46 ∨ u = 58 := by
  unfold ipv6 at h
  -- Without a double colon it is eight pieces, with one it is two sides.
  cases hsplit : splitDouble s with
  | none =>
      simp only [hsplit, Option.map_eq_some_iff, Option.filter_eq_some_iff] at h
      rcases h with ⟨l, ⟨hl, _⟩, _⟩
      intro u hu
      rcases mem_splitOn hu with hcolon | ⟨t, ht, hut⟩
      · exact Or.inr (Or.inr hcolon)
      · exact (pieces_mem hl t ht u hut).imp_right Or.inl
  | some sides =>
      rcases sides with ⟨left, right⟩
      simp only [hsplit, Option.bind_eq_some_iff] at h
      rcases h with ⟨l, hl, m, hm, _⟩
      intro u hu
      rw [splitDouble_eq hsplit] at hu
      rcases List.mem_append.mp hu with hu | hu
      · exact side_mem (f := fun l => l.mapM r.piece)
          (fun h t ht u hu => Or.inl (r.piece_digits (mapM_mem h t ht).choose_spec u hu)) hl u hu
      · rcases List.mem_cons.mp hu with hu | hu
        · exact Or.inr (Or.inr hu)
        · rcases List.mem_cons.mp hu with hu | hu
          · exact Or.inr (Or.inr hu)
          · exact side_mem (f := r.pieces) pieces_mem hm u hu

/-- An IPv6 address has a colon. -/
theorem ipv6_colon {a : BitVec 128} (h : r.ipv6 s = some a) : 58 ∈ s := by
  by_contra hcolon
  unfold ipv6 at h
  cases hsplit : splitDouble s with
  | none =>
      -- All of it would be one piece, or one IPv4 address.
      simp only [hsplit, Option.map_eq_some_iff, Option.filter_eq_some_iff] at h
      rcases h with ⟨l, ⟨hl, hlen⟩, _⟩
      rw [List.splitOn_eq_singleton hcolon, pieces] at hl
      have hshort : l.length ≤ 2 := by
        by_cases hdot : (46 : UInt16) ∈ s
        · rw [if_pos hdot, Option.map_eq_some_iff] at hl
          rcases hl with ⟨q, _, rfl⟩
          exact Nat.le_refl 2
        · rw [if_neg hdot, Option.map_eq_some_iff] at hl
          rcases hl with ⟨n, _, rfl⟩
          exact Nat.le_succ 1
      rw [decide_eq_true_eq] at hlen
      omega
  | some sides =>
      refine hcolon ?_
      rw [splitDouble_eq hsplit]
      exact List.mem_append_right _ List.mem_cons_self

/-- One reading takes what the other takes, and reads it the same. -/
structure Le (r r' : Reading) : Prop where
  octet : ∀ {s n}, r.octet s = some n → r'.octet s = some n
  piece : ∀ {s n}, r.piece s = some n → r'.piece s = some n

/-- Four digits write at most 16 bits. -/
theorem strict_le_byValue : strict.Le byValue where
  octet h := (Option.ite_none_left_eq_some.mp h).2
  piece {s n} h := by
    rcases Option.ite_none_right_eq_some.mp h with ⟨hlen, hn⟩
    refine Option.filter_eq_some_iff.mpr ⟨hn, ?_⟩
    rw [readHexadecimal, digits, Option.ite_none_right_eq_some] at hn
    rcases hn with ⟨⟨_, hall⟩, hnumber⟩
    cases hnumber
    rw [decide_eq_true_eq]
    -- A digit is less than the base, so four of them are less than `16 ^ 4`.
    have hlt : number 16 (s.map digitValue) < 16 ^ (s.map digitValue).length := by
      refine number_lt (fun d hd => ?_)
      rcases List.mem_map.mp hd with ⟨u, hu, rfl⟩
      exact digitValue_lt (List.all_eq_true.mp hall u hu)
    rw [List.length_map] at hlt
    exact Nat.lt_of_lt_of_le hlt (Nat.pow_le_pow_right (by omega) hlen)

variable {r' : Reading}

theorem Le.quad (hle : r.Le r') {l : List Nat} (h : r.quad s = some l) : r'.quad s = some l := by
  rw [Reading.quad, Option.filter_eq_some_iff] at h ⊢
  exact ⟨mapM_le hle.octet h.1, h.2⟩

/-- Addresses read by the stricter reading are read the same by the other. -/
theorem Le.ipv4 (hle : r.Le r') {a : BitVec 32} (h : r.ipv4 s = some a) :
    r'.ipv4 s = some a := by
  rw [Reading.ipv4, Option.map_eq_some_iff] at h ⊢
  rcases h with ⟨l, hl, ha⟩
  exact ⟨l, hle.quad hl, ha⟩

theorem Le.pieces (hle : r.Le r') : ∀ {l : List JString} {m : List Nat}, r.pieces l = some m →
    r'.pieces l = some m := by
  intro l
  induction l with
  | nil => exact fun h => h
  | cons t l ih =>
      intro m h
      -- The last piece may be an address in dotted form.
      cases l with
      | nil =>
          rw [Reading.pieces] at h ⊢
          by_cases hdot : (46 : UInt16) ∈ t
          · rw [if_pos hdot, Option.map_eq_some_iff] at h ⊢
            rcases h with ⟨q, hq, hm⟩
            exact ⟨q, hle.quad hq, hm⟩
          · rw [if_neg hdot, Option.map_eq_some_iff] at h ⊢
            rcases h with ⟨n, hn, hm⟩
            exact ⟨n, hle.piece hn, hm⟩
      | cons t' l =>
          rw [Reading.pieces, Option.bind_eq_some_iff] at h ⊢
          · rcases h with ⟨n, hn, h⟩
            rw [Option.map_eq_some_iff] at h
            rcases h with ⟨m', hm', hm⟩
            exact ⟨n, hle.piece hn, Option.map_eq_some_iff.mpr ⟨m', ih hm', hm⟩⟩
          · exact fun h => by cases h
          · exact fun h => by cases h

/-- So are IPv6 addresses. -/
theorem Le.ipv6 (hle : r.Le r') {a : BitVec 128} (h : r.ipv6 s = some a) :
    r'.ipv6 s = some a := by
  unfold Reading.ipv6 at h ⊢
  cases hsplit : splitDouble s with
  | none =>
      simp only [hsplit, Option.map_eq_some_iff, Option.filter_eq_some_iff] at h ⊢
      rcases h with ⟨l, ⟨hl, hlen⟩, ha⟩
      exact ⟨l, ⟨hle.pieces hl, hlen⟩, ha⟩
  | some sides =>
      -- Both sides are read the same, so as many zeros are filled in between.
      simp only [hsplit, Option.bind_eq_some_iff] at h ⊢
      rcases h with ⟨l, hl, m, hm, ha⟩
      refine ⟨l, ?_, m, ?_, ha⟩
      · by_cases hnil : sides.1 = []
        · rw [if_pos hnil] at hl ⊢
          exact hl
        · rw [if_neg hnil] at hl ⊢
          exact mapM_le hle.piece hl
      · by_cases hnil : sides.2 = []
        · rw [if_pos hnil] at hm ⊢
          exact hm
        · rw [if_neg hnil] at hm ⊢
          exact hle.pieces hm

end Reading

end IpText

end SendingSystem
