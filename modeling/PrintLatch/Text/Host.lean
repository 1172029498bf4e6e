/-
  PrintLatch.Text.Host

  Hosts, URL records and origins of the URL standard, with their serializations.

  A `Domain` is what the host parser leaves of a name: it has no forbidden code point
  and does not end in a number, or it would have become an address.  So the
  serialization of a domain or an IPv4 address is the serialization of that host alone
  (`serialize_eq_domain`, `serialize_eq_ipv4`), and only an IPv6 address is written with
  a bracket or a colon.
-/

import Mathlib.Data.List.Basic

namespace Text

/-! ## Domains -/

/-- A forbidden domain code point. -/
def forbiddenDomain (c : Char) : Bool :=
  c.toNat ≤ 0x20 ∨ c.toNat = 0x7f ∨ c ∈ "#%/:<>?@[\\]^|".toList

/-- The last label of a name, whose end may be marked by a dot. -/
def lastLabel (name : List Char) : List Char :=
  let marked := name.reverse
  let unmarked := if marked.head? = some '.' then marked.tail else marked
  (unmarked.takeWhile (· ≠ '.')).reverse

/-- The hexadecimal digits. -/
def isHexDigit (c : Char) : Bool :=
  c.isDigit ∨ ('a' ≤ c ∧ c ≤ 'f') ∨ ('A' ≤ c ∧ c ≤ 'F')

/-- The "ends in a number" check: decimal digits, or what the IPv4 number parser takes
    in base 16. -/
def endsInNumber (name : List Char) : Bool :=
  match lastLabel name with
  | [] => false
  | '0' :: 'x' :: digits => digits.all isHexDigit
  | '0' :: 'X' :: digits => digits.all isHexDigit
  | label => label.all Char.isDigit

/-- The host of a special URL that is no address. -/
structure Domain where
  name : String
  nonempty : name ≠ ""
  allowed : name.toList.any forbiddenDomain = false
  named : endsInNumber name.toList = false
  deriving DecidableEq, Repr

/-! ## Addresses -/

/-- An IPv4 address, by its octets. -/
@[ext] structure Ipv4 where
  a : UInt8
  b : UInt8
  c : UInt8
  d : UInt8
  deriving DecidableEq, Repr

/-- Four decimal numbers. -/
def Ipv4.serialize (x : Ipv4) : String :=
  s!"{x.a.toNat}.{x.b.toNat}.{x.c.toNat}.{x.d.toNat}"

/-- An IPv6 address, by its pieces. -/
structure Ipv6 where
  pieces : List UInt16
  eight : pieces.length = 8
  deriving DecidableEq, Repr

/-- How many zeros a list starts with. -/
def zeroRun : List UInt16 → Nat
  | [] => 0
  | piece :: rest => if piece = 0 then zeroRun rest + 1 else 0

/-- Where the first of the longest runs of zeros is, and how long it is. -/
def longestRun : List UInt16 → Nat × Nat
  | [] => (0, 0)
  | piece :: rest =>
      let later := longestRun rest
      if later.2 ≤ zeroRun (piece :: rest) then (0, zeroRun (piece :: rest))
      else (later.1 + 1, later.2)

/-- Lowercase hexadecimal, as short as possible. -/
def hexPiece (piece : UInt16) : String := String.ofList (Nat.toDigits 16 piece.toNat)

/-- The pieces with the longest run of zeros left out, when it is no single one. -/
def Ipv6.serialize (x : Ipv6) : String :=
  let (start, length) := longestRun x.pieces
  if 2 ≤ length then
    ":".intercalate ((x.pieces.take start).map hexPiece) ++ "::" ++
      ":".intercalate ((x.pieces.drop (start + length)).map hexPiece)
  else ":".intercalate (x.pieces.map hexPiece)

/-! ## Hosts -/

/-- A host. -/
inductive Host where
  | domain (value : Domain)
  | ipv4 (value : Ipv4)
  | ipv6 (value : Ipv6)
  /-- The host of a URL whose scheme is not special. -/
  | nonSpecial (value : String)
  deriving DecidableEq, Repr

namespace Host

/-- The host serializer. -/
def serialize : Host → String
  | .domain value => value.name
  | .ipv4 value => value.serialize
  | .ipv6 value => "[" ++ value.serialize ++ "]"
  | .nonSpecial value => value

/-- A host that a special URL can have. -/
def special : Host → Bool
  | .domain _ | .ipv4 _ | .ipv6 _ => true
  | .nonSpecial _ => false

end Host

/-! ## URL records -/

/-- A URL record.  The path is serialized. -/
structure UrlRecord where
  scheme : String
  username : String
  password : String
  host : Option Host
  /-- None for the scheme's default port. -/
  port : Option Nat
  path : String
  query : Option String
  fragment : Option String
  /-- A web URL has a host. -/
  web : scheme = "http" ∨ scheme = "https" → host.any Host.special = true
  deriving DecidableEq, Repr

/-- A tuple origin. -/
structure TupleOrigin where
  scheme : String
  host : Host
  port : Option Nat
  deriving DecidableEq, Repr

/-- A URL's origin; none is the opaque one. -/
def UrlRecord.origin (u : UrlRecord) : Option TupleOrigin :=
  if u.scheme ∈ ["ftp", "http", "https", "ws", "wss"] then
    u.host.map fun host => ⟨u.scheme, host, u.port⟩
  else none

/-- The serialization of an origin. -/
def serializeOrigin : Option TupleOrigin → String
  | none => "null"
  | some origin =>
      let port := match origin.port with
        | none => ""
        | some port => ":" ++ toString port
      origin.scheme ++ "://" ++ origin.host.serialize ++ port

/-! ## What a serialization tells -/

/-- The characters of a decimal numeral. -/
theorem toList_toString (n : Nat) : (toString n).toList = Nat.toDigits 10 n := by
  show (Nat.repr n).toList = _
  rw [Nat.repr, String.toList_ofList]

theorem toDigits_injective {m n : Nat} (h : Nat.toDigits 10 m = Nat.toDigits 10 n) : m = n := by
  have hread := congrArg (Nat.ofDigitChars 10 · 0) h
  simpa only [Nat.ofDigitChars_ten_toDigits] using hread

theorem isDigit_of_mem_toDigits {n : Nat} {c : Char} (h : c ∈ Nat.toDigits 10 n) :
    c.isDigit = true :=
  Nat.isDigit_of_mem_toDigits (by omega) (by omega) h

theorem dot_notMem_toDigits (n : Nat) : '.' ∉ Nat.toDigits 10 n := fun h =>
  absurd (isDigit_of_mem_toDigits h) (by decide)

theorem Ipv4.toList_serialize (x : Ipv4) :
    x.serialize.toList = Nat.toDigits 10 x.a.toNat ++ '.' :: (Nat.toDigits 10 x.b.toNat ++
      '.' :: (Nat.toDigits 10 x.c.toNat ++ '.' :: Nat.toDigits 10 x.d.toNat)) := by
  show (toString x.a.toNat ++ "." ++ toString x.b.toNat ++ "." ++ toString x.c.toNat ++ "." ++
    toString x.d.toNat).toList = _
  simp [String.toList_append]

/-- An IPv4 address is written with digits and dots. -/
theorem Ipv4.mem_serialize {x : Ipv4} {c : Char} (h : c ∈ x.serialize.toList) :
    c.isDigit = true ∨ c = '.' := by
  rw [x.toList_serialize] at h
  simp only [List.mem_append, List.mem_cons] at h
  rcases h with h | h | h | h | h | h | h
  · exact Or.inl (isDigit_of_mem_toDigits h)
  · exact Or.inr h
  · exact Or.inl (isDigit_of_mem_toDigits h)
  · exact Or.inr h
  · exact Or.inl (isDigit_of_mem_toDigits h)
  · exact Or.inr h
  · exact Or.inl (isDigit_of_mem_toDigits h)

/-- Two lists that agree agree before and after their first `c`. -/
theorem eq_of_append_cons_eq {α : Type} {c : α} {xs ys zs ws : List α} (hxs : c ∉ xs)
    (hys : c ∉ ys) (h : xs ++ c :: zs = ys ++ c :: ws) : xs = ys ∧ zs = ws := by
  induction xs generalizing ys with
  | nil =>
      cases ys with
      | nil => exact ⟨rfl, (List.cons.inj h).2⟩
      | cons y ys =>
          obtain ⟨hcy, -⟩ := List.cons.inj h
          exact absurd (hcy ▸ List.mem_cons_self) hys
  | cons x xs ih =>
      cases ys with
      | nil =>
          obtain ⟨hxc, -⟩ := List.cons.inj h
          exact absurd (hxc ▸ List.mem_cons_self) hxs
      | cons y ys =>
          obtain ⟨hxy, hrest⟩ := List.cons.inj h
          obtain ⟨heq, htail⟩ := ih (fun hmem => hxs (List.mem_cons_of_mem _ hmem))
            (fun hmem => hys (List.mem_cons_of_mem _ hmem)) hrest
          exact ⟨by rw [hxy, heq], htail⟩

theorem Ipv4.serialize_injective {x y : Ipv4} (h : x.serialize = y.serialize) : x = y := by
  have hlist := congrArg String.toList h
  rw [x.toList_serialize, y.toList_serialize] at hlist
  -- a number is what stands before the next dot
  obtain ⟨ha, hlist⟩ := eq_of_append_cons_eq (dot_notMem_toDigits _) (dot_notMem_toDigits _) hlist
  obtain ⟨hb, hlist⟩ := eq_of_append_cons_eq (dot_notMem_toDigits _) (dot_notMem_toDigits _) hlist
  obtain ⟨hc, hd⟩ := eq_of_append_cons_eq (dot_notMem_toDigits _) (dot_notMem_toDigits _) hlist
  have hoctet : ∀ {m n : UInt8}, Nat.toDigits 10 m.toNat = Nat.toDigits 10 n.toNat → m = n :=
    fun heq => UInt8.toNat_inj.mp (toDigits_injective heq)
  exact Ipv4.ext (hoctet ha) (hoctet hb) (hoctet hc) (hoctet hd)

/-- A name whose last label is a numeral ends in a number. -/
theorem endsInNumber_of_digits {front label : List Char} (hne : label ≠ [])
    (hdigits : ∀ c ∈ label, c.isDigit = true) : endsInNumber (front ++ '.' :: label) = true := by
  have hnodot : ∀ c ∈ label.reverse, c ≠ '.' := by
    rintro c hc rfl
    exact absurd (hdigits _ (List.mem_reverse.mp hc)) (by decide)
  have hlast : lastLabel (front ++ '.' :: label) = label := by
    obtain ⟨c, rest, hrev⟩ := List.exists_cons_of_ne_nil (mt List.reverse_eq_nil_iff.mp hne)
    have hc : c ≠ '.' := hnodot c (hrev ▸ List.mem_cons_self)
    have hmarked : (front ++ '.' :: label).reverse = label.reverse ++ '.' :: front.reverse := by
      simp
    have hhead : (label.reverse ++ '.' :: front.reverse).head? ≠ some '.' := by
      rw [hrev]
      simpa using hc
    unfold lastLabel
    dsimp only
    -- no dot marks the end, and the label reaches back to one
    rw [hmarked, if_neg hhead, List.takeWhile_append_of_pos (by simpa using hnodot)]
    simp
  unfold endsInNumber
  rw [hlast]
  split
  · exact absurd rfl hne
  · exact absurd (hdigits 'x' (by simp)) (by decide)
  · exact absurd (hdigits 'X' (by simp)) (by decide)
  · exact List.all_eq_true.mpr hdigits

theorem Ipv4.endsInNumber_serialize (x : Ipv4) : endsInNumber x.serialize.toList = true := by
  have hne : Nat.toDigits 10 x.d.toNat ≠ [] := Nat.toDigits_ne_nil
  have hends := @endsInNumber_of_digits (Nat.toDigits 10 x.a.toNat ++
    '.' :: (Nat.toDigits 10 x.b.toNat ++ '.' :: Nat.toDigits 10 x.c.toNat)) _ hne
    fun _ hc => isDigit_of_mem_toDigits hc
  rw [x.toList_serialize]
  simpa using hends

namespace Host

/-- Only an IPv6 address is written with a bracket or a colon. -/
theorem ipv6_or_plain {h : Host} (hspecial : h.special = true) :
    (∃ value, h = .ipv6 value) ∨ '[' ∉ h.serialize.toList ∧ ':' ∉ h.serialize.toList := by
  cases h with
  | domain value =>
      have hallowed : ∀ c ∈ value.name.toList, forbiddenDomain c = false := by
        simpa using value.allowed
      exact Or.inr ⟨fun hmem => absurd (hallowed _ hmem) (by decide),
        fun hmem => absurd (hallowed _ hmem) (by decide)⟩
  | ipv4 value =>
      have hplain : ∀ c : Char, c.isDigit = false → c ≠ '.' → c ∉ value.serialize.toList :=
        fun c hdigit hdot hmem => (Ipv4.mem_serialize hmem).elim
          (fun h => absurd h (by simp [hdigit])) hdot
      exact Or.inr ⟨hplain _ (by decide) (by decide), hplain _ (by decide) (by decide)⟩
  | ipv6 value => exact Or.inl ⟨value, rfl⟩
  | nonSpecial value => cases hspecial

theorem bracket_mem_ipv6 (value : Ipv6) : '[' ∈ (Host.ipv6 value).serialize.toList := by
  show '[' ∈ ("[" ++ value.serialize ++ "]").toList
  simp [String.toList_append]

/-- A domain is the one host that is written so. -/
theorem serialize_eq_domain {h : Host} (hspecial : h.special = true) {value : Domain} :
    h.serialize = value.name ↔ h = .domain value := by
  refine ⟨fun heq => ?_, fun heq => by rw [heq]; rfl⟩
  cases h with
  | domain other =>
      cases other
      cases value
      cases heq
      rfl
  | ipv4 address =>
      -- a name that ends in a number is no domain
      have hends : endsInNumber address.serialize.toList = true := address.endsInNumber_serialize
      have heq : address.serialize = value.name := heq
      rw [heq, value.named] at hends
      cases hends
  | ipv6 address =>
      have hbracket := bracket_mem_ipv6 address
      rw [heq] at hbracket
      have hdomain := ipv6_or_plain (h := .domain value) rfl
      simp only [reduceCtorEq, exists_false, false_or] at hdomain
      exact absurd hbracket hdomain.1
  | nonSpecial text => cases hspecial

/-- So is an IPv4 address. -/
theorem serialize_eq_ipv4 {h : Host} (hspecial : h.special = true) {value : Ipv4} :
    h.serialize = value.serialize ↔ h = .ipv4 value := by
  refine ⟨fun heq => ?_, fun heq => by rw [heq]; rfl⟩
  cases h with
  | domain name => exact ((serialize_eq_domain (h := .ipv4 value) rfl).mp heq.symm).symm
  | ipv4 address => exact congrArg _ (Ipv4.serialize_injective heq)
  | ipv6 address =>
      have hbracket := bracket_mem_ipv6 address
      rw [heq] at hbracket
      rcases Ipv4.mem_serialize hbracket with hdigit | hdot
      · exact absurd hdigit (by decide)
      · exact absurd hdot (by decide)
  | nonSpecial text => cases hspecial

/-- No host is written with a colon and no bracket. -/
theorem serialize_ne_of_colon {h : Host} (hspecial : h.special = true) {text : String}
    (hcolon : ':' ∈ text.toList) (hbracket : '[' ∉ text.toList) : h.serialize ≠ text := by
  rintro rfl
  rcases ipv6_or_plain hspecial with ⟨value, rfl⟩ | ⟨-, hplain⟩
  · exact hbracket (bracket_mem_ipv6 value)
  · exact hplain hcolon

end Host

end Text
