import Linkage.Text.Cut
import Linkage.Text.Decimal
import Linkage.Url.Encode
import Linkage.Url.Punycode

/-!
# Hosts of URLs

A host is a name, an IPv4 address or, in brackets, an IPv6 address.  A name whose last part is a
number is an address.  How a name beyond ASCII is written in ASCII is for the tables of Unicode to say,
so it is left open; a plain name is only put in small letters.

* `Url.Naming`        how names are written in ASCII;
* `Naming.simple`     by small letters and Punycode alone;
* `Url.Host.parse?`   reads a host;
* `Host.parse?_of_plain`   a plain host is the same whatever the naming;
* `Url.Host.text`     writes it: names in small letters, IPv4 in decimal, IPv6 with its first longest
  run of zeros left out.
-/

namespace Linkage.Url

inductive Host where
  | name (s : List Char)
  | v4 (address : Nat)
  | v6 (pieces : List Nat)
  deriving DecidableEq

namespace Host

open Text

/-- Characters that no name may hold. -/
def isForbidden (c : Char) : Bool :=
  c.toNat ≤ 0x20 || c.toNat = 0x7f || "#/:<>?@[\\]^|%".toList.contains c

/-- The number that a part of an IPv4 address writes: behind `0x` in base sixteen, behind `0` in base
eight. -/
def part? (s : List Char) : Option Nat :=
  let inBase (base : Nat) (r : List Char) : Option Nat := if r = [] then some 0 else digitsIn? base r
  match s with
  | [] => none
  | '0' :: 'x' :: r | '0' :: 'X' :: r => inBase 16 r
  | '0' :: r => inBase 8 r
  | s => inBase 10 s

/-- The parts of a name; an empty last part does not count. -/
def parts (s : List Char) : List (List Char) :=
  let ps := splitAt '.' s
  if ps.getLast? = some [] ∧ ps.length ≠ 1 then ps.dropLast else ps

/-- Whether the last part of a name is a number. -/
def endsInNumber (s : List Char) : Bool :=
  match (parts s).getLast? with
  | some p => (p ≠ [] && p.all Char.isDigit) || (p.take 2 = ['0', 'x'] && (part? p).isSome)
  | none => false

/-- The address of up to four numbers; the last one fills the bytes that are left. -/
def address? (ns : List Nat) : Option Nat :=
  match ns.reverse with
  | [] => none
  | last :: front =>
    let front := front.reverse
    let left := Nat.pow 256 (4 - front.length)
    if 3 < front.length ∨ front.any (255 < ·) ∨ left ≤ last then none
    else some (front.foldl (fun n p => n * 256 + p) 0 * left + last)

def v4? (s : List Char) : Option Nat := ((parts s).mapM part?).bind address?

/-- The number of one to four hexadecimal digits. -/
def piece? (s : List Char) : Option Nat := if s.length ≤ 4 then digitsIn? 16 s else none

/-- A byte in decimal, without needless zeros. -/
def byte? (s : List Char) : Option Nat :=
  if s.length = 1 ∨ s.head? ≠ some '0' then (Decimal.nat? s).filter (· ≤ 255) else none

/-- The two pieces that four bytes in decimal make. -/
def dotted? (s : List Char) : Option (List Nat) := do
  match ← (splitAt '.' s).mapM byte? with
  | [a, b, c, d] => return [a * 256 + b, c * 256 + d]
  | _ => none

/-- Pieces with colons between them; the last one may be four bytes. -/
def pieces? (tail : Bool) (s : List Char) : Option (List Nat) :=
  if s = [] then some []
  else
    let ps := splitAt ':' s
    match ps.getLast? with
    | some l =>
      if tail ∧ l.contains '.' then do
        return (← ps.dropLast.mapM piece?) ++ (← dotted? l)
      else ps.mapM piece?
    | none => none

/-- An IPv6 address; two colons stand for one or more pieces of zero. -/
def v6? (s : List Char) : Option (List Nat) :=
  match cutWord? [':', ':'] s with
  | none => (pieces? true s).filter (·.length = 8)
  | some (a, b) => do
    let front ← pieces? false a
    let back ← pieces? true b
    let n := front.length + back.length
    if n ≤ 7 then some (front ++ List.replicate (8 - n) 0 ++ back) else none

/-- A part of a name in ASCII. -/
def asciiPart (s : List Char) : List Char :=
  if s.all (·.toNat < 0x80) then s else "xn--".toList ++ Punycode.encode s

/-- A name in small ASCII letters. -/
def asciiName (s : List Char) : List Char :=
  joinWith ['.'] ((splitAt '.' (s.map Char.toLower)).map asciiPart)

/-- A name in ASCII that holds nothing forbidden and has no part that is written in Punycode. -/
structure IsPlain (s : List Char) : Prop where
  ascii : ∀ c ∈ s, c.toNat < 0x80
  allowed : ∀ c ∈ s, isForbidden c = false
  direct : ∀ p ∈ splitAt '.' s, (p.map Char.toLower).take 4 ≠ "xn--".toList

theorem toNat_toLower {c : Char} (h : c.toNat < 0x80) : c.toLower.toNat < 0x80 := by
  unfold Char.toLower
  split
  · rename_i hupper
    show (c.val + 32).toNat < 0x80
    have hlow : c.val.toNat ≤ 90 := hupper.2
    rw [UInt32.toNat_add]
    show (c.val.toNat + 32) % 2 ^ 32 < 0x80
    omega
  · exact h

theorem asciiName_of_ascii {s : List Char} (h : ∀ c ∈ s, c.toNat < 0x80) :
    asciiName s = s.map Char.toLower := by
  have hlower : ∀ c ∈ s.map Char.toLower, c.toNat < 0x80 := by
    intro c hc
    obtain ⟨a, ha, rfl⟩ := List.mem_map.1 hc
    exact toNat_toLower (h a ha)
  have hpart : ∀ p ∈ splitAt '.' (s.map Char.toLower), asciiPart p = p := fun p hp =>
    if_pos (List.all_eq_true.2 fun c hc => decide_eq_true (hlower c (mem_of_mem_splitAt hp hc)))
  rw [asciiName, List.map_congr_left hpart, List.map_id', joinWith_splitAt]

end Host

/-- How names of hosts are written in ASCII. -/
structure Naming where
  /-- the name that bytes write, if they write one -/
  ascii? : List UInt8 → Option (List Char)
  plain : ∀ s, Host.IsPlain s → ascii? (s.flatMap String.utf8EncodeChar) = some (s.map Char.toLower)

theorem fromUTF8?_flatMap (s : List Char) :
    String.fromUTF8? ⟨(s.flatMap String.utf8EncodeChar).toArray⟩ = some (String.ofList s) := by
  have hbytes : (⟨(s.flatMap String.utf8EncodeChar).toArray⟩ : ByteArray)
      = (String.ofList s).toByteArray := by
    rw [String.toByteArray_ofList, List.utf8Encode]
    exact ByteArray.ext List.data_toByteArray.symm
  rw [hbytes, String.fromUTF8?, dif_pos (String.isValidUTF8 _)]
  rfl

/-- Names in small letters, with Punycode for the parts beyond ASCII. -/
def Naming.simple : Naming where
  ascii? bs := (String.fromUTF8? ⟨bs.toArray⟩).map fun t => Host.asciiName t.toList
  plain s h := by
    rw [fromUTF8?_flatMap, Option.map_some, String.toList_ofList, Host.asciiName_of_ascii h.ascii]

namespace Host

open Text

/-- The host that a text writes. -/
def parse? (names : Naming) (s : List Char) : Option Host :=
  match s with
  | '[' :: r =>
    if r.getLast? = some ']' then (v6? r.dropLast).map v6 else none
  | s =>
    match names.ascii? (decode s) with
    | none => none
    | some n =>
      if n = [] ∨ n.any isForbidden then none
      else if endsInNumber n then (v4? n).map v4
      else some (name n)

theorem decode_eq {s : List Char} (h : '%' ∉ s) : decode s = s.flatMap String.utf8EncodeChar := by
  induction s with
  | nil => rfl
  | cons c s ih =>
    obtain ⟨hc, hs⟩ := List.ne_and_not_mem_of_not_mem_cons h
    rw [decode, ih hs, List.flatMap_cons]
    rintro a b r rfl
    exact absurd rfl hc

/-- a plain host is the same whatever the naming -/
theorem parse?_of_plain (names : Naming) {s : List Char} (h : IsPlain s) :
    parse? names s = parse? .simple s := by
  have hpercent : '%' ∉ s := fun hmem => Bool.noConfusion (h.allowed _ hmem)
  unfold parse?
  split
  · rfl
  · rw [decode_eq hpercent, names.plain s h, Naming.simple.plain s h]

/-- The longest run of zeros: where it begins and its length, the first one of several. -/
def longestRun : Nat → List Nat → Nat × Nat
  | _, [] => (0, 0)
  | i, n :: ns =>
    let here := ((n :: ns).takeWhile (· = 0)).length
    let (j, there) := longestRun (i + 1) ns
    if there ≤ here then (i, here) else (j, there)

def pieceText (n : Nat) : List Char := Nat.toDigits 16 n

/-- The pieces with colons between them. -/
def colons (ns : List Nat) : List Char := joinWith [':'] (ns.map pieceText)

/-- An IPv6 address; a run of two or more zeros is left out. -/
def v6Text (ns : List Nat) : List Char :=
  let (i, n) := longestRun 0 ns
  if n ≤ 1 then colons ns else colons (ns.take i) ++ ':' :: ':' :: colons (ns.drop (i + n))

def text : Host → List Char
  | name s => s
  | v4 a => joinWith ['.'] ([16777216, 65536, 256, 1].map fun d => Decimal.nat (a / d % 256))
  | v6 ns => '[' :: v6Text ns ++ [']']

end Host
end Linkage.Url
