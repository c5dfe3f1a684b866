import Linkage.Json.Shortest
import Linkage.Text.Decimal

/-!
# Numbers of a JSON text

A number is whole, or a decimal: a double, kept by the fewest digits that read back as it.

* `Decimal`            sign, digits and power of ten of a finite double;
* `Number.ofParts?`    the number written by a sign, digits, a fraction and an exponent;
* `Number.text`        its written form.

A decimal is written positionally from 10^-5 up to 10^16 and with an exponent beyond.
-/

namespace Linkage

/-- Digits below this number tell any two doubles apart. -/
def Magnitude.digitLimit : Nat := 100000000000000000

/-- A finite double by its sign and its digits. -/
structure Decimal where
  negative : Bool
  digits : Nat
  exponent : Int
  short : digits < Magnitude.digitLimit
  readable : (Magnitude.ofParts? digits exponent).isSome
  deriving DecidableEq

/-- A number of a JSON text. -/
inductive Number where
  | int (i : Int)
  | decimal (d : Decimal)
  deriving DecidableEq

namespace Decimal

def ofMagnitude? (negative : Bool) (u : Nat) : Option Decimal :=
  let s := Magnitude.shortest u
  if h : s.digits < Magnitude.digitLimit ∧ (Magnitude.ofParts? s.digits s.exponent).isSome then
    some ⟨negative, s.digits, s.exponent, h.1, h.2⟩
  else none

/-- The written form of the digits `ds` times `10 ^ exponent`. -/
def layout (ds : List Char) (exponent : Int) : List Char :=
  let point := (ds.length : Int) + exponent
  if 0 ≤ exponent ∧ point ≤ 16 then
    ds ++ List.replicate exponent.toNat '0' ++ ['.', '0']
  else if 0 < point ∧ point ≤ 16 then
    ds.take point.toNat ++ '.' :: ds.drop point.toNat
  else if -5 < point ∧ point ≤ 0 then
    '0' :: '.' :: List.replicate point.natAbs '0' ++ ds
  else match ds with
    | [] => []
    | [d] => d :: 'e' :: Text.Decimal.int (point - 1)
    | d :: rest => d :: '.' :: rest ++ 'e' :: Text.Decimal.int (point - 1)

def chars (d : Decimal) : List Char :=
  (if d.negative then ['-'] else []) ++ layout (Text.Decimal.nat d.digits) d.exponent

end Decimal

namespace Number

def digit (c : Char) : Nat := c.toNat - '0'.toNat

/-- `significand` with further digits behind it as long as it stays below 2^64, and the digits
that did not fit. -/
def absorb (significand : Nat) : List Char → Nat × List Char
  | [] => (significand, [])
  | c :: cs =>
    let n := significand * 10 + digit c
    if n ≤ Text.Decimal.uint64Max then absorb n cs else (significand, c :: cs)

/-- The greatest exponent that is not taken for an unbounded one. -/
def exponentMax : Nat := 2147483647

/-- The parts of a written number: sign, whole digits, digits after the point, and the exponent's
sign and digits. -/
structure Parts where
  negative : Bool
  whole : List Char
  fraction : Option (List Char)
  exponent : Option (Bool × List Char)

/-- The significand and power of ten that count for a written number; whole digits that do not
fit into 64 bits still scale it, digits of the fraction that do not fit are dropped. -/
def Parts.scaled (p : Parts) : Nat × Int :=
  let (s, long) := absorb 0 p.whole
  let fraction := p.fraction.getD []
  let (s, dropped) := absorb s fraction
  (s, (long.length : Int) - ((fraction.length - dropped.length : Nat) : Int))

/-- The number written by its parts; none beyond the greatest double. -/
def ofParts? (p : Parts) : Option Number :=
  let whole := Nat.ofDigitChars 10 p.whole 0
  let decimal (u : Option Nat) : Option Number :=
    u.bind fun u => (Decimal.ofMagnitude? p.negative u).map .decimal
  match p.fraction, p.exponent with
  | none, none =>
    if p.negative then
      if whole ≠ 0 ∧ Text.Decimal.int64Min ≤ -(whole : Int) then some (.int (-(whole : Int)))
      else let (s, e) := p.scaled; decimal (Magnitude.ofParts? s e)
    else if whole ≤ Text.Decimal.uint64Max then some (.int whole)
    else let (s, e) := p.scaled; decimal (Magnitude.ofParts? s e)
  | _, none => let (s, e) := p.scaled; decimal (Magnitude.ofParts? s e)
  | _, some (down, ds) =>
    let (s, e) := p.scaled
    let n := Nat.ofDigitChars 10 ds 0
    if n ≤ exponentMax then
      decimal (Magnitude.ofParts? s (if down then e - n else e + n))
    else if s ≠ 0 ∧ !down then none
    else decimal (some 0)

def chars : Number → List Char
  | int i => Text.Decimal.int i
  | decimal d => d.chars

def text (n : Number) : String := String.ofList n.chars

end Number
end Linkage
