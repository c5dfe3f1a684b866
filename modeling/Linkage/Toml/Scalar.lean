import Linkage.Date
import Linkage.Text.Cut
import Linkage.Text.Decimal
import Linkage.Toml.Quoted
import Linkage.Toml.Value

/-!
# Words of a TOML text

A word that is not in quotes is a truth value, a number, a date, a time or both.

* `Toml.int?`       a whole number, in base ten or behind `0x`, `0o` or `0b`;
* `Toml.real?`      a number with a point or an exponent, within the range of a double, or `inf` or
  `nan`;
* `Toml.moment?`    a date, a time or both, in its shortest form;
* `Toml.word?`      what a word stands for.
-/

namespace Linkage.Toml

/-- The digits of a number without the low lines between them. -/
def digits? (base : Nat) (s : List Char) : Option (List Char) :=
  let parts := Text.splitAt '_' s
  if parts.all (· ≠ []) ∧ (Text.digitsIn? base parts.flatten).isSome then some parts.flatten else none

/-- The decimal digits of a number without needless zeros. -/
def whole? (s : List Char) : Option (List Char) :=
  (digits? 10 s).filter fun ds => ds.length = 1 || ds.head? ≠ some '0'

/-- Whether a minus sign stands before the rest. -/
def unsigned : List Char → Bool × List Char
  | '-' :: r => (true, r)
  | '+' :: r => (false, r)
  | r => (false, r)

def intMin : Int := -170141183460469231731687303715884105728

def intMax : Int := 340282366920938463463374607431768211455

/-- Whether a whole number can be written. -/
def inRange (i : Int) : Bool := intMin ≤ i && i ≤ intMax

def int? (s : List Char) : Option Int :=
  let inBase (base : Nat) (r : List Char) : Option Int :=
    (digits? base r).bind fun ds => (Text.digitsIn? base ds).map Int.ofNat
  let i := match s with
    | '0' :: 'x' :: r => inBase 16 r
    | '0' :: 'o' :: r => inBase 8 r
    | '0' :: 'b' :: r => inBase 2 r
    | s =>
      let (negative, r) := unsigned s
      (whole? r).map fun ds =>
        let n : Int := Nat.ofDigitChars 10 ds 0
        if negative then -n else n
  i.filter inRange

/-- The least number that is too great for a double. -/
def overflow : Nat := (Nat.pow 2 54 - 1) * Nat.pow 2 970

/-- Whether the digits times a power of ten are too great for a double. -/
def overflows (ds : List Char) (exponent : Int) : Bool :=
  let ds := ds.dropWhile (· = '0')
  let size : Int := ds.length + exponent
  if ds = [] ∨ size < 300 then false
  else if 400 < size then true
  else
    let n := Nat.ofDigitChars 10 ds 0
    overflow * Nat.pow 10 (-exponent).toNat ≤ n * Nat.pow 10 exponent.toNat

def exponent? (s : List Char) : Option Int :=
  let (down, r) := unsigned s
  (digits? 10 r).map fun ds =>
    let n : Int := Nat.ofDigitChars 10 ds 0
    if down then -n else n

/-- The digits and the power of ten of a number with a point or an exponent. -/
def realParts? (s : List Char) : Option (List Char × Int) := do
  let (mantissa, exponent) ← match Text.cut? 'e' (s.map Char.toLower) with
    | some (m, e) => (exponent? e).map fun n => (m, some n)
    | none => some (s, none)
  match Text.cut? '.' mantissa, exponent with
  | some (w, f), e => do
    let f ← digits? 10 f
    return ((← whole? w) ++ f, e.getD 0 - f.length)
  | none, some e => return (← whole? mantissa, e)
  | none, none => none

/-- A number that is not written as a whole one. -/
def real? (s : List Char) : Option String :=
  let r := (unsigned s).2
  if r = "inf".toList ∨ r = "nan".toList then some (String.ofList s)
  else match realParts? r with
    | some (ds, e) => if overflows ds e then none else some (String.ofList s)
    | none => none

/-- The number of exactly `n` digits. -/
def number? (n : Nat) (s : List Char) : Option (Nat × List Char) :=
  let ds := s.take n
  if ds.length = n ∧ ds.all Char.isDigit then some (Nat.ofDigitChars 10 ds 0, s.drop n) else none

def mark? (c : Char) : List Char → Option (List Char)
  | d :: r => if d = c then some r else none
  | [] => none

def date? (s : List Char) : Option (List Char × List Char) := do
  let (year, r) ← number? 4 s
  let (month, r) ← number? 2 (← mark? '-' r)
  let (day, r) ← number? 2 (← mark? '-' r)
  let _ ← Date.of? year month day
  return (s.take 10, r)

/-- The fraction of a second, without digits that do not count. -/
def fraction? : List Char → Option (List Char × List Char)
  | '.' :: r =>
    let ds := r.takeWhile Char.isDigit
    let kept := ((ds.take 9).reverse.dropWhile (· = '0')).reverse
    if ds = [] then none
    else some (if kept = [] then [] else '.' :: kept, r.dropWhile Char.isDigit)
  | r => some ([], r)

def time? (s : List Char) : Option (List Char × List Char) := do
  let (hour, r) ← number? 2 s
  let (minute, r) ← number? 2 (← mark? ':' r)
  let (second, r) ← number? 2 (← mark? ':' r)
  if 24 ≤ hour ∨ 60 ≤ minute ∨ 60 < second then none
  let (f, r) ← fraction? r
  return (s.take 8 ++ f, r)

/-- The offset from UTC, up to the end. -/
def offset? : List Char → Option (List Char)
  | [] => some []
  | ['Z'] => some ['Z']
  | ['z'] => some ['Z']
  | sign :: r => do
    if sign ≠ '+' ∧ sign ≠ '-' then none
    let (hours, r') ← number? 2 r
    let (minutes, rest) ← number? 2 (← mark? ':' r')
    if rest ≠ [] ∨ 60 ≤ minutes ∨ 24 * 60 < hours * 60 + minutes then none
    return (if hours + minutes = 0 then '+' else sign) :: r

/-- A date, a time or both, in its shortest form. -/
def momentChars? (s : List Char) : Option (List Char) :=
  match date? s with
  | some (d, []) => some d
  | some (d, sep :: r) => do
    if sep ≠ 'T' ∧ sep ≠ 't' ∧ sep ≠ ' ' then none
    let (t, r) ← time? r
    return d ++ 'T' :: t ++ (← offset? r)
  | none => match time? s with
    | some (t, []) => some t
    | _ => none

/-- A date, a time or both. -/
def moment? (s : List Char) : Option String := (momentChars? s).map String.ofList

def isWordChar (c : Char) : Bool :=
  c.isAlphanum || c = '+' || c = '-' || c = '_' || c = '.' || c = ':'

def word? (s : List Char) : Option Toml :=
  if s = "true".toList then some (.bool true)
  else if s = "false".toList then some (.bool false)
  else ((moment? s).map Toml.moment).or (((int? s).map Toml.int).or ((real? s).map Toml.real))

/-- The word that a text begins with, and the rest; between a date and a time there may be a
space. -/
def cutWord (s : List Char) : List Char × List Char :=
  let w := s.takeWhile isWordChar
  match date? w, s.dropWhile isWordChar with
  | some (_, []), ' ' :: c :: r =>
    if c.isDigit then
      (w ++ ' ' :: (c :: r).takeWhile isWordChar, (c :: r).dropWhile isWordChar)
    else (w, ' ' :: c :: r)
  | _, rest => (w, rest)

end Linkage.Toml
