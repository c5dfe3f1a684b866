import Linkage.Date
import Linkage.Text.Blank
import Linkage.Text.Decimal

/-!
# Instants

* `Instant.ofText?`   reads a date, a time and an offset, blanks allowed between the parts;
* `Instant.text`      writes it in UTC with as few digits of a second as lose nothing.

A minute may have a second 60; it is kept as the second 59 with a further second of nanoseconds.
-/

namespace Linkage

/-- An instant in UTC: a day, the second of the day and the nanoseconds after it. -/
structure Instant where
  date : Date
  second : Nat
  nano : Nat
  deriving DecidableEq

namespace Instant

open Text

/-- The number of `1` to `width` digits that a text begins with, and the rest. -/
def digits? (width : Nat) (s : List Char) : Option (Nat × List Char) :=
  let ds := (s.take width).takeWhile Char.isDigit
  if ds = [] then none else some (Nat.ofDigitChars 10 ds 0, s.drop ds.length)

/-- A number of at most two digits after blanks. -/
def pair? (s : List Char) : Option (Nat × List Char) := digits? 2 (trimStart s)

/-- The rest behind `c` after blanks. -/
def mark? (c : Char) (s : List Char) : Option (List Char) :=
  match trimStart s with
  | d :: r => if d = c then some r else none
  | [] => none

/-- A year: four digits, or any number of them behind a sign. -/
def year? (s : List Char) : Option (Int × List Char) :=
  match trimStart s with
  | '-' :: r => (digits? r.length r).map fun p => (-(p.1 : Int), p.2)
  | '+' :: r => (digits? r.length r).map fun p => ((p.1 : Int), p.2)
  | r => (digits? 4 r).map fun p => ((p.1 : Int), p.2)

/-- The nanoseconds of a fraction, if there is one; digits after the ninth do not count. -/
def fraction? : List Char → Option (Nat × List Char)
  | '.' :: r => match digits? 9 r with
    | some (n, rest) =>
      some (n * Nat.pow 10 (9 - (r.length - rest.length)), rest.dropWhile Char.isDigit)
    | none => none
  | r => some (0, r)

/-- Whether a text begins with `UTC` in small or capital letters. -/
def utc? : List Char → Option (List Char)
  | a :: b :: c :: r =>
    if a.toUpper = 'U' ∧ b.toUpper = 'T' ∧ c.toUpper = 'C' then some r else none
  | _ => none

/-- The sign of an offset; a minus sign may be typographic. -/
def sign? : List Char → Option (Bool × List Char)
  | '+' :: r => some (false, r)
  | '-' :: r => some (true, r)
  | c :: r => if c.toNat = 0x2212 then some (true, r) else none
  | [] => none

def twoDigits? : List Char → Option (Nat × List Char)
  | a :: b :: r =>
    if a.isDigit ∧ b.isDigit then some (Nat.ofDigitChars 10 [a, b] 0, r) else none
  | _ => none

/-- The offset from UTC in minutes. -/
def offset? (s : List Char) : Option (Int × List Char) :=
  match utc? s with
  | some r => some (0, r)
  | none => match s with
    | 'Z' :: r | 'z' :: r => some (0, r)
    | s => do
      let (negative, s) ← sign? s
      let (hours, s) ← twoDigits? s
      let (minutes, s) ← twoDigits? (s.dropWhile fun c => c = ':' || isBlank c)
      if 24 ≤ hours ∨ 60 ≤ minutes then none
      let m : Int := hours * 60 + minutes
      return (if negative then -m else m, s)

/-- The instant of a local day and second with an offset in minutes. -/
def shift (date : Date) (second : Nat) (nano : Nat) (minutes : Int) : Instant :=
  let t : Int := second - minutes * 60
  if t < 0 then ⟨date.previous, (t + 86400).toNat, nano⟩
  else if 86400 ≤ t then ⟨date.next, (t - 86400).toNat, nano⟩
  else ⟨date, t.toNat, nano⟩

/-- The instant that a text writes. -/
def ofChars? (s : List Char) : Option Instant := do
  let (year, s) ← year? s
  let (month, s) ← pair? (← mark? '-' s)
  let (day, s) ← pair? (← mark? '-' s)
  let date ← Date.of? year month day
  let s ← match s with
    | 't' :: r | 'T' :: r | ' ' :: r => some r
    | _ => none
  let (hour, s) ← pair? s
  let (minute, s) ← pair? (← mark? ':' s)
  let (second, s) ← pair? (← mark? ':' s)
  if 24 ≤ hour ∨ 60 ≤ minute ∨ 60 < second then none
  let (nano, s) ← fraction? s
  let (minutes, s) ← offset? (trimStart s)
  if trimStart s ≠ [] then none
  let (second, nano) := if second = 60 then (59, nano + 1000000000) else (second, nano)
  let i := shift date (hour * 3600 + minute * 60 + second) nano minutes
  if i.date.inRange then some i else none

/-- The instant that a text writes. -/
def ofText? (s : String) : Option Instant := ofChars? s.toList

/-- The written form of a year. -/
def yearChars (y : Int) : List Char :=
  if 0 ≤ y ∧ y ≤ 9999 then Decimal.padded 4 y.toNat
  else (if y < 0 then '-' else '+') :: Decimal.padded 4 y.natAbs

/-- The written form of a fraction of a second. -/
def fractionChars (nano : Nat) : List Char :=
  if nano = 0 then []
  else if nano % 1000000 = 0 then '.' :: Decimal.padded 3 (nano / 1000000)
  else if nano % 1000 = 0 then '.' :: Decimal.padded 6 (nano / 1000)
  else '.' :: Decimal.padded 9 nano

def chars (i : Instant) : List Char :=
  let extra := i.nano / 1000000000
  yearChars i.date.year ++ '-' :: Decimal.padded 2 i.date.month ++ '-' :: Decimal.padded 2 i.date.day ++
    'T' :: Decimal.padded 2 (i.second / 3600) ++ ':' :: Decimal.padded 2 (i.second / 60 % 60) ++
    ':' :: Decimal.padded 2 (i.second % 60 + extra) ++ fractionChars (i.nano % 1000000000) ++ ['Z']

def text (i : Instant) : String := String.ofList i.chars

end Instant
end Linkage
