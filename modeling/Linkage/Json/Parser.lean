import Linkage.Json.Value
import Linkage.Text.Hex

/-!
# Reading JSON

The reader is strict: four blanks, no comments, no comma before a closing bracket, no control
character in a text, escapes of surrogates in pairs only, numbers within the range of a double, and
at most 127 arrays and objects around a value.  What is made of names, texts and numbers is a matter of
its own, so that the syntax is said once for all readers.

* `Json.parse?`        reads a whole text;
* `Json.Reading`       what is made of the parts of a text;
* `Reading.value`      reads one value and returns the rest;
* `Json.pieces`, `Json.ofPieces?`   a text in quotes, first its escapes and then their pairs.
-/

namespace Linkage.Json

/-- The characters that may stand between the parts of a text. -/
def isGap (c : Char) : Bool := c = ' ' || c = '\t' || c = '\n' || c = '\r'

/-- The text without the blanks it begins with. -/
def skipGap (s : List Char) : List Char := s.dropWhile isGap

/-- The number of nested arrays and objects that are read. -/
def depthLimit : Nat := 127

/-- A part of a text in quotes: a character, or a unit of sixteen bits. -/
inductive Piece where
  | char (c : Char)
  | unit (n : Nat)

/-- The number of four hexadecimal digits. -/
def hex4? (a b c d : Char) : Option Nat := do
  let a ← Text.hexDigit? a
  let b ← Text.hexDigit? b
  let c ← Text.hexDigit? c
  let d ← Text.hexDigit? d
  return ((a * 16 + b) * 16 + c) * 16 + d

/-- The character that a backslash before `c` stands for. -/
def escape? (c : Char) : Option Char :=
  if c = '"' ∨ c = '\\' ∨ c = '/' then some c
  else if c = 'b' then some (Char.ofNat 0x08)
  else if c = 'f' then some (Char.ofNat 0x0c)
  else if c = 'n' then some '\n'
  else if c = 'r' then some '\r'
  else if c = 't' then some '\t'
  else none

/-- The parts of a text up to its closing quote, and the rest behind the quote. -/
def pieces : List Char → Option (List Piece × List Char)
  | '"' :: r => some ([], r)
  | '\\' :: 'u' :: a :: b :: c :: d :: r =>
    match hex4? a b c d, pieces r with
    | some n, some (ps, rest) => some (.unit n :: ps, rest)
    | _, _ => none
  | '\\' :: c :: r =>
    match escape? c, pieces r with
    | some e, some (ps, rest) => some (.char e :: ps, rest)
    | _, _ => none
  | c :: r =>
    if c = '\\' ∨ c.toNat < 0x20 then none
    else match pieces r with
      | some (ps, rest) => some (.char c :: ps, rest)
      | none => none
  | [] => none

/-- The first half of a pair of units. -/
def isHigh (n : Nat) : Bool := 0xd800 ≤ n && n ≤ 0xdbff

/-- The second half of a pair of units. -/
def isLow (n : Nat) : Bool := 0xdc00 ≤ n && n ≤ 0xdfff

/-- What the parts of a text stand for, where `own` says it of a character and `coded` of one that is
written by its number; halves of a pair must stand together. -/
def joined? {β : Type} (own coded : Char → List β) : List Piece → Option (List β)
  | [] => some []
  | .char c :: ps => (joined? own coded ps).map (own c ++ ·)
  | .unit n :: .unit m :: ps =>
    if isHigh n then
      if isLow m then
        (joined? own coded ps).map
          (coded (Char.ofNat (0x10000 + (n - 0xd800) * 0x400 + (m - 0xdc00))) ++ ·)
      else none
    else if isLow n then none
    else (joined? own coded (.unit m :: ps)).map (coded (Char.ofNat n) ++ ·)
  | .unit n :: ps =>
    if isHigh n || isLow n then none else (joined? own coded ps).map (coded (Char.ofNat n) ++ ·)

/-- The characters that the parts stand for. -/
def ofPieces? : List Piece → Option (List Char) := joined? (fun c => [c]) fun c => [c]

/-- A text whose opening quote is read. -/
def quotedBody (s : List Char) : Option (List Char × List Char) :=
  match pieces s with
  | none => none
  | some (ps, rest) => match ofPieces? ps with
    | none => none
    | some cs => some (cs, rest)

/-- Whether a number begins with a minus sign, and the rest behind it. -/
def sign : List Char → Bool × List Char
  | '-' :: r => (true, r)
  | r => (false, r)

/-- One or more digits. -/
def digits? (s : List Char) : Option (List Char × List Char) :=
  let ds := s.takeWhile Char.isDigit
  if ds = [] then none else some (ds, s.dropWhile Char.isDigit)

/-- The whole digits of a number: one zero, or digits that do not begin with a zero. -/
def whole? (s : List Char) : Option (List Char × List Char) :=
  (digits? s).filter fun x => x.1.head? ≠ some '0' || x.1.length = 1

/-- The digits behind a point, if there is a point. -/
def fraction? : List Char → Option (Option (List Char) × List Char)
  | '.' :: r => (digits? r).map fun x => (some x.1, x.2)
  | r => some (none, r)

/-- The sign and the digits of an exponent. -/
def exponent? : List Char → Option ((Bool × List Char) × List Char)
  | '+' :: r => (digits? r).map fun x => ((false, x.1), x.2)
  | r => (digits? (sign r).2).map fun x => (((sign r).1, x.1), x.2)

/-- The exponent behind an `e`, if there is an `e`. -/
def power? : List Char → Option (Option (Bool × List Char) × List Char)
  | 'e' :: r => (exponent? r).map fun x => (some x.1, x.2)
  | 'E' :: r => (exponent? r).map fun x => (some x.1, x.2)
  | r => some (none, r)

/-- The parts of a number and the rest behind it. -/
def numberParts (s : List Char) : Option (Number.Parts × List Char) :=
  (whole? (sign s).2).bind fun (whole, s') =>
    (fraction? s').bind fun (fraction, s') =>
      (power? s').map fun (exponent, rest) => (⟨(sign s).1, whole, fraction, exponent⟩, rest)

def number (s : List Char) : Option (Json × List Char) :=
  match numberParts s with
  | none => none
  | some (p, rest) => match Number.ofParts? p with
    | none => none
    | some n => some (num n, rest)

/-- A value that is no array or object. -/
def scalar : List Char → Option (Json × List Char)
  | '"' :: r => match quotedBody r with
    | none => none
    | some (cs, rest) => some (str (String.ofList cs), rest)
  | 'n' :: 'u' :: 'l' :: 'l' :: r => some (null, r)
  | 't' :: 'r' :: 'u' :: 'e' :: r => some (bool true, r)
  | 'f' :: 'a' :: 'l' :: 's' :: 'e' :: r => some (bool false, r)
  | s => number s

/-- One or more items with commas between them, up to the closing character. -/
def items {α : Type} (item : List Char → Option (α × List Char)) (close : Char) :
    Nat → List Char → Option (List α × List Char)
  | 0, _ => none
  | fuel + 1, s =>
    match item s with
    | none => none
    | some (x, r) => match skipGap r with
      | ',' :: r => match items item close fuel r with
        | none => none
        | some (xs, rest) => some (x :: xs, rest)
      | c :: r => if c = close then some ([x], r) else none
      | [] => none

/-- The items of a sequence whose opening character is read. -/
def sequence {α : Type} (item : List Char → Option (α × List Char)) (close : Char)
    (s : List Char) : Option (List α × List Char) :=
  match skipGap s with
  | [] => none
  | c :: r => if c = close then some ([], r) else items item close (c :: r).length (c :: r)

/-- What a reader makes of names, of values that are no array or object, and of these. -/
structure Reading (κ α : Type) where
  /-- reads a name behind its opening quote -/
  name : List Char → Option (κ × List Char)
  scalar : List Char → Option (α × List Char)
  arr : List α → α
  obj : List (κ × α) → α

section
variable {κ α : Type}

/-- A name, a colon and a value. -/
def member (name : List Char → Option (κ × List Char)) (value : List Char → Option (α × List Char))
    (s : List Char) : Option ((κ × α) × List Char) :=
  match skipGap s with
  | '"' :: r => match name r with
    | none => none
    | some (k, r) => match skipGap r with
      | ':' :: r => match value r with
        | none => none
        | some (v, rest) => some ((k, v), rest)
      | _ => none
  | _ => none

/-- One value, inside at most `d` further arrays and objects. -/
def Reading.value (g : Reading κ α) : Nat → List Char → Option (α × List Char)
  | 0, s => g.scalar (skipGap s)
  | d + 1, s =>
    match skipGap s with
    | '[' :: r => match sequence (fun s => g.value d s) ']' r with
      | none => none
      | some (xs, rest) => some (g.arr xs, rest)
    | '\x7b' :: r => match sequence (member g.name fun s => g.value d s) '\x7d' r with
      | none => none
      | some (es, rest) => some (g.obj es, rest)
    | s => g.scalar s

/-- The value of a whole text, inside at most `d` arrays and objects. -/
def Reading.whole? (g : Reading κ α) (d : Nat) (s : List Char) : Option α :=
  match g.value d s with
  | some (v, rest) => if skipGap rest = [] then some v else none
  | none => none

end

/-- A name is read as its characters. -/
def name (s : List Char) : Option (String × List Char) :=
  match quotedBody s with
  | none => none
  | some (cs, rest) => some (String.ofList cs, rest)

/-- Names, texts and numbers are read as what they stand for. -/
def reading : Reading String Json := ⟨name, scalar, arr, obj⟩

/-- The value of a whole text. -/
def ofChars? (s : List Char) : Option Json := reading.whole? depthLimit s

/-- The value of a whole text. -/
def parse? (s : String) : Option Json := ofChars? s.toList

end Linkage.Json
