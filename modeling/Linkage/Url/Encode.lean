import Linkage.Text.Hex

/-!
# Percent signs in URLs

* `Url.escaped`        the bytes of a character behind percent signs;
* `Url.encode`         a text with some of its characters escaped;
* `Url.formEncode`     a text as a value of a form: a space becomes `+`, and only letters, digits and
  `*-._` stand for themselves;
* `Url.decode`         the bytes of a text, percent signs taken for what they stand for.
-/

namespace Linkage.Url

/-- A byte behind a percent sign, in two capital digits. -/
def escapedByte (b : UInt8) : List Char :=
  let digit (n : Nat) : Char := Char.ofNat (if n < 10 then 0x30 + n else 0x37 + n)
  ['%', digit (b.toNat / 16), digit (b.toNat % 16)]

/-- The bytes of a character, each behind a percent sign. -/
def escaped (c : Char) : List Char := (String.utf8EncodeChar c).flatMap escapedByte

/-- The text with the characters of a class escaped. -/
def encode (escapes : Char → Bool) (s : List Char) : List Char :=
  s.flatMap fun c => if escapes c then escaped c else [c]

/-- Characters escaped everywhere: controls, and all outside ASCII. -/
def isForeign (c : Char) : Bool := c.toNat < 0x20 || 0x7f ≤ c.toNat

def escapesInFragment (c : Char) : Bool := isForeign c || " \"<>`".toList.contains c

def escapesInPath (c : Char) : Bool := escapesInFragment c || "#?\x7b\x7d".toList.contains c

def escapesInQuery (c : Char) : Bool := isForeign c || " \"#<>'".toList.contains c

/-- A text as a value of a form. -/
def formEncode (s : List Char) : List Char :=
  s.flatMap fun c =>
    if c = ' ' then ['+']
    else if c.isAlphanum || "*-._".toList.contains c then [c]
    else escaped c

/-- The bytes of a text; two hexadecimal digits behind a percent sign are a byte. -/
def decode : List Char → List UInt8
  | [] => []
  | '%' :: a :: b :: r =>
    match Text.hexDigit? a, Text.hexDigit? b with
    | some m, some n => UInt8.ofNat (m * 16 + n) :: decode r
    | _, _ => 0x25 :: decode (a :: b :: r)
  | c :: r => String.utf8EncodeChar c ++ decode r

end Linkage.Url
