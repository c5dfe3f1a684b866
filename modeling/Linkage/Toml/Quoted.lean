import Linkage.Text.Hex

/-!
# Texts in quotes of a TOML text

Double quotes allow escapes and single quotes do not.  Three quotes of a kind open a text of several
lines; it ends at the next three, of which up to two more may stand before it.

* `Toml.basic`, `Toml.literal`              a text on one line, its opening quote read;
* `Toml.basicLines`, `Toml.literalLines`    a text of several lines, its opening quotes read;
* `Toml.quoted?`                            a text on one line or several.
-/

namespace Linkage.Toml

/-- Characters that separate the parts of a line. -/
def isSpace (c : Char) : Bool := c = ' ' || c = '\t'

/-- Characters that may stand for themselves in a text or a comment. -/
def isPlain (c : Char) : Bool := c = '\t' || (0x20 ≤ c.toNat && c.toNat ≠ 0x7f)

/-- The character that a backslash before `c` stands for. -/
def escape? (c : Char) : Option Char :=
  if c = '"' ∨ c = '\\' then some c
  else if c = 'b' then some (Char.ofNat 0x08)
  else if c = 't' then some '\t'
  else if c = 'n' then some '\n'
  else if c = 'f' then some (Char.ofNat 0x0c)
  else if c = 'r' then some '\r'
  else none

/-- The character with the number that hexadecimal digits write. -/
def codePoint? (ds : List Char) : Option Char :=
  match Text.digitsIn? 16 ds with
  | some n => if n.isValidChar then some (Char.ofNat n) else none
  | none => none

/-- A character before a text that may have been read. -/
def before (c : Option Char) (p : Option (List Char × List Char)) :
    Option (List Char × List Char) :=
  match c, p with
  | some c, some (cs, rest) => some (c :: cs, rest)
  | _, _ => none

/-- A text up to its closing double quote, and the rest behind it. -/
def basic : List Char → Option (List Char × List Char)
  | [] => none
  | '"' :: r => some ([], r)
  | '\\' :: 'u' :: a :: b :: c :: d :: r => before (codePoint? [a, b, c, d]) (basic r)
  | '\\' :: 'U' :: a :: b :: c :: d :: e :: f :: g :: h :: r =>
    before (codePoint? [a, b, c, d, e, f, g, h]) (basic r)
  | '\\' :: c :: r => before (escape? c) (basic r)
  | c :: r => if isPlain c ∧ c ≠ '\\' then before (some c) (basic r) else none

/-- A text up to its closing single quote, and the rest behind it. -/
def literal : List Char → Option (List Char × List Char)
  | [] => none
  | '\'' :: r => some ([], r)
  | c :: r => if isPlain c then before (some c) (literal r) else none

/-- Whether nothing but blanks stands before the end of the line. -/
def endsLine (s : List Char) : Bool :=
  match s.dropWhile isSpace with
  | '\n' :: _ => true
  | '\r' :: '\n' :: _ => true
  | _ => false

/-- Up to two quotes before three that were read belong to the text. -/
def closing (q : Char) : List Char → List Char × List Char
  | a :: b :: r => if a = q then (if b = q then ([q, q], r) else ([q], b :: r)) else ([], a :: b :: r)
  | [a] => if a = q then ([q], []) else ([], [a])
  | [] => ([], [])

/-- The text without the line break at its start. -/
def dropBreak : List Char → List Char
  | '\n' :: r => r
  | '\r' :: '\n' :: r => r
  | r => r

/-- A text up to three double quotes; a backslash at the end of a line removes all blanks and breaks
up to the next character, which is what `joining` stands for. -/
def basicLines (joining : Bool) : List Char → Option (List Char × List Char)
  | [] => none
  | '"' :: '"' :: '"' :: r => some (closing '"' r)
  | '\\' :: 'u' :: a :: b :: c :: d :: r =>
    before (codePoint? [a, b, c, d]) (basicLines false r)
  | '\\' :: 'U' :: a :: b :: c :: d :: e :: f :: g :: h :: r =>
    before (codePoint? [a, b, c, d, e, f, g, h]) (basicLines false r)
  | '\\' :: c :: r =>
    if endsLine (c :: r) then basicLines true (c :: r)
    else before (escape? c) (basicLines false r)
  | '\r' :: '\n' :: r =>
    if joining then basicLines true r else before (some '\n') (basicLines false r)
  | c :: r =>
    if joining ∧ (isSpace c ∨ c = '\n') then basicLines true r
    else if c = '\n' ∨ (isPlain c ∧ c ≠ '\\') then before (some c) (basicLines false r)
    else none

/-- A text up to three single quotes. -/
def literalLines : List Char → Option (List Char × List Char)
  | [] => none
  | '\'' :: '\'' :: '\'' :: r => some (closing '\'' r)
  | '\r' :: '\n' :: r => before (some '\n') (literalLines r)
  | c :: r => if c = '\n' ∨ isPlain c then before (some c) (literalLines r) else none

/-- A text in quotes on one line. -/
def quotedName? : List Char → Option (List Char × List Char)
  | '"' :: r => basic r
  | '\'' :: r => literal r
  | _ => none

/-- A text in quotes, on one line or several. -/
def quoted? : List Char → Option (List Char × List Char)
  | '"' :: '"' :: '"' :: r => basicLines false (dropBreak r)
  | '\'' :: '\'' :: '\'' :: r => literalLines (dropBreak r)
  | s => quotedName? s

end Linkage.Toml
