import Linkage.Json.Value

/-!
# Written JSON

* `Json.compact`    a value without blanks;
* `Json.indented`   a value over several lines, two blanks a level.

Both write the members of an object in the order in which it holds them.
-/

namespace Linkage.Json

/-- The four hexadecimal digits of a control character. -/
def controlDigits (c : Char) : List Char :=
  ['0', '0', Nat.digitChar (c.toNat / 16), Nat.digitChar (c.toNat % 16)]

/-- The written form of a character inside double quotes. -/
def escaped (c : Char) : List Char :=
  if c = '"' then ['\\', '"']
  else if c = '\\' then ['\\', '\\']
  else if 0x20 ≤ c.toNat then [c]
  else if c = '\n' then ['\\', 'n']
  else if c = '\r' then ['\\', 'r']
  else if c = '\t' then ['\\', 't']
  else if c.toNat = 0x08 then ['\\', 'b']
  else if c.toNat = 0x0c then ['\\', 'f']
  else '\\' :: 'u' :: controlDigits c

def quotedChars (s : List Char) : List Char := '"' :: s.flatMap escaped ++ ['"']

/-- The word for a truth value. -/
def word : Bool → List Char
  | true => ['t', 'r', 'u', 'e']
  | false => ['f', 'a', 'l', 's', 'e']

mutual

def compactChars : Json → List Char
  | null => ['n', 'u', 'l', 'l']
  | bool b => word b
  | num n => n.chars
  | str s => quotedChars s.toList
  | arr [] => ['[', ']']
  | arr (x :: xs) => '[' :: compactChars x ++ moreItems xs
  | obj [] => ['\x7b', '\x7d']
  | obj ((k, v) :: es) => '\x7b' :: quotedChars k.toList ++ ':' :: compactChars v ++ moreMembers es

/-- The items after the first and the end of their array. -/
def moreItems : List Json → List Char
  | [] => [']']
  | x :: xs => ',' :: compactChars x ++ moreItems xs

/-- The members after the first and the end of their object. -/
def moreMembers : List (String × Json) → List Char
  | [] => ['\x7d']
  | (k, v) :: es => ',' :: quotedChars k.toList ++ ':' :: compactChars v ++ moreMembers es

end

/-- A new line of a level. -/
def newLine (level : Nat) : List Char := '\n' :: List.replicate (2 * level) ' '

mutual

/-- The value over several lines, at a level. -/
def indentedChars (level : Nat) : Json → List Char
  | arr (x :: xs) =>
    '[' :: newLine (level + 1) ++ indentedChars (level + 1) x ++ indentedItems level xs
  | obj ((k, v) :: es) =>
    '\x7b' :: newLine (level + 1) ++ quotedChars k.toList ++ [':', ' '] ++
      indentedChars (level + 1) v ++ indentedMembers level es
  | v => compactChars v

/-- The items after the first, of an array that begins at a level. -/
def indentedItems (level : Nat) : List Json → List Char
  | [] => newLine level ++ [']']
  | x :: xs => ',' :: newLine (level + 1) ++ indentedChars (level + 1) x ++ indentedItems level xs

/-- The members after the first, of an object that begins at a level. -/
def indentedMembers (level : Nat) : List (String × Json) → List Char
  | [] => newLine level ++ ['\x7d']
  | (k, v) :: es =>
    ',' :: newLine (level + 1) ++ quotedChars k.toList ++ [':', ' '] ++
      indentedChars (level + 1) v ++ indentedMembers level es

end

/-- The text of a value without blanks. -/
def compact (v : Json) : String := String.ofList v.compactChars

/-- The text of a value over several lines. -/
def indented (v : Json) : String := String.ofList (v.indentedChars 0)

end Linkage.Json
