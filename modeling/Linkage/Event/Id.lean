import Linkage.Text.Cut
import Linkage.Text.Hex

/-!
# Event ids

An event id is a UUID: 32 hexadecimal digits, read with or without hyphens, also in braces or behind
`urn:uuid:`, and written in small letters with hyphens.
-/

namespace Linkage

/-- The id of an event, by its hexadecimal digits in small letters. -/
structure EventId where
  digits : List Char
  deriving DecidableEq

namespace EventId

/-- The lengths of the groups between the hyphens. -/
def groups : List Nat := [8, 4, 4, 4, 12]

/-- The digits in small letters, if all of `s` are hexadecimal. -/
def hex? (s : List Char) : Option (List Char) :=
  if s.all fun c => (Text.hexDigit? c).isSome then some (s.map Char.toLower) else none

/-- The digits of groups with hyphens between them. -/
def hyphenated? (s : List Char) : Option EventId :=
  let parts := Text.splitAt '-' s
  if parts.map List.length = groups then (hex? parts.flatten).map EventId.mk else none

/-- The id that a text writes. -/
def ofText? (s : String) : Option EventId :=
  let cs := s.toList
  if cs.length = 32 then (hex? cs).map EventId.mk
  else if cs.length = 36 then hyphenated? cs
  else if cs.length = 38 ∧ cs.head? = some '\x7b' ∧ cs.getLast? = some '\x7d' then
    hyphenated? (cs.drop 1).dropLast
  else match Text.dropWord? "urn:uuid:".toList cs with
    | some r => hyphenated? r
    | none => none

/-- The first `n` groups of the digits. -/
def cutGroups : List Nat → List Char → List (List Char)
  | [], _ => []
  | n :: ns, s => s.take n :: cutGroups ns (s.drop n)

def text (i : EventId) : String :=
  String.ofList (Text.joinWith ['-'] (cutGroups groups i.digits))

end EventId
end Linkage
