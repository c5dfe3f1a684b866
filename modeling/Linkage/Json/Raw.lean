import Linkage.Json.Parser
import Linkage.Record

/-!
# Bodies read as far as they are asked for

A reader of a record passes over what it does not ask for, and only the form of that is looked at: it
may hold numbers of any size, halves of pairs of units, bytes that are no text, and arrays and objects
within each other to any depth.  So a body is first taken as a tree of written parts, and a part is
read as what it stands for when somebody asks for it.

* `Json.Raw`          a value as it is written;
* `Raw.parse?`        the value that is written in bytes;
* `Raw.read?`         what a value that is no array or object stands for;
* `Raw.members?`      the members of an object, by what their names stand for.
-/

namespace Linkage.Json

/-- A value as it is written: numbers by their parts, names and texts by theirs. -/
inductive Raw where
  | null
  | bool (b : Bool)
  | num (p : Number.Parts)
  | str (ps : List Piece)
  | arr (xs : List Raw)
  | obj (es : List (List Piece × Raw))

namespace Raw

/-- Bytes as characters, each by its number. -/
def octets (b : ByteArray) : List Char := b.data.toList.map fun x => Char.ofNat x.toNat

/-- A value that is no array or object. -/
def scalar : List Char → Option (Raw × List Char)
  | '"' :: r => (pieces r).map fun x => (str x.1, x.2)
  | 'n' :: 'u' :: 'l' :: 'l' :: r => some (null, r)
  | 't' :: 'r' :: 'u' :: 'e' :: r => some (bool true, r)
  | 'f' :: 'a' :: 'l' :: 's' :: 'e' :: r => some (bool false, r)
  | s => (numberParts s).map fun x => (num x.1, x.2)

/-- Nothing is made of what is written. -/
def reading : Reading (List Piece) Raw := ⟨pieces, scalar, arr, obj⟩

/-- The value that is written in bytes, which are as many as its arrays and objects can be deep. -/
def parse? (b : ByteArray) : Option Raw := reading.whole? (octets b).length (octets b)

/-- The text that parts between quotes stand for, if their bytes are those of a text. -/
def text? (ps : List Piece) : Option String :=
  (joined? (fun c => [c.toNat.toUInt8]) String.utf8EncodeChar ps).bind fun bs =>
    String.fromUTF8? ⟨bs.toArray⟩

/-- What a value stands for that is no array or object. -/
def scalar? : Raw → Option Json
  | null => some .null
  | bool b => some (.bool b)
  | num p => (Number.ofParts? p).map .num
  | str ps => (text? ps).map .str
  | _ => none

/-- A reader of values that are no array or object. -/
def read? {β : Type} (f : Json → Option β) (v : Raw) : Option β := v.scalar?.bind f

/-- The members of an object by their names, all of which must be texts. -/
def members? : Raw → Option (List (String × Raw))
  | obj es => es.mapM fun (k, v) => (text? k).map (·, v)
  | _ => none

def array? : Raw → Option (List Raw)
  | arr xs => some xs
  | _ => none

instance : Written Raw where
  strict := true
  object? := members?
  array? := array?
  isNull
    | null => true
    | _ => false

end Raw
end Linkage.Json
