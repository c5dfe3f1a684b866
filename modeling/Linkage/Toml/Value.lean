import Linkage.Record

/-!
# TOML values

* `Toml`               a value of a configuration text;
* `Toml.constant?`     the constant that a value names;
* `Toml.texts?`        the texts of a table of texts.

A date or a time may stand where a table is asked for, as a table with one member.
-/

namespace Linkage

/-- A TOML value; a number that is not whole, a date and a time are kept as text. -/
inductive Toml where
  | text (s : String)
  | int (i : Int)
  | real (s : String)
  | bool (b : Bool)
  | moment (s : String)
  | array (xs : List Toml)
  | table (es : List (String × Toml))
  deriving Inhabited

namespace Toml

/-- The name of the only member of a date or a time. -/
def momentName : String := "$__toml_private_datetime"

def table? : Toml → Option (List (String × Toml))
  | table es => some es
  | moment s => some [(momentName, text s)]
  | _ => none

def array? : Toml → Option (List Toml)
  | array xs => some xs
  | _ => none

instance : Written Toml where
  strict := false
  object? := table?
  array? := array?
  isNull _ := false

/-- The text that a value is. -/
def text? : Toml → Option String
  | text s => some s
  | _ => none

/-- The count up to `max` that a value is. -/
def count? (max : Nat) : Toml → Option Nat
  | int (.ofNat n) => if n ≤ max then some n else none
  | _ => none

/-- The texts of a table of texts. -/
def texts? (v : Toml) : Option (List (String × String)) :=
  v.table?.bind (List.mapM fun e => e.2.text?.map (e.1, ·))

/-- What the name of a constant stands for: a text, or a table whose only member has this name and is
empty. -/
def constant? {α : Type} (ofText? : String → Option α) : Toml → Option α
  | text s => ofText? s
  | table [(s, table [])] => ofText? s
  | table [(s, array [])] => ofText? s
  | _ => none

end Toml
end Linkage
