import Linkage.Json.Value

/-!
# Reading a record

A record is written as an object with its members by name, or as an array of them in the order of
their declaration.  Members nobody asks for are ignored in an object; a member that is asked for may
not be repeated.  Whether an array may be longer than the record is for the format to say.

* `Record.of?`       the members of a written record;
* `required`         a member that must be there;
* `optional`         a member that may be missing or empty in an object, but not in an array;
* `defaulted`        a member with a value of its own for when it is missing.
-/

namespace Linkage

/-- Values in which a record can be written. -/
class Written (α : Type) where
  /-- whether an array may not be longer than a record -/
  strict : Bool
  /-- the members of an object -/
  object? : α → Option (List (String × α))
  /-- the items of an array -/
  array? : α → Option (List α)
  /-- whether a value stands for nothing -/
  isNull : α → Bool

instance : Written Json where
  strict := true
  object? := Json.object?
  array? := Json.array?
  isNull
    | .null => true
    | _ => false

/-- The members of a record that are there. -/
structure Record (α : Type) where
  members : List (String × α)
  byPlace : Bool

namespace Record

section
variable {α β : Type}

/-- The value of the first member called `name`. -/
def find? (r : Record α) (name : String) : Option α :=
  (r.members.find? fun e => e.1 = name).map Prod.snd

/-- The record with the given members, if the value is one. -/
def of? [Written α] (names : List String) (v : α) : Option (Record α) :=
  match Written.object? v with
  | some es =>
    if names.all fun n => es.countP (fun e => e.1 = n) ≤ 1 then some ⟨es, false⟩ else none
  | none => match Written.array? v with
    | some xs =>
      if Written.strict α ∧ names.length < xs.length then none else some ⟨names.zip xs, true⟩
    | none => none

/-- A member that must be there. -/
def required (r : Record α) (name : String) (read : α → Option β) : Option β :=
  (r.find? name).bind read

/-- A member with the value `b` if it is missing. -/
def defaulted (r : Record α) (name : String) (b : β) (read : α → Option β) : Option β :=
  match r.find? name with
  | none => some b
  | some v => read v

/-- A value that may stand for nothing. -/
def nullable [Written α] (read : α → Option β) (v : α) : Option (Option β) :=
  if Written.isNull v then some none else (read v).map some

/-- A member that may stand for nothing, and may be missing from an object. -/
def optional [Written α] (r : Record α) (name : String) (read : α → Option β) :
    Option (Option β) :=
  match r.find? name with
  | none => if r.byPlace then none else some none
  | some v => nullable read v

end

end Record
end Linkage
