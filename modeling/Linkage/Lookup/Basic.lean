import Linkage.Event.Log
import Linkage.Space
import Linkage.Store.Basic

/-!
# Looking up spaces

* `Lookup`            answers a space uid with the business id of the space;
* `Lookup.ofStore`    the lookup in the table of spaces: a business has its own number, any other
  space the negated id of its row.
-/

namespace Linkage

/-- What is known about a space. -/
structure SpaceDetail where
  uid : String
  business : Int
  deriving DecidableEq

/-- Answers space uids, and notes what it finds. -/
structure Lookup where
  answer : String → Except Error SpaceDetail
  notes : String → List Note

namespace Lookup

/-- The business id of a space that has a row. -/
def businessOf (uid : String) (k : SpaceKind) (r : Row Space) : Except Error Int :=
  match k with
  | .business => match Text.Decimal.int64? r.val.id.toList with
    | some i => .ok i
    | none => .error (.space (.invalidUid uid))
  | _ => .ok (-r.id)

/-- The answer from the table of spaces. -/
def inStore (s : Store) (uid : String) : Except Error SpaceDetail :=
  match splitUid? uid with
  | none => .error (.space (.invalidUid uid))
  | some (k, id) =>
    match s.spaces.find? fun r => r.val.type = k.text ∧ r.val.id = id with
    | none => .error (.space (.notFound uid))
    | some r => (businessOf uid k r).map fun b => ⟨uid, b⟩

/-- The lookup in the table of spaces. -/
def ofStore (s : Store) : Lookup where
  answer := inStore s
  notes uid := match inStore s uid with
    | .ok d => [.spaceResolved uid d.business]
    | .error _ => []

/-- The lookup that answers from a list of uids; a uid that is not in it is not found. -/
def ofList (es : List (String × Except Error Int)) : Lookup where
  answer uid := match es.lookup uid with
    | some (.ok b) => .ok ⟨uid, b⟩
    | some (.error e) => .error e
    | none => .error (.space (.notFound uid))
  notes _ := []

end Lookup
end Linkage
