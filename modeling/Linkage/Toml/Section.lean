import Linkage.Toml.Value

/-!
# Tables while they are read

A table may be opened by a header, implied by the header of a table within it, or made by a dotted
name; what may be added to it later depends on that.

* `Toml.Section`              the members of a table so far;
* `Toml.Section.assign?`      one more value, under a name that may be dotted;
* `Toml.Section.openTable?`, `Toml.Section.openElement?`   a header for a table, or for one more
  table of a list;
* `Toml.Section.toToml`       the finished table.
-/

namespace Linkage.Toml

/-- How a table came about. -/
inductive Origin where
  | header
  | implied
  | dotted
  deriving DecidableEq

/-- A member of a table that is being read: a finished value, a table, or a list of tables. -/
inductive Item where
  | value (v : Toml)
  | table (origin : Origin) (es : List (String × Item))
  | tables (ts : List (List (String × Item)))

/-- The members of a table so far. -/
abbrev Section : Type := List (String × Item)

namespace Section

/-- The section in which `k` stands for `i`. -/
def put (es : Section) (k : String) (i : Item) : Section :=
  if (es.lookup k).isSome then es.map fun e => if e.1 = k then (k, i) else e
  else es ++ [(k, i)]

/-- The list of tables with `f` done to the last one. -/
def inLast (f : Section → Option Section) (ts : List Section) : Option (List Section) :=
  match ts.getLast? with
  | some es => (f es).map fun es => ts.dropLast ++ [es]
  | none => none

/-- One more value.  A dotted name makes the tables on its way; it may pass through tables that no
header opened, and it may end only in a table that a dotted name made. -/
def assign? (v : Toml) : List String → Section → Option Section
  | [], _ => none
  | [k], es => if (es.lookup k).isSome then none else some (es.put k (.value v))
  | k :: j :: p, es =>
    match es.lookup k with
    | none => (assign? v (j :: p) []).map fun fs => es.put k (.table .dotted fs)
    | some (.table o fs) =>
      if o = .header ∨ (o = .implied ∧ p = []) then none
      else (assign? v (j :: p) fs).map fun fs => es.put k (.table o fs)
    | some (.tables ts) =>
      if p = [] then none else (inLast (assign? v (j :: p)) ts).map fun ts => es.put k (.tables ts)
    | some (.value _) => none

/-- The section after `last` is done to the table that the path without its last name leads to; of a
list of tables the last one counts. -/
def reach? (last : String → Section → Option Section) : List String → Section → Option Section
  | [], _ => none
  | [k], es => last k es
  | k :: j :: p, es =>
    match es.lookup k with
    | none => (reach? last (j :: p) []).map fun fs => es.put k (.table .implied fs)
    | some (.table o fs) => (reach? last (j :: p) fs).map fun fs => es.put k (.table o fs)
    | some (.tables ts) => (inLast (reach? last (j :: p)) ts).map fun ts => es.put k (.tables ts)
    | some (.value _) => none

/-- A header opens a table that was at most implied before. -/
def openTable? : List String → Section → Option Section :=
  reach? fun k es => match es.lookup k with
    | none => some (es.put k (.table .header []))
    | some (.table .implied fs) => some (es.put k (.table .header fs))
    | _ => none

/-- A header adds a table to a list of tables. -/
def openElement? : List String → Section → Option Section :=
  reach? fun k es => match es.lookup k with
    | none => some (es.put k (.tables [[]]))
    | some (.tables ts) => some (es.put k (.tables (ts ++ [[]])))
    | _ => none

/-- One more value in the table that a header opened. -/
def assignIn? (header : List String) (path : List String) (v : Toml) (es : Section) :
    Option Section :=
  if header = [] then assign? v path es
  else reach? (fun k es => match es.lookup k with
    | some (.table o fs) => (assign? v path fs).map fun fs => es.put k (.table o fs)
    | some (.tables ts) => (inLast (assign? v path) ts).map fun ts => es.put k (.tables ts)
    | _ => none) header es

end Section

mutual

/-- The finished value of a member. -/
def Item.toToml : Item → Toml
  | .value v => v
  | .table _ es => .table (Section.members es)
  | .tables ts => .array (Section.elements ts)

/-- The finished members of a table. -/
def Section.members : List (String × Item) → List (String × Toml)
  | [] => []
  | (k, i) :: es => (k, i.toToml) :: Section.members es

/-- The finished tables of a list. -/
def Section.elements : List (List (String × Item)) → List Toml
  | [] => []
  | es :: ts => .table (Section.members es) :: Section.elements ts

end

def Section.toToml (es : Section) : Toml := .table (Section.members es)

end Linkage.Toml
