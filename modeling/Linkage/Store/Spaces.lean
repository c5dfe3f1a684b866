import Linkage.Store.Query

/-!
# Queries on spaces, their resources and cluster relations

Lists come in the order of ids.  Changes of relations by a list of ids or keys are done in batches.
-/

namespace Linkage.Query

/-- Adds a row, whose id is the answer, to a table that the functions read and replace. -/
def insertRow {α κ : Type} [DecidableEq κ] {key : α → Option κ}
    (touches : List (TableName × RowEvent)) (get : Store → Table key)
    (set : Store → Table key → Store) (a : α) : Query Int :=
  write (fun _ => touches) fun s =>
    match (get s).insert? a with
    | some (t, id) => .ok (id, set s t)
    | none => .error taken

def insertSpace (a : Space) : Query Int :=
  insertRow [] Store.spaces (fun s t => { s with spaces := t }) a

def spacesOfType (type : String) : Query (List (Row Space)) :=
  read fun s => s.spaces.select fun r => r.val.type = type

/-- The space with a type and an id. -/
def space? (type id : String) : Query (Option (Row Space)) :=
  read fun s => s.spaces.find? fun r => r.val.type = type ∧ r.val.id = id

def insertResource (a : Resource) : Query Int :=
  insertRow [] Store.resources (fun s t => { s with resources := t }) a

/-- The resources of a type that are bound to spaces of a type. -/
def resources (spaceType type : String) : Query (List (Row Resource)) :=
  read fun s => s.resources.select fun r => r.val.spaceType = spaceType ∧ r.val.type = type

/-- Removes the resources of a type that are bound to a space; the answer is their number. -/
def deleteResources (spaceType spaceId type : String) : Query Nat :=
  let p (r : Row Resource) : Bool :=
    r.val.spaceType = spaceType ∧ r.val.spaceId = spaceId ∧ r.val.type = type
  write (fun _ => []) fun s => .ok (s.resources.count p, { s with resources := s.resources.remove p })

def relations : Query (List (Row Relation)) := read fun s => s.relations.rows

/-- The row operations of an update of the relations that satisfy a condition. -/
def touchedRelations (event : RowEvent) (p : Row Relation → Bool) (s : Store) :
    List (TableName × RowEvent) :=
  if s.relations.rows.any p then [(.relations, event)] else []

/-- Sets the time of the relations with the given ids, in one statement. -/
def refreshBatch (ids : List Int) (time : Int) : Query Nat :=
  let p (r : Row Relation) : Bool := ids.contains r.id
  write (touchedRelations .update p) fun s =>
    .ok (s.relations.count p, { s with
      relations := s.relations.modify p (fun a => { a with checked := time }) fun _ => rfl })

/-- Removes the relations with the given ids, in one statement. -/
def deleteBatch (ids : List Int) : Query Nat :=
  let p (r : Row Relation) : Bool := ids.contains r.id
  write (touchedRelations .delete p) fun s =>
    .ok (s.relations.count p, { s with relations := s.relations.remove p })

/-- Adds rows to a table one after the other. -/
def addRows {α κ : Type} [DecidableEq κ] {key : α → Option κ} (t : Table key) :
    List α → Except Error (Table key)
  | [] => .ok t
  | a :: as => match t.insert? a with
    | some (t, _) => addRows t as
    | none => .error taken

/-- Adds a relation for each key, in one statement. -/
def insertBatch (keys : List RelationKey) (time : Int) : Query Nat :=
  write (fun _ => if keys = [] then [] else [(.relations, .insert)]) fun s =>
    (addRows s.relations (keys.map fun k => ⟨k, time⟩)).map fun t =>
      (keys.length, { s with relations := t })

/-- Sets the time of the relations with the given ids; the answer is their number. -/
def refreshRelations (ids : List Int) (time : Int) : Query Nat :=
  total (fun ids => refreshBatch ids time) (batches ids)

/-- Removes the relations with the given ids; the answer is their number. -/
def deleteRelations (ids : List Int) : Query Nat := total deleteBatch (batches ids)

/-- Adds a relation for each key; the answer is their number. -/
def insertRelations (keys : List RelationKey) (time : Int) : Query Nat :=
  total (fun keys => insertBatch keys time) (batches keys)

/-- Business ids by the whole number they begin with, equal ones in the order of their texts. -/
def businessOrder (a b : String) : Ordering :=
  compareLex (compareOn fun s : String => Text.Decimal.leadingInt64 s.toList) compare a b

/-- The distinct business ids related to a cluster, in order. -/
def businessIds (cluster : String) : Query (List String) :=
  read fun s =>
    let ids := (s.relations.select fun r => r.val.key.cluster = cluster).map (·.val.key.business)
    ids.eraseDups.mergeSort fun a b => businessOrder a b ≠ .gt

end Linkage.Query
