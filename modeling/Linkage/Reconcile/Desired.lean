import Linkage.Lookup.Basic
import Linkage.Overrides

/-!
# The relations that should be stored

Every cluster of a project relates to the project's business, or to the business that an override
forces.  When the project has a container space with a business id of its own, the cluster relates to
that id as well.

* `Registry`              what the registry of spaces says;
* `Derivation.mention`    what one cluster of a project adds;
* `Derivation.run`        what all rows of clusters add, in their order.

The container space of a project is looked up at most once, when the first cluster of the project
adds a relation; the answer is kept, also when it is a failure.
-/

namespace Linkage

/-- A set of relation keys in order. -/
abbrev KeySet := Dict RelationKey Unit

/-- What the registry of spaces says. -/
structure Registry where
  /-- the rows that name the clusters of projects -/
  clusters : List (Row Resource)
  /-- the id of each project, by its code -/
  projectIds : Dict String String
  /-- the business of each project, by the project's code -/
  businesses : Dict String String

/-- The businesses that rows bind projects to. -/
structure Bindings where
  businesses : Dict String String
  notes : List Note

namespace Bindings

/-- One more row; a later business replaces an earlier one. -/
def add (b : Bindings) (r : Row Resource) : Bindings :=
  match r.val.target.filter fun t => t ≠ "" with
  | none => b
  | some business =>
    { businesses := b.businesses.put r.val.spaceId business
      notes := match b.businesses.get? r.val.spaceId with
        | some previous => b.notes ++ [.businessReplaced r.val.spaceId previous]
        | none => b.notes }

def ofRows (rs : List (Row Resource)) : Bindings := rs.foldl add ⟨.empty, []⟩

end Bindings

namespace Registry

/-- The business a cluster of a project relates to. -/
def related (w : Registry) (overrides : Overrides) (project cluster : String) : Option String :=
  (overrides.get? cluster).or (w.businesses.get? project)

/-- The codes of the projects that have rows of clusters. -/
def projects (w : Registry) : List String :=
  (Dict.ofList (w.clusters.map fun r => (r.val.spaceId, ()))).keys

end Registry

/-- The relations found so far, and what happened on the way. -/
structure Derivation where
  keys : KeySet
  /-- the container businesses that were looked up, by project -/
  known : Dict String (Option Int)
  failures : Nat
  events : List Event
  notes : List Note
  /-- the uids that were looked up, in order -/
  asked : List String

namespace Derivation

def start : Derivation := ⟨.empty, .empty, 0, [], [], []⟩

def add (d : Derivation) (k : RelationKey) : Derivation := { d with keys := d.keys.put k () }

/-- The business id of a project's container space that an answer gives; zero stands for none. -/
def businessOf : Except Error SpaceDetail → Option Int
  | .ok a => if a.business = 0 then none else some a.business
  | .error _ => none

/-- The lookup of a project's container space. -/
def ask (d : Derivation) (lookup : Lookup) (project : String) : Derivation :=
  let uid := spaceUid .project project
  let answer := lookup.answer uid
  let d := { d with
    known := d.known.put project (businessOf answer)
    notes := d.notes ++ lookup.notes uid
    asked := d.asked ++ [uid] }
  match answer with
  | .ok _ => d
  | .error e =>
    { d with
      failures := d.failures + 1
      events := d.events ++ [.cluster (.lookupFailed project uid e.isSpaceNotFound e.message)] }

/-- The container business of a project, looked up if it is not known yet. -/
def container (d : Derivation) (lookup : Lookup) (project : String) : Derivation × Option Int :=
  match d.known.get? project with
  | some b => (d, b)
  | none => (d.ask lookup project, businessOf (lookup.answer (spaceUid .project project)))

/-- What one cluster of a project adds. -/
def mention (w : Registry) (overrides : Overrides) (lookup : Lookup) (project : String)
    (d : Derivation) (cluster : String) : Derivation :=
  match w.projectIds.get? project, w.related overrides project cluster with
  | some id, some related =>
    match (d.add ⟨related, related, id, cluster⟩).container lookup project with
    | (d, some b) => d.add ⟨related, Text.Decimal.text b, id, cluster⟩
    | (d, none) => d
  | _, _ => { d with notes := d.notes ++ [.clusterSkipped project cluster] }

/-- The warning about a row whose dimensions cannot be read. -/
def unreadable (r : Row Resource) (e : Error) : Event :=
  .general (.warning
    ("unreadable dimension values for project " ++ r.val.spaceId ++ " (resource " ++
      Text.Decimal.text r.id ++ "), resource skipped") e.userMessage)

def row (w : Registry) (overrides : Overrides) (lookup : Lookup) (d : Derivation)
    (r : Row Resource) : Derivation :=
  match r.val.clusterIds with
  | .ok clusters => clusters.foldl (mention w overrides lookup r.val.spaceId) d
  | .error e => { d with events := d.events ++ [unreadable r e] }

def run (w : Registry) (overrides : Overrides) (lookup : Lookup) : Derivation :=
  w.clusters.foldl (row w overrides lookup) start

end Derivation
end Linkage
