import Linkage.Reconcile.Desired
import Linkage.Store.Spaces

/-!
# Reconciling cluster relations

A pass derives the relations that should be stored and brings the table in line with them: rows with
such a key get the time of the pass, other rows go, missing keys are added.  The three changes are
transactions of their own, so a failure keeps the ones before it.

* `Query.registry`     reads the registry of spaces;
* `Difference.of`      what the table lacks and what it has too much;
* `Query.converge`     the three changes;
* `reconcile`          a whole pass, with its events.
-/

namespace Linkage

/-- The time of a run and how long it takes, in milliseconds. -/
structure Clock where
  now : Int
  elapsed : Nat
  deriving DecidableEq

/-- What the table lacks and what it has too much. -/
structure Difference where
  add : List RelationKey
  refresh : List Int
  delete : List Int
  deriving DecidableEq

namespace Difference

/-- The ids of the rows with each key. -/
def grouped (rows : List (Row Relation)) : Dict RelationKey (List Int) :=
  rows.foldl (fun d r => d.update r.val.key [] (· ++ [r.id])) .empty

/-- The difference between the keys wanted and the rows stored. -/
def of (wanted : KeySet) (rows : List (Row Relation)) : Difference :=
  let stored := grouped rows
  { add := wanted.keys.filter fun k => !stored.contains k
    refresh := (stored.entries.filter fun e => wanted.contains e.1).flatMap Prod.snd
    delete := (stored.entries.filter fun e => !wanted.contains e.1).flatMap Prod.snd }

end Difference

namespace Query

/-- The registry of spaces and the findings while it is read. -/
def registry : Query (Registry × List Note) :=
  (transaction (resources SpaceKind.project.text SpaceKind.container.text)).bind fun clusters =>
    (transaction (spacesOfType SpaceKind.project.text)).bind fun spaces =>
      (transaction (resources SpaceKind.project.text SpaceKind.business.text)).bind fun bound =>
        let b := Bindings.ofRows bound
        pure ({
          clusters
          projectIds := Dict.ofList (spaces.map fun r => (r.val.id, r.val.code))
          businesses := b.businesses }, b.notes)

/-- How many rows were added, refreshed and deleted. -/
structure Counts where
  added : Nat
  refreshed : Nat
  deleted : Nat
  deriving DecidableEq

/-- The three changes, each a transaction unless there is nothing to do. -/
def applyDifference (d : Difference) (now : Int) : Query Counts :=
  (skipIf (d.refresh = []) 0 (transaction (refreshRelations d.refresh now))).bind fun refreshed =>
    (skipIf (d.delete = []) 0 (transaction (deleteRelations d.delete))).bind fun deleted =>
      (skipIf (d.add = []) 0 (transaction (insertRelations d.add now))).bind fun added =>
        pure ⟨added, refreshed, deleted⟩

/-- Brings the table in line with the keys wanted. -/
def converge (wanted : KeySet) (now : Int) : Query Counts :=
  (transaction relations).bind fun rows => applyDifference (.of wanted rows) now

end Query

/-- What a pass told and what came of it. -/
structure ReconcileRun where
  events : List Event
  notes : List Note
  asked : List String
  result : Except Error RelationReport

/-- The correlation of the events of a pass. -/
def reconcileCorrelation : Option String := some "cluster-relations"

def Derivation.report (d : Derivation) (c : Query.Counts) (elapsed : Nat) : RelationReport where
  desired := d.keys.size
  added := c.added
  refreshed := c.refreshed
  deleted := c.deleted
  lookupFailures := d.failures
  duration := elapsed

/-- One pass over the cluster relations. -/
def reconcile (overrides : Overrides) (lookup : Lookup) (clock : Clock) (db : Db) :
    ReconcileRun × Db :=
  match Query.registry db with
  | (.error e, db) => (⟨[], [], [], .error e⟩, db)
  | (.ok (w, notes), db) =>
    let d := Derivation.run w overrides lookup
    let begun := .cluster (.started w.projects.length overrides.size) :: d.events
    match Query.converge d.keys clock.now db with
    | (.error e, db) => (⟨begun, notes ++ d.notes, d.asked, .error e⟩, db)
    | (.ok c, db) =>
      let report := d.report c clock.elapsed
      (⟨begun ++ [.cluster (.completed report)], notes ++ d.notes, d.asked, .ok report⟩, db)

end Linkage
