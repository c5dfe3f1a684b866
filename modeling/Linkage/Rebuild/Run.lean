import Linkage.Event.Basic
import Linkage.Rebuild.Resolve
import Linkage.Reconcile.Run

/-!
# Rebuilding the links of data-buses

A batch takes the data-buses of a scope that no link owns, in the order of their ids, and links each
one that resolves.  A dry run only plans.  A failure of the store ends the batch; what was linked
before it stays linked.

* `Query.rebuildBus`   one data-bus;
* `rebuild`            the batch, with its events and its report.
-/

namespace Linkage

/-- What became of a data-bus. -/
inductive Outcome where
  | linked (row : Row Link)
  | planned (plan : Plan)
  | skipped (reason : SkipReason)
  deriving DecidableEq

/-- The report with the outcome of one more data-bus. -/
def RebuildReport.count (r : RebuildReport) : Outcome → RebuildReport
  | .linked _ => r.link
  | .planned p => r.plan p
  | .skipped reason => r.skip reason

namespace Query

/-- Links a data-bus that resolves, or plans to; the event tells which. -/
def rebuildBus (dryRun : Bool) (now : Int) (b : Row Bus) : Query (Outcome × Event) :=
  (resolve b.val).bind fun
    | .error s => pure (.skipped s.reason, .link (.skipped b.val.name s.reason s.detail))
    | .ok r =>
      if dryRun then
        pure (.planned (r.plan b.val), .link (.planned b.val.name r.link r.strategy))
      else (commitLink (r.commit b) now).bind fun u =>
        pure (.linked u.row,
          .link (.linked b.val.name u.row.val.name r.strategy r.tableIds u.created))

end Query

/-- What a batch told and what came of it. -/
structure RebuildRun where
  events : List Event
  result : Except Error RebuildReport

/-- The data-buses of a batch, one after the other. -/
def rebuildEach (dryRun : Bool) (now : Int) (report : RebuildReport) :
    List (Row Bus) → Db → RebuildRun × Db
  | [], db => (⟨[], .ok report⟩, db)
  | b :: bs, db => match Query.rebuildBus dryRun now b db with
    | (.error e, db) => (⟨[], .error e⟩, db)
    | (.ok (outcome, event), db) =>
      let (run, db) := rebuildEach dryRun now (report.count outcome) bs db
      (⟨event :: run.events, run.result⟩, db)

/-- One batch over the data-buses of a scope. -/
def rebuild (scope : Scope) (dryRun : Bool) (clock : Clock) (db : Db) : RebuildRun × Db :=
  match Query.transaction (Query.unlinkedBuses scope) db with
  | (.error e, db) => (⟨[], .error e⟩, db)
  | (.ok buses, db) =>
    let report := { RebuildReport.start scope dryRun with total := buses.length }
    let begun := Event.link (.started scope buses.length dryRun)
    match rebuildEach dryRun clock.now report buses db with
    | (⟨events, .error e⟩, db) => (⟨begun :: events, .error e⟩, db)
    | (⟨events, .ok report⟩, db) =>
      let report := { report with duration := clock.elapsed }
      (⟨begun :: events ++ [.link (.completed report)], .ok report⟩, db)

end Linkage
