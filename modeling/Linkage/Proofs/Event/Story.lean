import Linkage.Proofs.Rebuild.DryRun
import Linkage.Proofs.Reconcile.Events

/-!
# The events, the report and the counts of a handler agree

A batch and a pass each count in their report what they tell, and a handler that is given the events
counts the warnings and the ownership conflicts among them.

* `Handler.tally_handled`   a handler has counted the events of the messages it was given;
* `events_tell_report`      the three tell the same about every batch and every pass.
-/

namespace Linkage

/-- What a handler has made of events that were sent. -/
def Handler.handled (correlation : Option String) (es : List Event) : Handler :=
  (es.map fun e => e.message correlation).foldl handle .start

theorem Handler.tally_handled (correlation : Option String) (es : List Event) :
    (handled correlation es).tally = Tally.zero.observeAll es := by
  have hevents : (es.map fun e => e.message correlation).map Message.event = es := by
    rw [List.map_map]
    exact List.map_id es
  unfold handled
  rw [foldl_handle, hevents]
  rfl

/-- Whatever is stored, a batch that ends with a report begins with the number of unlinked data-buses,
tells about each of them by one event in the order of their ids, and ends with its report, whose counts
are those of the events.  A pass that ends with a report tells about each row it cannot read and each
lookup that fails, and then its report.  A handler has counted the ownership conflicts apart and every
other skip, row and lookup as a warning.  A run that fails tells no report. -/
theorem events_tell_report (db : Db) :
    (∀ scope dryRun clock,
      let run := (rebuild scope dryRun clock db).1
      let counted := (Handler.handled none run.events).tally
      (db.Reliable → ∃ report, run.result = .ok report) ∧
      (∀ report, run.result = .ok report → RebuildStory scope dryRun db.store run report ∧
        counted.conflicts = report.conflicts ∧
        counted.warnings = report.skipped - report.conflicts) ∧
      ∀ e, run.result = .error e → ∀ report, .link (.completed report) ∉ run.events) ∧
    ∀ overrides lookup clock,
      let run := (reconcile overrides lookup clock db).1
      let counted := (Handler.handled reconcileCorrelation run.events).tally
      (db.Reliable → ∃ report, run.result = .ok report) ∧
      (∀ report, run.result = .ok report → ReconcileStory overrides lookup db.store run report ∧
        counted.conflicts = 0 ∧
        counted.warnings = (db.store.registry.1.clusters.filterMap Derivation.unreadable?).length
          + report.lookupFailures) ∧
      ∀ e, run.result = .error e → ∀ report, .cluster (.completed report) ∉ run.events := by
  refine ⟨fun scope dryRun clock => ⟨exists_report scope dryRun clock, fun report h => ?_,
      fun e => silent_rebuild⟩,
    fun overrides lookup clock => ⟨reconcile_reliable, fun report h => ?_,
      fun e => silent_reconcile⟩⟩
  · have hstory := story_rebuild h
    rw [Handler.tally_handled]
    exact ⟨hstory, hstory.conflicts, Nat.eq_sub_of_add_eq hstory.warnings⟩
  · have hstory := story_reconcile h
    rw [Handler.tally_handled]
    exact ⟨hstory, hstory.conflicts, hstory.warnings⟩

end Linkage
