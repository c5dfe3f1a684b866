import Linkage.Proofs.Rebuild.Batch

/-!
# What the report of a batch counts

* `Visit.tally_counts`   the numbers in the report are those of the visits;
* `reported_rebuild`     a batch that ends with a report has visited every unlinked data-bus, and
                         each visit has answered;
* `Reported.counts`      the numbers that it reports.
-/

namespace Linkage

/-- Whether a visit came to a skip. -/
def Visit.isSkipped (v : Visit) : Bool :=
  match v.answer with
  | .ok (.skipped _, _) => true
  | _ => false

namespace Visit

variable {v : Visit}

theorem isSkipped_iff : v.isSkipped = true ↔ ∃ why, v.CameTo (.skipped why) := by
  unfold isSkipped CameTo
  constructor
  · intro h
    split at h
    · rename_i why event ha
      exact ⟨why, event, ha⟩
    · cases h
  · intro ⟨why, event, ha⟩
    rw [ha]

/-- a visit that answers does what looking at its data-bus does -/
theorem Sound.did_ok {scope : Scope} {dryRun : Bool} {now : Int} (h : v.Sound scope dryRun now)
    {a : Outcome × Event} (ha : v.answer = .ok a) :
    v.before.rebuildBus dryRun now v.bus = (a, v.after) := by
  rcases h.did with ⟨⟨e, he⟩, _⟩ | ⟨a', ha', hdid⟩
  · rw [ha] at he
    cases he
  · rw [ha] at ha'
    cases ha'
    exact hdid

theorem tally_counts {report final : RebuildReport} {vs : List Visit}
    (h : tally report vs = .ok final) : (∀ v ∈ vs, ∃ a, v.answer = .ok a) ∧
      final.total = report.total ∧ final.skipped = report.skipped + vs.countP isSkipped ∧
      final.success + final.skipped = report.success + report.skipped + vs.length := by
  induction vs generalizing report with
  | nil =>
    cases h
    exact ⟨fun v hv => (by cases hv), rfl, rfl, rfl⟩
  | cons v vs ih =>
    rw [tally_cons] at h
    cases ha : v.answer with
    | error e =>
      rw [ha] at h
      cases h
    | ok a =>
      obtain ⟨o, event⟩ := a
      rw [ha] at h
      obtain ⟨hvs, htotal, hskipped, hsum⟩ := ih h
      have hcount : (report.count o).total = report.total ∧
          (report.count o).skipped = report.skipped + (if v.isSkipped then 1 else 0) ∧
          (report.count o).success + (report.count o).skipped
            = report.success + report.skipped + 1 := by
        unfold isSkipped
        rw [ha]
        cases o with
        | linked l => exact ⟨rfl, rfl, Nat.add_right_comm _ _ _⟩
        | planned p => exact ⟨rfl, rfl, Nat.add_right_comm _ _ _⟩
        | skipped why => exact ⟨rfl, rfl, rfl⟩
      obtain ⟨h1, h2, h3⟩ := hcount
      refine ⟨List.forall_mem_cons.2 ⟨⟨_, ha⟩, hvs⟩, htotal.trans h1, ?_, ?_⟩
      · rw [hskipped, h2, List.countP_cons]
        omega
      · rw [hsum, h3, List.length_cons]
        omega

end Visit

/-! ## a batch that ends with a report -/

/-- What a batch that ended with a report told of its visits. -/
structure Reported (scope : Scope) (dryRun : Bool) (clock : Clock) (s : Store) (vs : List Visit)
    (run : RebuildRun) (report : RebuildReport) : Prop where
  buses : vs.map Visit.bus = s.unlinked scope
  answered : ∀ v ∈ vs, ∃ a, v.answer = .ok a
  tally : ∃ final, Visit.tally
      { RebuildReport.start scope dryRun with total := (s.unlinked scope).length } vs = .ok final ∧
    report = { final with duration := clock.elapsed }
  events : run.events = .link (.started scope (s.unlinked scope).length dryRun) ::
    Visit.events vs ++ [.link (.completed report)]

theorem reported_rebuild {scope : Scope} {dryRun : Bool} {clock : Clock} {db : Db}
    {report : RebuildReport} (h : (rebuild scope dryRun clock db).1.result = .ok report) :
    Reported scope dryRun clock db.store (visits scope dryRun clock db)
      (rebuild scope dryRun clock db).1 report := by
  have hobs := Query.Observes.unlinkedBuses scope
  cases hlist : (Query.transaction (Query.unlinkedBuses scope) db).1 with
  | error e =>
    unfold rebuild at h
    rw [Query.eq_mk_of_fst hlist] at h
    cases h
  | ok buses =>
    have hrun := Query.eq_mk_of_fst hlist
    have hbuses : buses = db.store.unlinked scope := hobs.sound db buses hlist
    have heq := rebuild_eq scope dryRun clock hrun
    rw [hbuses] at heq
    cases htally : Visit.tally
        { RebuildReport.start scope dryRun with total := (db.store.unlinked scope).length }
        (visits scope dryRun clock db) with
    | error e =>
      rw [htally] at heq
      rw [heq] at h
      cases h
    | ok final =>
      rw [htally] at heq
      rw [heq] at h
      cases h
      have hok := (Visit.tally_counts htally).1
      refine ⟨?_, hok, ⟨final, htally, rfl⟩, by rw [heq]⟩
      unfold visits at hok ⊢
      rw [hrun] at hok ⊢
      rw [← hbuses]
      exact map_bus_visitEach hok

namespace Reported

variable {scope : Scope} {dryRun : Bool} {clock : Clock} {s : Store} {vs : List Visit}
  {run : RebuildRun} {report : RebuildReport}

theorem counts (h : Reported scope dryRun clock s vs run report) :
    report.total = (s.unlinked scope).length ∧ report.skipped = vs.countP Visit.isSkipped ∧
      report.success + report.skipped = report.total := by
  obtain ⟨final, hfinal, rfl⟩ := h.tally
  obtain ⟨_, htotal, hskipped, hsum⟩ := Visit.tally_counts hfinal
  have hlength : vs.length = (s.unlinked scope).length := by
    rw [← h.buses, List.length_map]
  refine ⟨htotal, hskipped.trans (Nat.zero_add _), ?_⟩
  show final.success + final.skipped = final.total
  rw [hsum, htotal, hlength]
  exact Nat.zero_add _

end Reported

end Linkage
