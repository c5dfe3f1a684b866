import Linkage.Proofs.Reconcile.Asked
import Linkage.Proofs.Reconcile.Locality

/-!
# One lookup for each project with relations

A pass looks up the container space of a project when the project has a relation without it, and looks
it up once, however many clusters the project has and whatever the answer is.

* `Store.contributing`      the projects with relations, in the order of their first one;
* `asked_reconcile`         a pass that has read the registry has asked for these;
* `length_failures`         failures are counted by project;
* `lookups_once`            the lookups of every pass.
-/

namespace Linkage

/-- The projects with relations, each once, in the order of the first cluster that has one. -/
def Store.contributing (s : Store) (overrides : Overrides) : List String :=
  ((s.contributions overrides).map Prod.fst).eraseDups

theorem Store.mem_contributing_iff {s : Store} {overrides : Overrides} {project : String} :
    project ∈ s.contributing overrides ↔ ∃ k, s.Relates overrides project k := by
  unfold contributing
  rw [List.mem_eraseDups, ← contributors_eq, mem_contributors_iff]

/-- a project has a relation without the lookup when it has one at all -/
theorem Store.exists_declares_iff {s : Store} {overrides : Overrides} {lookup : Lookup}
    {project : String} :
    (∃ k, s.Declares overrides lookup project k) ↔ ∃ k, s.Relates overrides project k := by
  constructor
  · intro ⟨k, hk⟩
    obtain ⟨first, hfirst, -⟩ := declares_iff.1 hk
    exact ⟨first, hfirst⟩
  · intro ⟨k, hk⟩
    exact ⟨k, declares_iff.2 ⟨k, hk, .inl rfl⟩⟩

section
variable (overrides : Overrides) (lookup : Lookup) (clock : Clock) (db : Db)

/-- a pass asks when it has read the registry, and not before -/
theorem asked_reconcile :
    (∀ w, (Query.registry db).1 = .ok w → (reconcile overrides lookup clock db).1.asked
      = (db.store.contributing overrides).map (spaceUid .project)) ∧
    ∀ e, (Query.registry db).1 = .error e →
      (reconcile overrides lookup clock db).1.asked = [] ∧
      (reconcile overrides lookup clock db).1.result = .error e := by
  have hw := Query.Observes.registry.sound db
  have hasked := (Derivation.asked_run db.store.registry.1 overrides lookup).asked
  rw [Store.contributors_eq] at hasked
  unfold reconcile
  cases hreg : Query.registry db with
  | mk r after =>
    rw [hreg] at hw
    cases r with
    | error e =>
      refine ⟨nofun, fun e' he => ?_⟩
      cases he
      exact ⟨rfl, rfl⟩
    | ok w =>
      obtain rfl : w = db.store.registry := (hw w rfl)
      refine ⟨fun _ _ => ?_, nofun⟩
      simp only
      split <;> exact hasked

end

theorem Derivation.length_failures (lookup : Lookup) (ps : List String) :
    (ps.filterMap (failure? lookup)).length
      = (ps.filter fun p => !(lookup.answer (spaceUid .project p)).isOk).length := by
  rw [List.length_filterMap_eq_countP, List.countP_eq_length_filter]
  refine congrArg List.length (List.filter_congr fun p _ => ?_)
  unfold failure?
  cases lookup.answer (spaceUid .project p) <;> rfl

/-- The lookups of a pass over any store, whatever the lookup answers.  A pass that has read the
registry has asked for the container space of each project that has a relation without it, of no other
project and of none twice, in the order of the first cluster of such a relation; a pass that fails before
has asked for none.  A pass with a report has counted the projects whose lookup failed. -/
theorem lookups_once (overrides : Overrides) (lookup : Lookup) (clock : Clock) (db : Db) :
    let run := (reconcile overrides lookup clock db).1
    let projects := db.store.contributing overrides
    run.asked.Nodup ∧
    (∀ p, p ∈ projects ↔ ∃ k, db.store.Declares overrides lookup p k) ∧
    (∀ p c, (p, c) ∈ db.store.contributions overrides ↔
      ∃ k, db.store.Relates overrides p k ∧ k.cluster = c) ∧
    (∀ w, (Query.registry db).1 = .ok w → run.asked = projects.map (spaceUid .project)) ∧
    (∀ e, (Query.registry db).1 = .error e → run.asked = [] ∧ run.result = .error e) ∧
    (∀ report, run.result = .ok report → run.asked = projects.map (spaceUid .project) ∧
      report.lookupFailures
        = (projects.filter fun p => !(lookup.answer (spaceUid .project p)).isOk).length) ∧
    (db.Reliable → ∃ report, run.result = .ok report) := by
  obtain ⟨hread, hfailed⟩ := asked_reconcile overrides lookup clock db
  have hnodup : ((db.store.contributing overrides).map (spaceUid .project)).Nodup :=
    (nodup_eraseDups _).map fun _ _ => spaceUid_injective
  refine ⟨?_, fun p => ?_, fun p c => Store.mem_contributions_iff, hread, hfailed, fun report h => ?_,
    reconcile_reliable⟩
  · cases hreg : (Query.registry db).1 with
    | error e =>
      rw [(hfailed e hreg).1]
      exact .nil
    | ok w =>
      rw [hread w hreg]
      exact hnodup
  · rw [Store.mem_contributing_iff, Store.exists_declares_iff]
  · have hcounted := (Derivation.asked_run db.store.registry.1 overrides lookup).counted
    rw [Store.contributors_eq] at hcounted
    refine ⟨?_, ?_⟩
    · cases hreg : (Query.registry db).1 with
      | error e =>
        rw [(hfailed e hreg).2] at h
        cases h
      | ok w => exact hread w hreg
    · obtain ⟨c, -, rfl⟩ := reconcile_report h
      exact hcounted.trans (Derivation.length_failures lookup _)

end Linkage
