import Linkage.Proofs.Query.Length
import Linkage.Proofs.Reconcile.Convergence

/-!
# A pass, statement by statement

A pass reads, and then refreshes, deletes and inserts relations, each in a transaction of its own.

* `Query.pass`              the statements of a pass as one query;
* `reconcile_snd`, `reconcile_result`   a pass does what this query does, and reports its counts;
* `Means.pass`              what it makes of the store when no statement fails;
* `Store.stoppedAt`         the store when the statement `n` fails;
* `Runs.pass`               the statements of a pass, and what it leaves when one of them fails.
-/

namespace Linkage

namespace Query

/-- The statements of a pass. -/
def pass (overrides : Overrides) (lookup : Lookup) (now : Int) : Query Counts :=
  registry.bind fun w => converge (Derivation.run w.1 overrides lookup).keys now

end Query

section
variable (overrides : Overrides) (lookup : Lookup) (clock : Clock) (db : Db)

theorem reconcile_snd :
    (reconcile overrides lookup clock db).2 = (Query.pass overrides lookup clock.now db).2 := by
  unfold reconcile Query.pass Query.bind
  cases Query.registry db with
  | mk r after =>
    cases r with
    | error e => rfl
    | ok w =>
      simp only
      split <;> simp_all

theorem reconcile_result : (reconcile overrides lookup clock db).1.result
    = (Query.pass overrides lookup clock.now db).1.map fun c =>
        (db.store.derived overrides lookup).report c clock.elapsed := by
  have hw := Query.Observes.registry.sound db
  unfold reconcile Query.pass Query.bind
  cases hreg : Query.registry db with
  | mk r after =>
    rw [hreg] at hw
    cases r with
    | error e => rfl
    | ok w =>
      have hderived : Derivation.run w.1 overrides lookup = db.store.derived overrides lookup := by
        rw [hw w rfl]
        rfl
      simp only
      rw [hderived]
      cases Query.converge (db.store.derived overrides lookup).keys clock.now after with
      | mk r after => cases r <;> rfl

end

theorem Query.Means.pass (overrides : Overrides) (lookup : Lookup) (now : Int) :
    Means (pass overrides lookup now) fun s =>
      ((s.relations.apply (.of (s.desired overrides lookup) s.relations.rows) now).1,
        setRelations s
          (s.relations.apply (.of (s.desired overrides lookup) s.relations.rows) now).2) :=
  Observes.registry.means.bind fun w => Means.converge (Derivation.run w.1 overrides lookup).keys now

section
variable {overrides : Overrides} {lookup : Lookup} {clock : Clock} {db : Db}

theorem reconcile_report {report : RelationReport}
    (h : (reconcile overrides lookup clock db).1.result = .ok report) :
    ∃ c, (Query.pass overrides lookup clock.now db).1 = .ok c ∧
      report = (db.store.derived overrides lookup).report c clock.elapsed := by
  rw [reconcile_result] at h
  cases hpass : (Query.pass overrides lookup clock.now db).1 with
  | error e =>
    rw [hpass] at h
    cases h
  | ok c =>
    rw [hpass] at h
    cases h
    exact ⟨c, rfl, rfl⟩

/-- the store and the counts after a pass that ends with a report -/
theorem reconcile_ok {report : RelationReport}
    (h : (reconcile overrides lookup clock db).1.result = .ok report) :
    let made := db.store.relations.apply
      (.of (db.store.desired overrides lookup) db.store.relations.rows) clock.now
    (reconcile overrides lookup clock db).2.store = Query.setRelations db.store made.2 ∧
      made.1 = ⟨report.added, report.refreshed, report.deleted⟩ := by
  obtain ⟨c, hpass, rfl⟩ := reconcile_report h
  obtain ⟨hcounts, hstore⟩ := Prod.mk.inj
    ((Query.Means.pass overrides lookup clock.now).sound db c hpass)
  rw [reconcile_snd]
  exact ⟨hstore.symm, hcounts⟩

theorem reconcile_reliable (h : db.Reliable) :
    ∃ report, (reconcile overrides lookup clock db).1.result = .ok report := by
  obtain ⟨c, hc⟩ := (Query.Means.pass overrides lookup clock.now).total db h
  rw [reconcile_result, hc]
  exact ⟨_, rfl⟩

theorem reconcile_error {e : Error}
    (h : (reconcile overrides lookup clock db).1.result = .error e) :
    (Query.pass overrides lookup clock.now db).1 = .error e := by
  rw [reconcile_result] at h
  cases hpass : (Query.pass overrides lookup clock.now db).1 with
  | error e' =>
    rw [hpass] at h
    cases h
    rfl
  | ok c =>
    rw [hpass] at h
    cases h

end

/-! ## the steps -/

namespace Table

/-- The table after the refresh. -/
def refreshed (wanted : KeySet) (now : Int) (t : Table Relation.noKey) : Table Relation.noKey :=
  t.modify (fun r => wanted.contains r.val.key) (Query.checkedAt now) (Query.key_checkedAt now)

/-- The table after the deletion. -/
def cleared (wanted : KeySet) (t : Table Relation.noKey) : Table Relation.noKey :=
  t.remove fun r => !wanted.contains r.val.key

variable {wanted : KeySet} {now : Int} {t : Table Relation.noKey}

theorem refreshed_eq : t.modify (hasId (Difference.of wanted t.rows).refresh) (Query.checkedAt now)
    (Query.key_checkedAt now) = t.refreshed wanted now :=
  modify_congr fun _ hr => Difference.hasId_refresh hr

theorem key_change_checkedAt (p : Row Relation → Bool) (r : Row Relation) :
    (change p (Query.checkedAt now) r).val.key = r.val.key := by
  unfold change
  split <;> rfl

theorem cleared_eq : (t.refreshed wanted now).remove (hasId (Difference.of wanted t.rows).delete)
    = (t.refreshed wanted now).cleared wanted := by
  refine ext (List.filter_congr fun x hx => ?_) rfl
  obtain ⟨r, hr, rfl⟩ := mem_rows_modify.1 hx
  rw [hasId_change, Difference.hasId_delete hr]
  show _ = !!wanted.contains (change _ (Query.checkedAt now) r).val.key
  rw [key_change_checkedAt]

end Table

namespace Difference

/-- The statements with which a pass reads what is stored: three lists for the registry and the
relations, each in a transaction. -/
def reading : Nat := 12

/-- The number of statements up to the end of the refresh. -/
def refreshEnd (d : Difference) : Nat := reading + Query.changeLength d.refresh

/-- The number of statements up to the end of the deletion. -/
def deleteEnd (d : Difference) : Nat := d.refreshEnd + Query.changeLength d.delete

/-- The number of statements of a pass. -/
def passEnd (d : Difference) : Nat := d.deleteEnd + Query.changeLength d.add

end Difference

/-- What a pass leaves of the store `s` when its statement `n` fails. -/
def Store.stoppedAt (wanted : KeySet) (now : Int) (s : Store) (n : Nat) : Store :=
  let d := Difference.of wanted s.relations.rows
  if n < d.refreshEnd then s
  else if n < d.deleteEnd then Query.setRelations s (s.relations.refreshed wanted now)
  else Query.setRelations s ((s.relations.refreshed wanted now).cleared wanted)

namespace Query

theorem Runs.registry : Runs registry (fun _ => 9) fun s _ => s :=
  (Runs.readTransaction _).bind_observes (Observes.read _).transaction fun _ =>
    (Runs.readTransaction _).bind_observes (Observes.read _).transaction fun _ =>
      (Runs.readTransaction _).bind_pure _

/-! ## the three changes -/

theorem Runs.refreshStep (d : Difference) (now : Int) :
    Runs (refreshStep d now) (fun _ => changeLength d.refresh) fun s _ => s :=
  Runs.change (fun _ => Runs.write _ _) (fun ids => Means.refreshBatch ids now) d.refresh

theorem Runs.deleteStep (d : Difference) :
    Runs (deleteStep d) (fun _ => changeLength d.delete) fun s _ => s :=
  Runs.change (fun _ => Runs.write _ _) Means.deleteBatch d.delete

theorem Runs.insertStep (d : Difference) (now : Int) :
    Runs (insertStep d now) (fun _ => changeLength d.add) fun s _ => s :=
  Runs.change (fun _ => Runs.write _ _) (fun keys => Means.insertBatch keys now) d.add

theorem Runs.applyDifference {d : Difference} (hr : d.refresh.Nodup) (now : Int) :
    Runs (applyDifference d now)
      (fun _ => changeLength d.refresh + (changeLength d.delete + changeLength d.add)) fun s n =>
        let refreshed := s.relations.modify (hasId d.refresh) (checkedAt now) (key_checkedAt now)
        if n < changeLength d.refresh then s
        else if n < changeLength d.refresh + changeLength d.delete then setRelations s refreshed
        else setRelations s (refreshed.remove (hasId d.delete)) := by
  refine ((Runs.refreshStep d now).bind (d := fun _ _ => changeLength d.delete + changeLength d.add)
    (Means.refreshStep hr now) fun s => (Runs.deleteStep d).bind (d := fun _ _ => changeLength d.add)
      (Means.deleteStep d) fun u => (Runs.insertStep d now).bind_pure _).congr (fun _ => rfl) ?_
  intro s n _
  by_cases hrefresh : n < changeLength d.refresh
  · simp only [if_pos hrefresh]
  · have hsub : n - changeLength d.refresh < changeLength d.delete ↔
        n < changeLength d.refresh + changeLength d.delete := by omega
    simp only [if_neg hrefresh, hsub]
    rfl

/-- the changes follow the nine statements that read the registry, and three that read relations -/
theorem Runs.converge (wanted : KeySet) (now : Int) : Runs (converge wanted now)
    (fun s => (Difference.of wanted s.relations.rows).passEnd - 9) fun s n =>
      s.stoppedAt wanted now (n + 9) := by
  refine ((Runs.readTransaction _).bind (Observes.read _).transaction.means fun s =>
    Runs.applyDifference (d := .of wanted s.relations.rows) Difference.nodup_refresh
      now).congr (fun s => ?_) fun s n _ => ?_
  · unfold Difference.passEnd Difference.deleteEnd Difference.refreshEnd Difference.reading
    omega
  · have hrefresh : n + 9 < (Difference.of wanted s.relations.rows).refreshEnd ↔
        n < 3 ∨ n - 3 < changeLength (Difference.of wanted s.relations.rows).refresh := by
      unfold Difference.refreshEnd Difference.reading
      omega
    have hdelete : n + 9 < (Difference.of wanted s.relations.rows).deleteEnd ↔
        n < 3 ∨ n - 3 < changeLength (Difference.of wanted s.relations.rows).refresh
          + changeLength (Difference.of wanted s.relations.rows).delete := by
      unfold Difference.deleteEnd Difference.refreshEnd Difference.reading
      omega
    unfold Store.stoppedAt
    simp only [hrefresh, hdelete, Table.refreshed_eq, Table.cleared_eq]
    by_cases hread : n < 3
    · simp only [hread, true_or, if_true]
    · simp only [hread, false_or, if_false]

theorem Runs.pass (overrides : Overrides) (lookup : Lookup) (now : Int) :
    Runs (pass overrides lookup now)
      (fun s => (Difference.of (s.desired overrides lookup) s.relations.rows).passEnd)
      fun s n => s.stoppedAt (s.desired overrides lookup) now n := by
  refine (Runs.registry.bind Observes.registry.means fun s =>
    Runs.converge (s.desired overrides lookup) now).congr (fun s => ?_) fun s n _ => ?_
  · show 9 + ((Difference.of (s.desired overrides lookup) s.relations.rows).passEnd - 9) = _
    unfold Difference.passEnd Difference.deleteEnd Difference.refreshEnd Difference.reading
    omega
  · show (if n < 9 then s else s.stoppedAt _ now (n - 9 + 9)) = _
    by_cases hread : n < 9
    · have hrefresh : n < (Difference.of (s.desired overrides lookup) s.relations.rows).refreshEnd := by
        unfold Difference.refreshEnd Difference.reading
        omega
      unfold Store.stoppedAt
      rw [if_pos hread, if_pos hrefresh]
    · rw [if_neg hread, Nat.sub_add_cancel (Nat.le_of_not_lt hread)]

end Query
end Linkage
