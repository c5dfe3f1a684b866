import Mathlib.Logic.Relation
import Linkage.Proofs.Reconcile.Pass

/-!
# A pass that is stopped is healed by the next one

A pass can fail at any of its statements.  It then stands between two of its three changes, and the
rows of wanted keys are the same at each of these places, whatever their times are.

* `Table.keyed`           the ids and the keys of the rows;
* `Table.Alike`           two tables with the same rows of wanted keys, as to ids and keys;
* `Alike.keyed_apply`     the changes make the same of them;
* `Table.Settled`         a table that has just the wanted keys, which another pass leaves as it is;
* `Interrupted.healed`    the next pass that succeeds ends where one that was not stopped does;
* `reconcile_healed`      where a pass fails, what it leaves, and that the next ones make up for it.
-/

namespace Linkage

namespace Table

/-- The ids and the keys of the rows. -/
def keyed (t : Table Relation.noKey) : List (Int × RelationKey) :=
  t.rows.map fun r => (r.id, r.val.key)

/-- The same rows of wanted keys, as to ids and keys, and the same next id. -/
structure Alike (wanted : KeySet) (t u : Table Relation.noKey) : Prop where
  last : u.last = t.last
  keyed : (u.keyed.filter fun p => wanted.contains p.2)
    = t.keyed.filter fun p => wanted.contains p.2

variable {wanted : KeySet} {now : Int} {t u : Table Relation.noKey}

theorem Alike.refl (wanted : KeySet) (t : Table Relation.noKey) : Alike wanted t t := ⟨rfl, rfl⟩

theorem Alike.trans {v : Table Relation.noKey} (h : Alike wanted t u) (h' : Alike wanted u v) :
    Alike wanted t v := ⟨h'.last.trans h.last, h'.keyed.trans h.keyed⟩

theorem mem_filter_keyed {i : Int} {k : RelationKey} :
    (i, k) ∈ t.keyed.filter (fun p => wanted.contains p.2) ↔
      k ∈ wanted.keys ∧ ∃ r ∈ t.rows, r.id = i ∧ r.val.key = k := by
  rw [List.mem_filter, and_comm, Dict.contains_iff]
  unfold keyed
  simp only [List.mem_map, Prod.mk.injEq]

theorem Alike.kept (h : Alike wanted t u) {r : Row Relation} (hr : r ∈ t.rows)
    (hk : r.val.key ∈ wanted.keys) : ∃ x ∈ u.rows, x.id = r.id ∧ x.val.key = r.val.key := by
  have hmem := mem_filter_keyed.2 ⟨hk, r, hr, rfl, rfl⟩
  rw [← h.keyed] at hmem
  exact (mem_filter_keyed.1 hmem).2

theorem keyed_modify (p : Row Relation → Bool) :
    (t.modify p (Query.checkedAt now) (Query.key_checkedAt now)).keyed = t.keyed := by
  show (t.rows.map _).map _ = t.rows.map _
  rw [List.map_map]
  refine List.map_congr_left fun r _ => ?_
  show ((change p _ r).id, (change p _ r).val.key) = _
  rw [change_id, key_change_checkedAt]

theorem alike_refreshed : Alike wanted t (t.refreshed wanted now) := by
  refine ⟨rfl, ?_⟩
  unfold refreshed
  rw [keyed_modify]

theorem alike_cleared : Alike wanted t (t.cleared wanted) := by
  refine ⟨rfl, ?_⟩
  show ((t.rows.filter _).map _).filter _ = _
  rw [List.filter_map, List.filter_filter]
  unfold keyed
  rw [List.filter_map]
  refine congrArg _ (List.filter_congr fun r _ => ?_)
  simp

/-! ## what the changes make of them -/

/-- a wanted key has a row or not by the rows of wanted keys alone -/
theorem add_eq : (Difference.of wanted t.rows).add = wanted.keys.filter fun k =>
    k ∉ (t.keyed.filter fun p => wanted.contains p.2).map Prod.snd := by
  refine List.filter_congr fun k hk => ?_
  rw [Bool.eq_iff_iff, Bool.not_eq_true', ← Bool.not_eq_true, Difference.contains_grouped,
    decide_eq_true_iff, not_iff_not]
  constructor
  · rintro ⟨r, hr, hrk⟩
    exact List.mem_map.2 ⟨(r.id, k), mem_filter_keyed.2 ⟨hk, r, hr, rfl, hrk⟩, rfl⟩
  · intro hrow
    obtain ⟨⟨i, j⟩, hp, rfl⟩ := List.mem_map.1 hrow
    obtain ⟨_, r, hr, _, hrk⟩ := mem_filter_keyed.1 hp
    exact ⟨r, hr, hrk⟩

theorem map_numbered {α β : Type} (f : α → β) (last : Int) (as : List α) :
    numbered last (as.map f) = (numbered last as).map fun r => ⟨r.id, f r.val⟩ := by
  induction as generalizing last with
  | nil => rfl
  | cons a as ih => rw [List.map_cons, numbered, numbered, List.map_cons, ih]

theorem keyed_apply : (t.apply (.of wanted t.rows) now).2.keyed
    = (t.keyed.filter fun p => wanted.contains p.2) ++
      (numbered t.last (Difference.of wanted t.rows).add).map fun r => (r.id, r.val) := by
  unfold keyed
  rw [rows_apply, List.map_append, List.map_map, List.filter_map]
  congr 1
  unfold added
  rw [map_numbered, List.map_map]
  rfl

theorem Alike.keyed_apply (h : Alike wanted t u) (now later : Int) :
    (u.apply (.of wanted u.rows) later).2.keyed = (t.apply (.of wanted t.rows) now).2.keyed := by
  rw [Table.keyed_apply, Table.keyed_apply, h.keyed, h.last, add_eq, add_eq, h.keyed]

/-! ## once more -/

/-- A table whose keys are the wanted ones. -/
def Settled (wanted : KeySet) (t : Table Relation.noKey) : Prop :=
  ∀ k, (∃ r ∈ t.rows, r.val.key = k) ↔ k ∈ wanted.keys

theorem Settled.contains (h : Settled wanted t) {r : Row Relation} (hr : r ∈ t.rows) :
    wanted.contains r.val.key = true :=
  Dict.contains_iff.2 ((h _).1 ⟨r, hr, rfl⟩)

theorem Settled.add_nil (h : Settled wanted t) : (Difference.of wanted t.rows).add = [] := by
  refine List.eq_nil_iff_forall_not_mem.2 fun k hk => ?_
  obtain ⟨hk, hno⟩ := Difference.mem_add_iff.1 hk
  obtain ⟨r, hr, hrk⟩ := (h k).2 hk
  exact hno r hr hrk

theorem Settled.counts (h : Settled wanted t) (now : Int) :
    (t.apply (.of wanted t.rows) now).1 = ⟨0, t.rows.length, 0⟩ := by
  have hall : t.rows.countP (fun r => wanted.contains r.val.key) = t.rows.length :=
    List.countP_eq_length.2 fun r hr => h.contains hr
  have hnone : t.rows.countP (fun r => !wanted.contains r.val.key) = 0 :=
    List.countP_eq_zero.2 fun r hr => by simp [h.contains hr]
  rw [counts_apply, h.add_nil, hall, hnone]
  rfl

theorem Settled.keyed (h : Settled wanted t) (now : Int) :
    (t.apply (.of wanted t.rows) now).2.keyed = t.keyed := by
  have hall : (t.keyed.filter fun p => wanted.contains p.2) = t.keyed := by
    refine List.filter_eq_self.2 fun p hp => ?_
    obtain ⟨r, hr, rfl⟩ := List.mem_map.1 hp
    exact h.contains hr
  rw [keyed_apply, hall, h.add_nil]
  exact List.append_nil _

end Table

/-! ## passes on a store -/

section
variable (overrides : Overrides) (lookup : Lookup) (s u : Store)

/-- Some pass on the store `s` fails and leaves the store `u`. -/
def Interrupted : Prop :=
  ∃ clock db e, db.store = s ∧ (reconcile overrides lookup clock db).1.result = .error e ∧
    (reconcile overrides lookup clock db).2.store = u

/-- Some pass on the store `s` ends with a report and leaves the store `u`. -/
def Completed : Prop :=
  ∃ clock db report, db.store = s ∧ (reconcile overrides lookup clock db).1.result = .ok report ∧
    (reconcile overrides lookup clock db).2.store = u

end

theorem Store.alike_stoppedAt (wanted : KeySet) (now : Int) (s : Store) (n : Nat) :
    s.stoppedAt wanted now n
        = Query.setRelations s (s.stoppedAt wanted now n).relations ∧
      Table.Alike wanted s.relations (s.stoppedAt wanted now n).relations := by
  unfold Store.stoppedAt
  dsimp only
  split
  · exact ⟨rfl, .refl _ _⟩
  · split
    · exact ⟨rfl, Table.alike_refreshed⟩
    · exact ⟨rfl, Table.alike_refreshed.trans Table.alike_cleared⟩

section
variable {overrides : Overrides} {lookup : Lookup} {s u : Store}

/-- passes that fail, one after the other, leave the rows of wanted keys and all other tables -/
theorem Interrupted.alike (h : Relation.ReflTransGen (Interrupted overrides lookup) s u) :
    u = Query.setRelations s u.relations ∧
      Table.Alike (s.desired overrides lookup) s.relations u.relations := by
  -- the wanted keys stay what they are, since no pass writes what they are derived from
  induction h with
  | refl => exact ⟨rfl, .refl _ _⟩
  | tail _ hstep ih =>
    obtain ⟨hframe, halike⟩ := ih
    obtain ⟨clock, db, e, rfl, hfail, rfl⟩ := hstep
    obtain ⟨n, _, _, hleft⟩ := (Query.Runs.pass overrides lookup clock.now).stops db e
      (reconcile_error hfail)
    have hwanted : db.store.desired overrides lookup = s.desired overrides lookup := by
      rw [hframe]
      rfl
    rw [reconcile_snd, hleft, hwanted]
    obtain ⟨hframe', halike'⟩ :=
      Store.alike_stoppedAt (s.desired overrides lookup) clock.now db.store n
    refine ⟨?_, halike.trans halike'⟩
    rw [hframe', hframe]
    rfl

theorem completed_reconcile (overrides : Overrides) (lookup : Lookup) (clock : Clock) (s : Store) :
    Completed overrides lookup s (reconcile overrides lookup clock (.of s)).2.store := by
  obtain ⟨report, hok⟩ := reconcile_total overrides lookup clock s
  exact ⟨clock, .of s, report, rfl, hok, rfl⟩

theorem Completed.keyed {v : Store} (h : Completed overrides lookup s v) :
    ∃ now, v.relations.keyed = (s.relations.apply
      (.of (s.desired overrides lookup) s.relations.rows) now).2.keyed := by
  obtain ⟨clock, db, report, rfl, hok, rfl⟩ := h
  refine ⟨clock.now, ?_⟩
  rw [(reconcile_ok hok).1]
  rfl

/-- the next pass that succeeds makes up for those that have failed -/
theorem Interrupted.healed (h : Relation.ReflTransGen (Interrupted overrides lookup) s u)
    {v w : Store} (hv : Completed overrides lookup u v) (hw : Completed overrides lookup s w) :
    v.relations.keyed = w.relations.keyed := by
  obtain ⟨hframe, halike⟩ := Interrupted.alike h
  have hwanted : u.desired overrides lookup = s.desired overrides lookup := by
    rw [hframe]
    rfl
  obtain ⟨later, hv⟩ := hv.keyed
  obtain ⟨now, hw⟩ := hw.keyed
  rw [hv, hw, hwanted]
  exact halike.keyed_apply now later

end

section
variable {overrides : Overrides} {lookup : Lookup} {clock : Clock} {db : Db} {report : RelationReport}

/-- a pass leaves a table that has just the wanted keys, and these are wanted after it as well -/
theorem settled_reconcile (h : (reconcile overrides lookup clock db).1.result = .ok report) :
    let after := (reconcile overrides lookup clock db).2.store
    Table.Settled (after.desired overrides lookup) after.relations := by
  intro after
  have hafter := (reconcile_ok h).1
  have hwanted : after.desired overrides lookup = db.store.desired overrides lookup := by
    show (reconcile overrides lookup clock db).2.store.desired overrides lookup = _
    rw [hafter]
    rfl
  rw [hwanted]
  show Table.Settled _ (reconcile overrides lookup clock db).2.store.relations
  rw [hafter]
  exact Table.keys_apply

theorem reconcile_of_settled
    (hs : Table.Settled (db.store.desired overrides lookup) db.store.relations)
    (h : (reconcile overrides lookup clock db).1.result = .ok report) :
    report.added = 0 ∧ report.deleted = 0 ∧ report.refreshed = db.store.relations.rows.length ∧
      (reconcile overrides lookup clock db).2.store.relations.keyed = db.store.relations.keyed := by
  obtain ⟨hafter, hcounts⟩ := reconcile_ok h
  rw [hs.counts] at hcounts
  obtain ⟨hadded, hrefreshed, hdeleted⟩ := Query.Counts.mk.inj hcounts
  refine ⟨hadded.symm, hdeleted.symm, hrefreshed.symm, ?_⟩
  rw [hafter]
  exact hs.keyed clock.now

end

/-- A pass whose statement `n` cannot be run fails there or before.  A pass that fails at its statement
`n` has done the changes that were complete before it, and nothing of the one that failed or of a
later one.  However many passes have failed, each row of a wanted key is there with its id, and the
next pass that succeeds ends with the ids and keys of one that was never stopped.  After that,
another one adds and deletes nothing. -/
theorem reconcile_healed (overrides : Overrides) (lookup : Lookup) (clock : Clock) (db : Db) :
    let wanted := db.store.desired overrides lookup
    let run := reconcile overrides lookup clock db
    (∀ n, n < (Difference.of wanted db.store.relations.rows).passEnd →
      db.outage (db.clock + n) = true →
        ∃ e, run.1.result = .error e ∧ run.2.clock ≤ db.clock + n + 1) ∧
    (∀ e, run.1.result = .error e →
      ∃ n, n < (Difference.of wanted db.store.relations.rows).passEnd ∧
        run.2.clock = db.clock + n + 1 ∧ run.2.store = db.store.stoppedAt wanted clock.now n) ∧
    (∀ u, Relation.ReflTransGen (Interrupted overrides lookup) db.store u →
      (∀ r ∈ db.store.relations.rows, r.val.key ∈ wanted.keys →
        ∃ x ∈ u.relations.rows, x.id = r.id ∧ x.val.key = r.val.key) ∧
      (∃ v, Completed overrides lookup u v) ∧
      ∀ v w, Completed overrides lookup u v → Completed overrides lookup db.store w →
        v.relations.keyed = w.relations.keyed) ∧
    ∀ later next report report', run.1.result = .ok report → next.store = run.2.store →
      (reconcile overrides lookup later next).1.result = .ok report' →
        report'.added = 0 ∧ report'.deleted = 0 ∧
          report'.refreshed = run.2.store.relations.rows.length ∧
          (reconcile overrides lookup later next).2.store.relations.keyed
            = run.2.store.relations.keyed := by
  intro wanted run
  refine ⟨fun n hn ho => ?_, fun e he => ?_, fun u hu => ⟨fun r hr hk => ?_, ?_, fun v w => ?_⟩, ?_⟩
  · obtain ⟨e, he, hclock⟩ := (Query.Runs.pass overrides lookup clock.now).fails hn ho
    refine ⟨e, ?_, ?_⟩
    · show (reconcile overrides lookup clock db).1.result = _
      rw [reconcile_result, he]
      rfl
    · show (reconcile overrides lookup clock db).2.clock ≤ _
      rw [reconcile_snd]
      exact hclock
  · show ∃ n, _ ∧ (reconcile overrides lookup clock db).2.clock = _ ∧
      (reconcile overrides lookup clock db).2.store = _
    rw [reconcile_snd]
    exact (Query.Runs.pass overrides lookup clock.now).stops db e (reconcile_error he)
  · exact (Interrupted.alike hu).2.kept hr hk
  · exact ⟨_, completed_reconcile overrides lookup clock u⟩
  · exact Interrupted.healed hu
  · intro later next report report' hrun hnext hlater
    have hsettled := settled_reconcile hrun
    rw [← hnext] at hsettled ⊢
    exact reconcile_of_settled hsettled hlater

/-- The sample, out of reach when the row that is not wanted is to be deleted. -/
def Db.stopping : Db := { Db.of .sample with outage := fun n => n = 16 }

/-- The pass that is stopped leaves this row, and the refreshed ones; the next one deletes it and adds
what is missing. -/
theorem reconcile_healed_sample : ∃ u v w,
    Interrupted .empty (.ofList []) .sample u ∧ Completed .empty (.ofList []) u v ∧
    Completed .empty (.ofList []) .sample w ∧
    u.relations.rows.map (fun r => (r.id, r.val.checked)) = [(1, 9), (2, 9), (4, 5)] ∧
    v.relations.keyed = [(1, ⟨"7", "7", "p1", "c1"⟩), (2, ⟨"7", "7", "p1", "c1"⟩),
      (5, ⟨"7", "7", "p1", "c2"⟩)] ∧
    v.relations.keyed = w.relations.keyed := by
  obtain ⟨hfails, -, hlater, -⟩ := reconcile_healed .empty (.ofList []) ⟨9, 3⟩ .stopping
  obtain ⟨e, he, -⟩ := hfails 16 (by decide +kernel) rfl
  have hstep : Interrupted .empty (.ofList []) .sample
      (reconcile .empty (.ofList []) ⟨9, 3⟩ .stopping).2.store := ⟨_, .stopping, e, rfl, he, rfl⟩
  obtain ⟨-, -, hsame⟩ := hlater _ (.single hstep)
  have hhealed := completed_reconcile .empty (.ofList []) ⟨12, 3⟩
    (reconcile .empty (.ofList []) ⟨9, 3⟩ .stopping).2.store
  have hcalm := completed_reconcile .empty (.ofList []) ⟨9, 3⟩ .sample
  exact ⟨_, _, _, hstep, hhealed, hcalm, by decide +kernel, by decide +kernel,
    hsame _ _ hhealed hcalm⟩

end Linkage
