import Linkage.Proofs.Rebuild.DryRun
import Linkage.Proofs.Rebuild.Resume
import Linkage.Proofs.Rebuild.Tally

/-!
# A batch leaves nothing to do for the next one

What a batch skips does not resolve when it ends either, since more components have an owner then.

* `Batch.unlinked_skipped`   the data-buses that no link owns are then the skipped ones;
* `Batch.idle`               a batch over data-buses that do not resolve changes nothing, and what it
                             tells does not depend on its time;
* `rebuild_settles`          a second batch skips what the first one has skipped, and every later one
                             reports the same.
-/

namespace Linkage

/-! ## what was skipped -/

namespace Visit

variable {scope : Scope} {dryRun : Bool} {now : Int} {v : Visit}

/-- a skip is told under the name of the data-bus, and nothing else is told as one -/
theorem Sound.told (h : v.Sound scope dryRun now) {o : Outcome} {event : Event}
    (ha : v.answer = .ok (o, event)) :
    (∃ why detail, o = .skipped why ∧ event = .link (.skipped v.bus.val.name why detail)) ∨
      v.isSkipped = false ∧ ∀ n why detail, event ≠ .link (.skipped n why detail) := by
  have htold : (v.before.rebuildBus dryRun now v.bus).1 = (o, event) := by rw [h.did_ok ha]
  unfold Store.rebuildBus Store.settle at htold
  unfold isSkipped
  rw [ha]
  split at htold
  · cases htold
    exact .inl ⟨_, _, rfl, rfl⟩
  · split at htold
    · cases htold
      exact .inr ⟨rfl, nofun⟩
    · cases htold
      exact .inr ⟨rfl, nofun⟩

end Visit

namespace Batch

variable {scope : Scope} {now : Int} {s : Store} {vs : List Visit}

/-- a data-bus is left to do unless a visit has linked it -/
theorem unlinked_eq (h : Batch scope false now s vs) (hok : ∀ v ∈ vs, ∃ a, v.answer = .ok a) :
    (Visit.storeAfter s vs).unlinked scope
      = (s.unlinked scope).filter fun b => ∀ v ∈ vs, v.bus = b → v.isSkipped = true := by
  induction h with
  | nil s => exact (List.filter_eq_self.2 fun b _ => by simp).symm
  | @cons v vs hv _ ih =>
    obtain ⟨⟨a, ha⟩, hvs⟩ := List.forall_mem_cons.1 hok
    show (Visit.storeAfter v.after vs).unlinked scope = _
    rw [ih hvs]
    rcases hv.cases with ⟨⟨e, he⟩, _⟩ | ⟨e, _, hc, hs⟩ | ⟨_, _, hd, _⟩ | ⟨r, l, hr, _, hc, hl⟩
    · rw [ha] at he
      cases he
    · have hskip : v.isSkipped = true := Visit.isSkipped_iff.2 ⟨_, hc⟩
      rw [hs]
      refine List.filter_congr fun b _ => ?_
      simp only [List.forall_mem_cons, hskip, implies_true, true_and]
    · cases hd
    · have hlinked : v.isSkipped = false := by
        rw [← Bool.not_eq_true, Visit.isSkipped_iff]
        rintro ⟨why, hwhy⟩
        cases hc.unique hwhy
      have hname : r.link ≠ "" := by
        rw [(Store.resolved_of_resolve hr).link]
        exact Scope.linkName_ne_empty _ _
      rw [hl.unlinked hname, List.filter_filter]
      refine List.filter_congr fun b _ => ?_
      rw [Bool.eq_iff_iff, Bool.and_eq_true]
      simp only [decide_eq_true_eq, List.forall_mem_cons, hlinked, Bool.false_eq_true, imp_false]
      rw [and_comm, ne_comm]

theorem unlinked_skipped (h : Batch scope false now s vs) (hok : ∀ v ∈ vs, ∃ a, v.answer = .ok a)
    (hbuses : vs.map Visit.bus = s.unlinked scope) :
    (Visit.storeAfter s vs).unlinked scope = (vs.filter Visit.isSkipped).map Visit.bus := by
  have hnodup : (vs.map Visit.bus).Nodup := by
    rw [hbuses]
    exact s.nodup_unlinked scope
  rw [h.unlinked_eq hok, ← hbuses, List.filter_map]
  refine congrArg _ (List.filter_congr fun v hv => ?_)
  rw [Function.comp, Bool.eq_iff_iff, decide_eq_true_eq]
  constructor
  · intro hall
    exact hall v hv rfl
  · intro hskip w hw he
    rwa [List.inj_on_of_nodup_map hnodup hw hv he]

/-! ## data-buses that do not resolve -/

/-- visits of data-buses that do not resolve change nothing, and each tells why, at any time -/
theorem idle {dryRun : Bool} (h : Batch scope dryRun now s vs)
    (hnone : ∀ b ∈ s.unlinked scope, ∃ e, s.resolve b.val = .error e) :
    Visit.storeAfter s vs = s ∧ ∀ v ∈ vs, ∀ a, v.answer = .ok a →
      v.isSkipped = true ∧ a = (s.rebuildBus false 0 v.bus).1 := by
  induction h with
  | nil s => exact ⟨rfl, fun v hv => (by cases hv)⟩
  | @cons v vs hv _ ih =>
    obtain ⟨e, he⟩ := hnone v.bus (Store.mem_unlinked.2 ⟨hv.bus_mem, hv.scope, hv.unowned⟩)
    have hvisit : v.after = v.before ∧ ∀ a, v.answer = .ok a →
        v.isSkipped = true ∧ a = (v.before.rebuildBus false 0 v.bus).1 := by
      have hrun : ∀ dry time, v.before.rebuildBus dry time v.bus
          = ((.skipped e.reason, .link (.skipped v.bus.val.name e.reason e.detail)), v.before) := by
        intro dry time
        unfold Store.rebuildBus
        rw [he]
        rfl
      rcases hv.did with ⟨⟨e', he'⟩, hs⟩ | ⟨a, ha, hdid⟩
      · refine ⟨hs, fun a ha => ?_⟩
        rw [he'] at ha
        cases ha
      · rw [hrun] at hdid
        obtain ⟨rfl, hs⟩ := Prod.mk.inj hdid
        refine ⟨hs.symm, fun a' ha' => ?_⟩
        rw [ha] at ha'
        cases ha'
        rw [hrun]
        exact ⟨Visit.isSkipped_iff.2 ⟨_, _, ha⟩, rfl⟩
    obtain ⟨hs, htold⟩ := hvisit
    rw [hs] at ih
    obtain ⟨hstore, hvs⟩ := ih hnone
    refine ⟨?_, List.forall_mem_cons.2 ⟨htold, hvs⟩⟩
    show Visit.storeAfter v.after vs = v.before
    rw [hs]
    exact hstore

end Batch

theorem Visit.tally_congr {vs ws : List Visit} (h : vs.map Visit.answer = ws.map Visit.answer)
    (report : RebuildReport) : Visit.tally report vs = Visit.tally report ws := by
  have hmap : ∀ us : List Visit, Visit.tally report us = (us.map Visit.answer).foldl
      (fun r x => r.bind fun report => x.map fun a => report.count a.1) (.ok report) := by
    intro us
    rw [List.foldl_map]
    rfl
  rw [hmap, hmap, h]

/-- the data-buses of skipped visits are those that are told to be skipped, under their names -/
theorem skipped_iff_told {scope : Scope} {dryRun : Bool} {clock : Clock} {s : Store}
    {vs : List Visit} {run : RebuildRun} {report : RebuildReport}
    (h : Reported scope dryRun clock s vs run report) (hbatch : Batch scope dryRun clock.now s vs)
    {b : Row Bus} : (∃ v ∈ vs.filter Visit.isSkipped, v.bus = b) ↔ b ∈ s.unlinked scope ∧
      ∃ why detail, .link (.skipped b.val.name why detail) ∈ run.events := by
  have hmem : ∀ v ∈ vs, v.bus ∈ s.unlinked scope := by
    intro v hv
    rw [← h.buses]
    exact List.mem_map_of_mem hv
  rw [h.events]
  constructor
  · rintro ⟨v, hv, rfl⟩
    obtain ⟨hv, hskip⟩ := List.mem_filter.1 hv
    obtain ⟨⟨o, event⟩, ha⟩ := h.answered v hv
    refine ⟨hmem v hv, ?_⟩
    rcases (hbatch.sound hv).told ha with ⟨why, detail, _, rfl⟩ | ⟨hno, _⟩
    · refine ⟨why, detail, List.mem_append_left _ (List.mem_cons_of_mem _ ?_)⟩
      refine List.mem_filterMap.2 ⟨v, hv, ?_⟩
      rw [ha]
    · rw [hskip] at hno
      cases hno
  · rintro ⟨hb, why, detail, htold⟩
    obtain ⟨v, hv, hevent⟩ : ∃ v ∈ vs, ∃ o,
        v.answer = .ok (o, .link (.skipped b.val.name why detail)) := by
      rcases List.mem_append.1 htold with htold | htold
      · rcases List.mem_cons.1 htold with htold | htold
        · cases htold
        · obtain ⟨v, hv, hevent⟩ := List.mem_filterMap.1 htold
          obtain ⟨⟨o, event⟩, ha⟩ := h.answered v hv
          rw [ha] at hevent
          cases hevent
          exact ⟨v, hv, o, ha⟩
      · cases List.mem_singleton.1 htold
    obtain ⟨o, ha⟩ := hevent
    rcases (hbatch.sound hv).told ha with ⟨_, _, rfl, he⟩ | ⟨_, hno⟩
    · injection he with he
      injection he with hname
      -- a name belongs to one data-bus of the scope
      obtain ⟨hbmem, hbscope, _⟩ := Store.mem_unlinked.1 hb
      obtain ⟨hvmem, hvscope, _⟩ := Store.mem_unlinked.1 (hmem v hv)
      refine ⟨v, List.mem_filter.2 ⟨hv, Visit.isSkipped_iff.2 ⟨_, _, ha⟩⟩, ?_⟩
      exact Table.eq_of_name hvmem hbmem (hvscope.trans hbscope.symm) hname.symm
    · exact absurd rfl (hno _ _ _)

/-- No data-bus of the scope is left that could be linked. -/
def Store.Idle (s : Store) (scope : Scope) : Prop :=
  ∀ b ∈ s.unlinked scope, ∃ e, s.resolve b.val = .error e

section
variable {scope : Scope} {clock : Clock} {db : Db}

theorem idle_rebuild {report : RebuildReport}
    (h : (rebuild scope false clock db).1.result = .ok report) :
    (rebuild scope false clock db).2.store.Idle scope := by
  have hreported := reported_rebuild h
  have hnone : db.store.unlinked scope = [] ++ (db.store.unlinked scope ++ []) :=
    (List.append_nil _).symm
  obtain ⟨left, hleft, herror⟩ := Store.unlinked_linkAll clock.now hnone nofun
  have hstore : (rebuild scope false clock db).2.store
      = db.store.linkAll clock.now (db.store.unlinked scope) := by
    rw [rebuild_store, (batch_visits scope false clock db).storeAfter_eq hreported.answered,
      hreported.buses]
  rw [hstore]
  intro b hb
  rw [hleft, List.append_nil] at hb
  exact herror b hb

namespace Store.Idle

variable (hidle : db.store.Idle scope)
include hidle

theorem store_eq : (rebuild scope false clock db).2.store = db.store := by
  rw [rebuild_store]
  exact ((batch_visits scope false clock db).idle hidle).1

theorem counts {report : RebuildReport}
    (h : (rebuild scope false clock db).1.result = .ok report) :
    report.total = (db.store.unlinked scope).length ∧ report.success = 0 ∧
      report.skipped = report.total := by
  have hreported := reported_rebuild h
  obtain ⟨htotal, hskipped, hsum⟩ := hreported.counts
  have hall : ∀ v ∈ visits scope false clock db, v.isSkipped = true := by
    intro v hv
    obtain ⟨a, ha⟩ := hreported.answered v hv
    exact (((batch_visits scope false clock db).idle hidle).2 v hv a ha).1
  have hlength : (visits scope false clock db).length = (db.store.unlinked scope).length := by
    rw [← hreported.buses, List.length_map]
  have hcount := List.countP_eq_length.2 hall
  omega

/-- the report of a batch with nothing to do is read off the store -/
theorem report_eq {report : RebuildReport}
    (h : (rebuild scope false clock db).1.result = .ok report) :
    ∃ final, ({ report with duration := 0 } : RebuildReport) = { final with duration := 0 } ∧
      Visit.tally { RebuildReport.start scope false with total := (db.store.unlinked scope).length }
        ((db.store.unlinked scope).map fun b =>
          ⟨b, db.store, .ok (db.store.rebuildBus false 0 b).1, db.store⟩) = .ok final := by
  have hreported := reported_rebuild h
  obtain ⟨final, hfinal, rfl⟩ := hreported.tally
  refine ⟨final, rfl, ?_⟩
  rw [← hfinal]
  refine Visit.tally_congr ?_ _
  rw [← hreported.buses, List.map_map, List.map_map]
  refine List.map_congr_left fun v hv => ?_
  obtain ⟨a, ha⟩ := hreported.answered v hv
  have htold := (((batch_visits scope false clock db).idle hidle).2 v hv a ha).2
  show Except.ok (db.store.rebuildBus false 0 v.bus).1 = v.answer
  rw [ha, htold]

end Store.Idle

end

/-- After a batch that ends with a report, the data-buses without a link are exactly those that it
told to be skipped.  Until something is added, another batch changes nothing at all: it looks at these
data-buses, skips each of them, and reports the same as all batches after it. -/
theorem rebuild_settles (scope : Scope) (clock : Clock) (db : Db) :
    let run := rebuild scope false clock db
    let u := run.2.store
    ∀ report, run.1.result = .ok report →
      (∀ b, b ∈ u.unlinked scope ↔ b ∈ db.store.unlinked scope ∧
        ∃ why detail, .link (.skipped b.val.name why detail) ∈ run.1.events) ∧
      report.skipped = (u.unlinked scope).length ∧
      ∀ clock' next, next.store = u →
        (rebuild scope false clock' next).2.store = u ∧
        (next.Reliable → ∃ report', (rebuild scope false clock' next).1.result = .ok report') ∧
        ∀ report', (rebuild scope false clock' next).1.result = .ok report' →
          report'.total = report.skipped ∧ report'.success = 0 ∧
          report'.skipped = report'.total ∧
          ∀ clock'' third report'', third.store = (rebuild scope false clock' next).2.store →
            (rebuild scope false clock'' third).1.result = .ok report'' →
            ({ report'' with duration := 0 } : RebuildReport) = { report' with duration := 0 } := by
  intro run u report hrun
  have hreported := reported_rebuild hrun
  have hbatch := batch_visits scope false clock db
  have hleft : u.unlinked scope
      = ((visits scope false clock db).filter Visit.isSkipped).map Visit.bus := by
    rw [← hbatch.unlinked_skipped hreported.answered hreported.buses, ← rebuild_store]
  have hidle : u.Idle scope := idle_rebuild hrun
  have hskipped : report.skipped = (u.unlinked scope).length := by
    rw [hreported.counts.2.1, hleft, List.length_map, List.countP_eq_length_filter]
  refine ⟨fun b => ?_, hskipped, fun clock' next hnext => ?_⟩
  · rw [hleft, List.mem_map]
    exact skipped_iff_told hreported hbatch
  · rw [← hnext] at hidle hskipped ⊢
    have hstore : (rebuild scope false clock' next).2.store = next.store := hidle.store_eq
    refine ⟨hstore, exists_report scope false clock', fun report' hrun' => ?_⟩
    obtain ⟨htotal, hsuccess, hall⟩ := hidle.counts hrun'
    refine ⟨htotal.trans hskipped.symm, hsuccess, hall, fun clock'' third report'' hthird hrun'' => ?_⟩
    rw [hstore] at hthird
    have hidle' : third.store.Idle scope := by
      rw [hthird]
      exact hidle
    obtain ⟨final', h', htally'⟩ := hidle.report_eq hrun'
    obtain ⟨final'', h'', htally''⟩ := hidle'.report_eq hrun''
    rw [hthird, htally'] at htally''
    cases htally''
    rw [h', h'']

/-- Of three data-buses two are linked; the next batch looks at the third alone, and skips it again. -/
theorem rebuild_settles_trio : ∃ u report report',
    (rebuild ⟨"t", "n"⟩ false ⟨9, 3⟩ (.of .trio)).2.store = u ∧
    (rebuild ⟨"t", "n"⟩ false ⟨9, 3⟩ (.of .trio)).1.result = .ok report ∧
    (u.unlinked ⟨"t", "n"⟩).map (fun b => b.val.name) = ["two"] ∧ report.skipped = 1 ∧
    (rebuild ⟨"t", "n"⟩ false ⟨12, 3⟩ (.of u)).2.store = u ∧
    (rebuild ⟨"t", "n"⟩ false ⟨12, 3⟩ (.of u)).1.result = .ok report' ∧
    report'.total = 1 ∧ report'.success = 0 ∧ report'.skipped = 1 := by
  obtain ⟨report, hrun⟩ := exists_report ⟨"t", "n"⟩ false ⟨9, 3⟩ (Db.reliable_of .trio)
  obtain ⟨-, hskipped, hagain⟩ := rebuild_settles ⟨"t", "n"⟩ ⟨9, 3⟩ (.of .trio) report hrun
  have hleft : ((rebuild ⟨"t", "n"⟩ false ⟨9, 3⟩ (.of .trio)).2.store.unlinked ⟨"t", "n"⟩).map
      (fun b => b.val.name) = ["two"] := by decide +kernel
  generalize (rebuild ⟨"t", "n"⟩ false ⟨9, 3⟩ (.of .trio)).2.store = u at *
  obtain ⟨hstore, htotal, hreport⟩ := hagain ⟨12, 3⟩ (.of u) rfl
  obtain ⟨report', hrun'⟩ := htotal (Db.reliable_of u)
  obtain ⟨hlooked, hsuccess, hall, -⟩ := hreport report' hrun'
  have hone : report.skipped = 1 := by
    rw [hskipped, ← List.length_map (f := fun b : Row Bus => b.val.name), hleft]
    rfl
  have hone' : report'.total = 1 := hlooked.trans hone
  exact ⟨u, report, report', rfl, hrun, hleft, hone, hstore, hrun', hone', hsuccess, hall.trans hone'⟩

end Linkage
