import Linkage.Proofs.Json.Values
import Linkage.Proofs.Rebuild.Ahead

/-!
# A dry run foretells the batch

Dry run and batch begin with the same store, and no statement fails.

* `Plan.Written`          what a plan says is written, and given to the link, and nothing else is;
* `Batch.linked_mem`      a link that a batch has written is there when it ends;
* `Foretold`              what the dry run says about a data-bus, and what the batch does with it;
* `dryRun_foretells`      each data-bus fares in the batch as the dry run has foretold.
-/

namespace Linkage

/-! ## what is written for a plan -/

/-- A data-bus is linked as its plan says: the link row `l` has the plan's values and is in the store
at last, and between `before` and `after` the data-bus and the plan's sinks and result tables are
given to it, and nothing else. -/
structure Plan.Written (p : Plan) (b : Row Bus) (l : Row Link) (before after last : Store) :
    Prop where
  stored : l ∈ last.links.rows
  scope : l.val.scope = b.val.scope
  name : l.val.name = p.link
  strategy : l.val.readStrategy = .ok p.strategy
  dataId : l.val.dataId = p.dataId
  tableIds : l.val.readTableIds = .ok p.tableIds
  buses : before.buses.Marked after.buses (fun x => x = b) p.link
  sinks : ∀ k, (before.sinks.get k).Marked (after.sinks.get k)
    (fun x => x.val.scope = b.val.scope ∧ ⟨k, x.val.name⟩ ∈ p.sinks) p.link
  resultTables : before.resultTables.Marked after.resultTables
    (fun t => t.val.scope = b.val.scope ∧ ⟨t.val.name, t.val.detail⟩ ∈ p.tables) p.link

namespace Store.Resolved

variable {s : Store} {b : Bus} {r : Resolution} (h : s.Resolved b r)
include h

theorem mem_plan_sinks {k : SinkKind} {n : String} :
    ⟨k, n⟩ ∈ (r.plan b).sinks ↔ b.Lists k n := by
  have hplan : (r.plan b).sinks
      = r.sinks.map fun s => (⟨s.kind, s.row.val.name⟩ : PlannedSink) := rfl
  rw [h.lists_iff, hplan, List.mem_map]
  simp only [PlannedSink.mk.injEq]

theorem mem_plan_tables {t : Row ResultTable} (ht : t ∈ s.resultTables.rows) :
    t ∈ r.tables ↔ t.val.scope = b.scope ∧ ⟨t.val.name, t.val.detail⟩ ∈ (r.plan b).tables := by
  have hplan : (r.plan b).tables
      = r.tables.map fun t => (⟨t.val.name, t.val.detail⟩ : PlannedTable) := rfl
  rw [hplan, List.mem_map]
  constructor
  · intro hm
    exact ⟨(h.table_mem _ hm).2, _, hm, rfl⟩
  · intro ⟨hs, y, hy, he⟩
    obtain ⟨hn, _⟩ := PlannedTable.mk.inj he
    have : y = t :=
      Table.eq_of_name (h.table_mem y hy).1 ht ((h.table_mem y hy).2.trans hs.symm) hn
    rw [← this]
    exact hy

end Store.Resolved

theorem Store.Linking.written {s u last : Store} {b : Row Bus} {r : Resolution} {l : Row Link}
    (h : s.Linking b r l u) (hr : s.Resolved b.val r) (hl : l ∈ last.links.rows) :
    (r.plan b.val).Written b l s u last where
  stored := hl
  scope := h.key.1
  name := h.key.2
  strategy := by
    rw [Link.readStrategy, h.strategy, Strategy.ofText?_text]
    rfl
  dataId := h.dataId
  tableIds := by
    rw [Link.readTableIds, h.tableIds]
    exact readListColumn_listColumn _ _
  buses := h.buses
  sinks k := (h.sinks k).congr fun _ hx => by
    rw [hr.mem_sinks_iff hx, hr.mem_plan_sinks]
  resultTables := h.resultTables.congr fun _ ht => hr.mem_plan_tables ht

/-! ## visits of which no statement fails -/

namespace Visit

variable {scope : Scope} {dryRun : Bool} {now : Int} {v : Visit}

/-- what comes of a data-bus that does not resolve, that is planned and that is linked -/
theorem Sound.cases_ok (h : v.Sound scope dryRun now) (hok : ∃ a, v.answer = .ok a) :
    (∃ e, v.before.resolve v.bus.val = .error e ∧ v.CameTo (.skipped e.reason)) ∨
    ∃ r, v.before.resolve v.bus.val = .ok r ∧
      (dryRun = true ∧ v.CameTo (.planned (r.plan v.bus.val)) ∨
        dryRun = false ∧ ∃ l, v.CameTo (.linked l) ∧ v.before.Linking v.bus r l v.after) := by
  rcases h.cases with ⟨⟨e, he⟩, _⟩ | ⟨e, hr, hc, _⟩ | ⟨r, hr, hd, hc, _⟩ | ⟨r, l, hr, hd, hc, hl⟩
  · obtain ⟨a, ha⟩ := hok
    rw [he] at ha
    cases ha
  · exact .inl ⟨e, hr, hc⟩
  · exact .inr ⟨r, hr, .inl ⟨hd, hc⟩⟩
  · exact .inr ⟨r, hr, .inr ⟨hd, l, hc, hl⟩⟩

theorem Sound.skipped (h : v.Sound scope dryRun now) (hok : ∃ a, v.answer = .ok a) {e : Skip}
    (he : v.before.resolve v.bus.val = .error e) : v.CameTo (.skipped e.reason) := by
  rcases h.cases_ok hok with ⟨e', hr, hc⟩ | ⟨r, hr, _⟩
  · rw [he] at hr
    cases hr
    exact hc
  · rw [he] at hr
    cases hr

theorem Sound.linked (h : v.Sound scope false now) (hok : ∃ a, v.answer = .ok a) {r : Resolution}
    (hr : v.before.resolve v.bus.val = .ok r) :
    ∃ l, v.CameTo (.linked l) ∧ v.before.Linking v.bus r l v.after := by
  rcases h.cases_ok hok with ⟨e, hr', _⟩ | ⟨r', hr', ⟨hd, _⟩ | ⟨_, hl⟩⟩
  · rw [hr] at hr'
    cases hr'
  · cases hd
  · rw [hr] at hr'
    cases hr'
    exact hl

end Visit

/-! ## links of a batch -/

namespace Batch

variable {scope : Scope} {dryRun : Bool} {now : Int} {s : Store} {vs : List Visit}

/-- the link of a data-bus is written by no visit of another one -/
theorem link_mem (h : Batch scope dryRun now s vs) {l : Row Link} (hl : l ∈ s.links.rows)
    {b : Row Bus} (hb : b ∈ s.buses.rows) (hs : b.val.scope = scope) (ho : b.val.owner ≠ "")
    (hn : l.val.name = scope.linkName b.val.name) :
    l ∈ (Visit.storeAfter s vs).links.rows := by
  induction h with
  | nil s => exact hl
  | @cons v vs hv _ ih =>
    show l ∈ (Visit.storeAfter v.after vs).links.rows
    rcases hv.step with ⟨_, he⟩ | ⟨r, x, hr, _, _, hx⟩
    · rw [he] at ih ⊢
      exact ih hl hb
    · have hne : b ≠ v.bus := by
        intro he
        rw [he] at ho
        exact ho hv.unowned
      refine ih ((hx.links l).2 (.inr ⟨hl, fun ⟨_, hname⟩ => ?_⟩))
        (hx.buses.mem_iff.2 ⟨b, hb, .inr ⟨hne, rfl⟩⟩)
      rw [hr.link, hn, hv.scope] at hname
      exact hne (Table.eq_of_name hb hv.bus_mem (hs.trans hv.scope.symm)
        (Scope.linkName_injective hname))

theorem linked_mem (h : Batch scope dryRun now s vs) {v : Visit} (hv : v ∈ vs) {l : Row Link}
    (hc : v.CameTo (.linked l)) : l ∈ (Visit.storeAfter s vs).links.rows := by
  induction h with
  | nil s => cases hv
  | @cons w ws hw hws ih =>
    show l ∈ (Visit.storeAfter w.after ws).links.rows
    rcases List.mem_cons.1 hv with rfl | hv
    · rcases hw.step with ⟨hno, _⟩ | ⟨r, x, hr, _, hc', hx⟩
      · exact absurd hc (hno l)
      · cases hc'.unique hc
        have hname : r.link = scope.linkName v.bus.val.name := by
          rw [hr.link, hw.scope]
        refine hws.link_mem ((hx.links l).2 (.inl rfl))
          (hx.buses.mem_iff.2 ⟨v.bus, hw.bus_mem, .inl ⟨rfl, rfl⟩⟩) hw.scope ?_
          (hx.key.2.trans hname)
        show r.link ≠ ""
        rw [hname]
        exact Scope.linkName_ne_empty _ _
    · exact ih hv

end Batch

/-! ## dry run and batch -/

/-- How a data-bus fares in a dry run and in the batch: `s` is the store that both begin with, `last`
the one that the batch leaves, and `earlier` are the data-buses that the batch has linked before. -/
structure Foretold (s last : Store) (earlier : List Bus) (dry real : Visit) : Prop where
  told : (∃ p, dry.CameTo (.planned p)) ∨ ∃ why, dry.CameTo (.skipped why)
  linked_iff : (∃ l, real.CameTo (.linked l)) ↔ (∃ p, dry.CameTo (.planned p)) ∧
    ∀ e ∈ earlier, ¬e.SharesSink dry.bus.val ∧ ¬s.SharesTable e dry.bus.val
  written : ∀ p l, dry.CameTo (.planned p) → real.CameTo (.linked l) →
    p.Written dry.bus l real.before real.after last
  conflict : (∃ p, dry.CameTo (.planned p)) → (¬∃ l, real.CameTo (.linked l)) →
    ((∃ e ∈ earlier, e.SharesSink dry.bus.val) → real.CameTo (.skipped .componentConflict)) ∧
    ((¬∃ e ∈ earlier, e.SharesSink dry.bus.val) → real.CameTo (.skipped .resultTableConflict))
  skipped : ∀ why, dry.CameTo (.skipped why) → ∃ why', real.CameTo (.skipped why') ∧
    (why' = why ∨ why' = .componentConflict ∨ why' = .resultTableConflict)

theorem SkipReason.isConflict_iff {why : SkipReason} :
    why.isConflict = true ↔ why = .componentConflict ∨ why = .resultTableConflict := by
  cases why <;> decide

section
variable {s last : Store} {scope : Scope} {now now' : Int} {earlier : List Bus} {d v : Visit}
  (hd : d.Sound scope true now) (hdok : ∃ a, d.answer = .ok a) (hds : d.before = s)
  (hv : v.Sound scope false now') (hvok : ∃ a, v.answer = .ok a) (hbus : v.bus = d.bus)
  (ha : s.Ahead v.before scope earlier)
include hd hdok hds hv hvok hbus ha

theorem foretold_of_skipped {e : Skip} (he : s.resolve d.bus.val = .error e) :
    Foretold s last earlier d v := by
  have hdc : d.CameTo (.skipped e.reason) := by
    rw [← hds] at he
    exact hd.skipped hdok he
  have hnot : ∀ p, ¬d.CameTo (.planned p) := fun p hp => by cases hdc.unique hp
  obtain ⟨e', he', hreason⟩ : ∃ e', v.before.resolve v.bus.val = .error e' ∧
      (e'.reason = e.reason ∨ e'.reason.isConflict = true) := by
    have hecho := ha.keeps.resolve_echoes v.bus.val
    rw [hbus, he] at hecho
    rw [hbus]
    generalize v.before.resolve d.bus.val = y at hecho
    cases hecho with
    | conflict e' h => exact ⟨e', rfl, .inr h⟩
    | error => exact ⟨e, rfl, .inl rfl⟩
  have hvc := hv.skipped hvok he'
  refine ⟨.inr ⟨_, hdc⟩, ?_, fun p _ hp => absurd hp (hnot p), fun ⟨p, hp⟩ => absurd hp (hnot p),
    fun why hwhy => ?_⟩
  · constructor
    · intro ⟨l, hl⟩
      cases hvc.unique hl
    · intro ⟨⟨p, hp⟩, _⟩
      exact absurd hp (hnot p)
  · cases hdc.unique hwhy
    exact ⟨e'.reason, hvc, hreason.imp_right SkipReason.isConflict_iff.1⟩

/-- a data-bus that the dry run plans is linked unless one before it shares something with it -/
theorem foretold_of_planned (hstored : ∀ l, v.CameTo (.linked l) → l ∈ last.links.rows)
    {r : Resolution} (hr : s.resolve d.bus.val = .ok r) : Foretold s last earlier d v := by
  have hdc : d.CameTo (.planned (r.plan d.bus.val)) := by
    rw [← hds] at hr
    rcases hd.cases_ok hdok with ⟨e, he, _⟩ | ⟨r', hr', ⟨_, hc⟩ | ⟨hfalse, _⟩⟩
    · rw [he] at hr
      cases hr
    · rw [hr] at hr'
      cases hr'
      exact hc
    · cases hfalse
  have hnot : ∀ why, ¬d.CameTo (.skipped why) := fun why hw => by cases hdc.unique hw
  have hcases := Store.Ahead.resolve_cases (b := d.bus) (by rwa [hd.scope]) hr
  rw [← hbus] at hcases
  refine ⟨.inl ⟨_, hdc⟩, ?_, fun p l hp hl => ?_, fun _ hl => ?_, fun why hw => absurd hw (hnot why)⟩
  · rcases hcases with ⟨⟨e, he, hs⟩, ⟨x, hx, _⟩⟩ | ⟨_, ⟨e, he, ht⟩, ⟨x, hx, _⟩⟩ | ⟨hs, ht, hok⟩
    · constructor
      · intro ⟨l, hl⟩
        cases (hv.skipped hvok hx).unique hl
      · intro ⟨_, hno⟩
        rw [hbus] at hs
        exact absurd hs (hno e he).1
    · constructor
      · intro ⟨l, hl⟩
        cases (hv.skipped hvok hx).unique hl
      · intro ⟨_, hno⟩
        rw [hbus] at ht
        exact absurd ht (hno e he).2
    · rw [hbus] at hs ht
      constructor
      · intro _
        exact ⟨⟨_, hdc⟩, fun e he => ⟨fun hse => hs ⟨e, he, hse⟩, fun hte => ht ⟨e, he, hte⟩⟩⟩
      · intro _
        obtain ⟨l, hl, _⟩ := hv.linked hvok hok
        exact ⟨l, hl⟩
  · cases hdc.unique hp
    rcases hcases with ⟨_, ⟨x, hx, _⟩⟩ | ⟨_, _, ⟨x, hx, _⟩⟩ | ⟨_, _, hok⟩
    · cases (hv.skipped hvok hx).unique hl
    · cases (hv.skipped hvok hx).unique hl
    · obtain ⟨l', hl', hlink⟩ := hv.linked hvok hok
      cases hl.unique hl'
      rw [← hbus]
      exact hlink.written (Store.resolved_of_resolve hok) (hstored l hl)
  · rcases hcases with ⟨hs, ⟨x, hx, hreason⟩⟩ | ⟨hs, _, ⟨x, hx, hreason⟩⟩ | ⟨_, _, hok⟩
    · rw [hbus] at hs
      refine ⟨fun _ => ?_, fun hno => absurd hs hno⟩
      rw [← hreason]
      exact hv.skipped hvok hx
    · rw [hbus] at hs
      refine ⟨fun hsome => absurd hsome hs, fun _ => ?_⟩
      rw [← hreason]
      exact hv.skipped hvok hx
    · obtain ⟨l, hlinked, _⟩ := hv.linked hvok hok
      exact absurd ⟨l, hlinked⟩ hl

end

/-- The plan that a visit came to. -/
def Visit.plan? (v : Visit) : Option Plan :=
  match v.answer with
  | .ok (.planned p, _) => some p
  | _ => none

theorem Visit.plans_tally (report : RebuildReport) {vs : List Visit}
    (h : ∀ v ∈ vs, ∃ a, v.answer = .ok a) : ∃ final, Visit.tally report vs = .ok final ∧
      final.plans = report.plans ++ vs.filterMap Visit.plan? := by
  induction vs generalizing report with
  | nil => exact ⟨report, rfl, (List.append_nil _).symm⟩
  | cons v vs ih =>
    obtain ⟨⟨o, event⟩, ha⟩ := h v List.mem_cons_self
    obtain ⟨final, hf, hplans⟩ := ih (report.count o) fun w hw => h w (List.mem_cons_of_mem v hw)
    refine ⟨final, ?_, ?_⟩
    · rw [Visit.tally_cons, ha]
      exact hf
    · rw [hplans]
      cases o with
      | linked l => simp [Visit.plan?, ha, RebuildReport.count, RebuildReport.link]
      | planned p => simp [Visit.plan?, ha, RebuildReport.count, RebuildReport.plan]
      | skipped why => simp [Visit.plan?, ha, RebuildReport.count, RebuildReport.skip]

/-- What a batch tells in which no statement fails: what its visits tell, and a report with their
plans. -/
def Told (scope : Scope) (dryRun : Bool) (buses : Nat) (vs : List Visit) (run : RebuildRun) : Prop :=
  ∃ report, run = ⟨.link (.started scope buses dryRun) :: Visit.events vs ++
      [.link (.completed report)], .ok report⟩ ∧ report.plans = vs.filterMap Visit.plan?

theorem told_rebuild (scope : Scope) (dryRun : Bool) (clock : Clock) {db : Db}
    (hdb : db.Reliable) : Told scope dryRun (db.store.unlinked scope).length
      (visits scope dryRun clock db) (rebuild scope dryRun clock db).1 := by
  have hobs := Query.Observes.unlinkedBuses scope
  obtain ⟨buses, hok⟩ := hobs.total db hdb
  have hbuses : buses = db.store.unlinked scope := hobs.sound db buses hok
  obtain ⟨_, hall⟩ := visits_reliable scope dryRun clock hdb
  obtain ⟨final, hf, hplans⟩ := Visit.plans_tally
    { RebuildReport.start scope dryRun with total := buses.length } hall
  rw [rebuild_eq scope dryRun clock (Query.eq_mk_of_fst hok), hf, ← hbuses]
  exact ⟨_, rfl, hplans⟩

theorem exists_report (scope : Scope) (dryRun : Bool) (clock : Clock) {db : Db}
    (hdb : db.Reliable) : ∃ report, (rebuild scope dryRun clock db).1.result = .ok report := by
  obtain ⟨report, htold, _⟩ := told_rebuild scope dryRun clock hdb
  rw [htold]
  exact ⟨report, rfl⟩

/-- Dry run and batch over one store visit the same data-buses, in the order of their ids; the dry
run tells its plans and changes nothing; and each data-bus fares in the batch as foretold. -/
theorem dryRun_foretells (s : Store) (scope : Scope) (clock clock' : Clock) :
    (rebuild scope true clock (.of s)).2.store = s ∧
    Told scope true (s.unlinked scope).length (visits scope true clock (.of s))
      (rebuild scope true clock (.of s)).1 ∧
    Told scope false (s.unlinked scope).length (visits scope false clock' (.of s))
      (rebuild scope false clock' (.of s)).1 ∧
    (visits scope true clock (.of s)).map Visit.bus = s.unlinked scope ∧
    (visits scope false clock' (.of s)).map Visit.bus = s.unlinked scope ∧
    ∀ i dry real, (visits scope true clock (.of s))[i]? = some dry →
      (visits scope false clock' (.of s))[i]? = some real →
      Foretold s (rebuild scope false clock' (.of s)).2.store
        (Visit.linkedBuses ((visits scope false clock' (.of s)).take i)) dry real := by
  have hdb := Db.reliable_of s
  obtain ⟨hbuses, hall⟩ := visits_reliable scope true clock hdb
  obtain ⟨hbuses', hall'⟩ := visits_reliable scope false clock' hdb
  have hdry := batch_visits scope true clock (.of s)
  have hreal := batch_visits scope false clock' (.of s)
  obtain ⟨hbefore, hlast⟩ := hdry.of_dryRun
  refine ⟨?_, told_rebuild scope true clock hdb, told_rebuild scope false clock' hdb, hbuses,
    hbuses', fun i dry real hi hi' => ?_⟩
  · rw [rebuild_store]
    exact hlast
  · have hd := List.mem_of_getElem? hi
    have hv := List.mem_of_getElem? hi'
    have hbus : real.bus = dry.bus := by
      have h1 := congrArg (·[i]?) (hbuses'.trans hbuses.symm)
      simpa [hi, hi'] using h1
    have ha := hreal.ahead (s.ahead_self scope) hi'
    rw [List.nil_append] at ha
    rw [rebuild_store]
    cases hr : s.resolve dry.bus.val with
    | error e =>
      exact foretold_of_skipped (hdry.sound hd) (hall dry hd) (hbefore dry hd) (hreal.sound hv)
        (hall' real hv) hbus ha hr
    | ok r =>
      exact foretold_of_planned (hdry.sound hd) (hall dry hd) (hbefore dry hd) (hreal.sound hv)
        (hall' real hv) hbus ha (fun l hl => hreal.linked_mem hv hl) hr

end Linkage
