import Linkage.Proofs.Rebuild.Integrity
import Linkage.Proofs.Rebuild.SinkOrder

/-!
# The result tables of a plan

A plan names each result table that its sinks refer to, once and when the first of them does, with the
table id of the row in the store.

* `Store.Columned`          only storage bindings have a column for a result table;
* `columned_runAll`         all stores that come about are like this;
* `Query.resolve_of_planned`   a plan is that of what the data-bus resolves to;
* `Store.Tabled`            the result tables of a plan in terms of its sinks and of the store;
* `plan_tables`             every plan is like this.
-/

namespace Linkage

namespace Store

/-- The tables of sinks have the columns of their kinds: one for a result table where the sinks are
storage bindings, and none for conditional sinks. -/
def Columned (s : Store) : Prop :=
  ∀ k, ∀ x ∈ (s.sinks.get k).rows, x.val.detail.isSome = k.isStorage

theorem columned_runAll (guards : List (TableName × RowEvent)) (outage : Nat → Bool)
    (steps : List Step) : (runAll steps ⟨.empty, guards, outage, 0⟩).store.Columned :=
  (consistent_runAll consistent_empty steps).storage

end Store

theorem Query.resolve_of_planned {now : Int} {b : Row Bus} {db : Db} {plan : Plan} {event : Event}
    (h : (rebuildBus true now b db).1 = .ok (.planned plan, event)) :
    ∃ r, db.store.resolve b.val = .ok r ∧ plan = r.plan b.val := by
  have hdid : db.store.rebuildBus true now b = _ := (Means.rebuildBus true now b).sound db _ h
  unfold Store.rebuildBus at hdid
  cases hr : db.store.resolve b.val with
  | error e =>
    rw [hr] at hdid
    cases (Prod.mk.inj hdid).1
  | ok r =>
    rw [hr] at hdid
    exact ⟨r, rfl, (Outcome.planned.inj (congrArg (fun x => x.1.1) hdid)).symm⟩

namespace Store

variable {s : Store} {b : Bus} {r : Resolution}

/-- The result tables of a plan. -/
structure Tabled (s : Store) (b : Bus) (plan : Plan) : Prop where
  distinct : (plan.tables.map PlannedTable.name).Nodup
  /-- they are those that sinks of the plan refer to, in the order in which these first do -/
  names : plan.tables.map PlannedTable.name
    = (plan.sinks.filterMap (s.reference? b.scope)).eraseDups
  /-- each sink of the plan has one row, in the table of its kind -/
  sink : ∀ p ∈ plan.sinks, ∃ x ∈ (s.sinks.get p.kind).rows,
    x.val.scope = b.scope ∧ x.val.name = p.name ∧ s.reference? b.scope p = x.val.detail ∧
      ∀ y ∈ (s.sinks.get p.kind).rows, y.val.scope = b.scope → y.val.name = p.name → y = x
  /-- storage bindings refer to a result table, which is in the plan, and conditional sinks to none -/
  reference : s.Columned → ∀ p ∈ plan.sinks,
    if p.kind.isStorage then ∃ n, s.reference? b.scope p = some n ∧ n ≠ "" ∧
      n ∈ plan.tables.map PlannedTable.name
    else s.reference? b.scope p = none
  /-- each result table has one row, which has its table id -/
  stored : ∀ t ∈ plan.tables, ∃ x ∈ s.resultTables.rows,
    x.val.scope = b.scope ∧ x.val.name = t.name ∧ x.val.detail = t.tableId ∧
      ∀ y ∈ s.resultTables.rows, y.val.scope = b.scope → y.val.name = t.name → y = x
  tableIds : plan.tableIds = (plan.tables.map PlannedTable.tableId).filter fun i => i ≠ ""

theorem named_of_reference (h : s.resolve b = .ok r) : ∀ x ∈ r.sinks, x.row.val.detail ≠ some "" := by
  obtain ⟨_, ss, names, _, _, _, _, _, hnames, _, _, rfl⟩ := resolve_eq_ok_iff.1 h
  have hstops := stops_tableNames [] ss
  rw [hnames] at hstops
  exact fun x hx hd => hstops ⟨x, hx, hd⟩

theorem tabled_plan (h : s.resolve b = .ok r) : s.Tabled b (r.plan b) := by
  have hres := resolved_of_resolve h
  obtain ⟨listed, hordered⟩ := ordered_plan h
  have hreference (x : ListedSink) (hx : x ∈ r.sinks) :
      s.reference? b.scope ⟨x.kind, x.row.val.name⟩ = x.row.val.detail :=
    congrArg (Option.bind · _) (hres.named?_sink hx)
  refine ⟨?_, hordered.tables, fun p hp => ?_, fun hcolumned p hp => ?_, fun t ht => ?_,
    hordered.tableIds⟩
  · rw [hordered.tables]
    exact nodup_eraseDups _
  · obtain ⟨x, hx, rfl⟩ := List.mem_map.1 hp
    obtain ⟨hmem, hscope⟩ := hres.sink_mem x hx
    exact ⟨x.row, hmem, hscope, rfl, hreference x hx,
      fun y hy hs hn => Table.eq_of_name hy hmem (hs.trans hscope.symm) hn⟩
  · have hnames {n : String} (hn : s.reference? b.scope p = some n) :
        n ∈ (r.plan b).tables.map PlannedTable.name := by
      rw [hordered.tables, List.mem_eraseDups]
      exact List.mem_filterMap.2 ⟨p, hp, hn⟩
    obtain ⟨x, hx, rfl⟩ := List.mem_map.1 hp
    have hkind := hcolumned x.kind x.row (hres.sink_mem x hx).1
    split
    · rename_i hstorage
      -- a reference to an empty name would have stopped the data-bus
      obtain ⟨n, hn⟩ := Option.isSome_iff_exists.1 (hkind.trans hstorage)
      refine ⟨n, (hreference x hx).trans hn, fun hempty => ?_, hnames ((hreference x hx).trans hn)⟩
      exact named_of_reference h x hx (hempty ▸ hn)
    · rename_i hstorage
      rw [hreference x hx]
      exact Option.not_isSome_iff_eq_none.1 fun hsome => hstorage (hkind.symm.trans hsome)
  · obtain ⟨x, hx, rfl⟩ := List.mem_map.1 ht
    obtain ⟨hmem, hscope⟩ := hres.table_mem x hx
    exact ⟨x, hmem, hscope, rfl, rfl,
      fun y hy hs hn => Table.eq_of_name hy hmem (hs.trans hscope.symm) hn⟩

end Store

/-- The result tables of a plan that a dry run makes are different ones, namely those that its sinks
refer to, in the order in which they first do, each with the table id of the one row of its name in the
scope of the data-bus; the table ids of the plan are these, without empty ones. -/
theorem plan_tables {now : Int} {b : Row Bus} {db : Db} {plan : Plan} {event : Event}
    (h : (Query.rebuildBus true now b db).1 = .ok (.planned plan, event)) :
    db.store.Tabled b.val plan := by
  obtain ⟨r, hr, rfl⟩ := Query.resolve_of_planned h
  exact Store.tabled_plan hr

/-- A store in which sinks of two kinds refer to one result table, another result table has an empty
table id, and a conditional sink refers to none. -/
def Store.joint : Store :=
  { Store.empty with
    sources := [⟨7, "source", "bk_standard_v2_event"⟩]
    sinks := { SinkTables.empty with
      vm := .ofList [⟨⟨"t", "n"⟩, "v1", "", some "a"⟩, ⟨⟨"t", "n"⟩, "v2", "", some "b"⟩] (by decide)
      elastic := .single ⟨⟨"t", "n"⟩, "e", "", some "a"⟩
      conditional := .single ⟨⟨"t", "n"⟩, "c", "", none⟩ }
    resultTables := .ofList [⟨⟨"t", "n"⟩, "b", "", ""⟩, ⟨⟨"t", "n"⟩, "a", "", "2_a"⟩] (by decide) }

def Store.jointEntries : List String :=
  ["ElasticSearchBinding:e", "ConditionalSink:c", "VmStorageBinding:v2", "VmStorageBinding:v1"]

/-- The plan of a data-bus that lists all of its sinks. -/
def Store.jointPlan : Plan where
  link := "rebuilt__t__n__bus"
  strategy := .standardV2Event
  dataId := 7
  tableIds := ["2_a"]
  sinks := [⟨.elastic, "e"⟩, ⟨.conditional, "c"⟩, ⟨.vm, "v2"⟩, ⟨.vm, "v1"⟩]
  tables := [⟨"a", "2_a"⟩, ⟨"b", ""⟩]

theorem plan_tables_joint : ∃ event,
    (Query.rebuildBus true 9 (Store.gatedBus Store.jointEntries) (.of .joint)).1
      = .ok (.planned Store.jointPlan, event) ∧
    Store.joint.Columned ∧
    Store.joint.Tabled (Store.gatedBus Store.jointEntries).val Store.jointPlan := by
  have hmeans := Query.Means.rebuildBus true 9 (Store.gatedBus Store.jointEntries)
  obtain ⟨⟨o, event⟩, hrun⟩ := hmeans.total (.of .joint) (Db.reliable_of _)
  have hdid : Store.joint.rebuildBus true 9 (Store.gatedBus Store.jointEntries) = _ :=
    hmeans.sound (.of .joint) _ hrun
  have hplanned : (Store.joint.rebuildBus true 9 (Store.gatedBus Store.jointEntries)).1.1
      = .planned Store.jointPlan := by decide +kernel
  rw [hdid] at hplanned
  have ho : o = .planned Store.jointPlan := hplanned
  rw [ho] at hrun
  refine ⟨event, hrun, fun k => ?_, plan_tables hrun⟩
  cases k <;> decide

end Linkage
