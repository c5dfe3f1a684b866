import Linkage.Proofs.Rebuild.SinkSet

/-!
# The order in which a plan names sinks and result tables

The sinks of a list are looked up kind by kind, and a plan names them in this order.  It is the order of
the list as long as no kind comes back after another one.

* `flatMap_ofSinks`          the sinks of the groups, laid end to end;
* `Store.reference?`         the result table that a planned sink refers to;
* `tableNames_eq`            result tables are named when a sink first refers to them;
* `Store.Ordered`            the plan of a data-bus in terms of its sink list;
* `planned_by_kind`          every plan is like this, and a link gets the table ids of the plan;
* `interleaved_reordered`    a plan whose sinks do not stand as in the list.
-/

namespace Linkage

/-! ## the sinks of a list, group by group -/

namespace SinkGroup

/-- the sinks of the groups, one group after the other -/
theorem flatMap_ofSinks (ps : List PlannedSink) :
    (ofSinks ps).flatMap (fun g => g.names.map (PlannedSink.mk g.kind))
      = byKey PlannedSink.kind ps := by
  unfold ofSinks byKey
  rw [List.flatMap_map]
  refine List.flatMap_congr fun k _ => ?_
  rw [List.map_map]
  calc ((ps.filter fun p => p.kind = k).map (PlannedSink.mk k ∘ PlannedSink.name))
    _ = (ps.filter fun p => p.kind = k).map id := List.map_congr_left fun p hp => by
        have hk : p.kind = k := of_decide_eq_true (List.mem_filter.1 hp).2
        subst hk
        rfl
    _ = ps.filter fun p => p.kind = k := List.map_id _

end SinkGroup

/-! ## the rows that are found -/

theorem Table.map_name_found {δ : Type} {t : Table (Component.key (δ := δ))} {scope : Scope}
    {names : List String} (h : t.lost scope names = []) :
    (t.found scope names).map (·.val.name) = names := by
  have hall := Table.lost_eq_nil_iff.1 h
  clear h
  induction names with
  | nil => rfl
  | cons n ns ih =>
    obtain ⟨⟨r, hr⟩, hns⟩ := List.forall_mem_cons.1 hall
    have hn : r.val.name = n := (Table.named?_eq_some_iff.1 hr).2.2
    have hfound : t.found scope (n :: ns) = r :: t.found scope ns := List.filterMap_cons_some hr
    rw [hfound, List.map_cons, ih hns, hn]

namespace Store

variable {s : Store} {scope : Scope}

theorem planned_allSinks {gs : List SinkGroup} {ss : List ListedSink}
    (h : s.allSinks scope gs = .ok ss) :
    (ss.map fun x => PlannedSink.mk x.kind x.row.val.name)
      = gs.flatMap fun g => g.names.map (PlannedSink.mk g.kind) := by
  induction gs generalizing ss with
  | nil =>
    cases h
    rfl
  | cons g gs ih =>
    obtain ⟨as, ha, h⟩ := Except.bind_eq_ok_iff.1 h
    obtain ⟨bs, hb, h⟩ := Except.bind_eq_ok_iff.1 h
    cases h
    obtain ⟨hlost, rfl⟩ := groupSinks_eq_ok_iff.1 ha
    have hnames := Table.map_name_found hlost
    rw [List.map_append, List.flatMap_cons, ih hb, List.map_map]
    refine congrArg (· ++ _) (Eq.trans ?_ (congrArg (List.map (PlannedSink.mk g.kind)) hnames))
    rw [List.map_map]
    rfl

theorem tableNames_eq {xs names : List String} {ss : List ListedSink}
    (h : tableNames xs.eraseDups ss = .ok names) :
    names = (xs ++ ss.filterMap (·.row.val.detail)).eraseDups := by
  -- the names that were seen are those of all references so far, each once
  induction ss generalizing xs with
  | nil =>
    cases h
    rw [List.filterMap_nil, List.append_nil]
  | cons x ss ih =>
    rw [tableNames] at h
    cases hd : x.row.val.detail with
    | none =>
      have hskip : (x :: ss).filterMap (·.row.val.detail) = ss.filterMap (·.row.val.detail) :=
        List.filterMap_cons_none hd
      rw [hd] at h
      rw [ih h, hskip]
    | some t =>
      have hnext : tableNames (xs ++ [t]).eraseDups ss = .ok names := by
        rw [hd] at h
        simp only at h
        rw [eraseDups_concat]
        split at h
        · cases h
        · split at h
          · rename_i hseen
            rwa [if_pos (List.mem_eraseDups.1 (List.contains_iff_mem.1 hseen))]
          · rename_i hseen
            rwa [if_neg fun hx => hseen (List.contains_iff_mem.2 (List.mem_eraseDups.2 hx))]
      have hadd : (x :: ss).filterMap (·.row.val.detail) = t :: ss.filterMap (·.row.val.detail) :=
        List.filterMap_cons_some hd
      rw [ih hnext, hadd, List.append_assoc]
      rfl

/-- The result table that a planned sink refers to. -/
def reference? (s : Store) (scope : Scope) (p : PlannedSink) : Option String :=
  ((s.sinks.get p.kind).named? scope p.name).bind (·.val.detail)

/-- The plan of a data-bus whose sink list has these sinks, in the order of the list: it names them
kind by kind, and the result tables when a sink of the plan first refers to them. -/
structure Ordered (s : Store) (b : Bus) (plan : Plan) (listed : List PlannedSink) : Prop where
  entries : b.HasEntries (listed.map PlannedSink.text)
  sinks : plan.sinks = byKey PlannedSink.kind listed
  tables : plan.tables.map PlannedTable.name
    = (plan.sinks.filterMap (s.reference? b.scope)).eraseDups
  tableIds : plan.tableIds = (plan.tables.map PlannedTable.tableId).filter fun t => t ≠ ""

theorem ordered_plan {b : Bus} {r : Resolution} (h : s.resolve b = .ok r) :
    ∃ listed, s.Ordered b (r.plan b) listed := by
  have hres := resolved_of_resolve h
  obtain ⟨gs, ss, names, ts, strategy, hgs, hss, -, hnames, hts, -, rfl⟩ := resolve_eq_ok_iff.1 h
  obtain ⟨hlost, rfl, -⟩ := ownableTables_eq_ok_iff.1 hts
  obtain ⟨listed, hlisted, hpartition⟩ := SinkGroup.exists_listed hgs
  obtain rfl := hpartition.eq_ofSinks
  have hdetails : (ss.map fun x => PlannedSink.mk x.kind x.row.val.name).filterMap
      (s.reference? b.scope) = ss.filterMap (·.row.val.detail) := by
    rw [List.filterMap_map]
    refine List.filterMap_congr fun x hx => ?_
    exact congrArg (Option.bind · _) (hres.named?_sink hx)
  refine ⟨listed, Component.hasEntries_iff.2 hlisted, ?_, ?_, ?_⟩
  · exact (planned_allSinks hss).trans (SinkGroup.flatMap_ofSinks listed)
  · have htables := @tableNames_eq [] names ss hnames
    rw [List.nil_append, ← hdetails] at htables
    have hfound := Table.map_name_found hlost
    unfold Resolution.plan
    rw [List.map_map, ← htables]
    exact hfound
  · unfold Resolution.plan Resolution.tableIds
    rw [List.map_map]
    rfl

/-- the link that a data-bus gets stores the table ids of the resolution -/
theorem stored_tableIds {b : Row Bus} {r : Resolution} (h : s.resolve b.val = .ok r) (now : Int) :
    ∃ l, (s.rebuildBus false now b).1.1 = .linked l ∧
      l ∈ (s.rebuildBus false now b).2.links.rows ∧ l.val.readTableIds = .ok r.tableIds := by
  unfold rebuildBus
  rw [h]
  exact ⟨_, rfl, mem_links_putLink.2 (.inl rfl),
    Link.readTableIds_listColumn putLink_val.2.2.2⟩

end Store

/-- A plan names the sinks of the list kind by kind, the kinds in the order of their first entry and
those of a kind in the order of the list: this is the order of the list when, and only when, no kind
comes back after another one.  It names the result tables when a sink of the plan first refers to them,
and a link that a run makes of the same store has the table ids of the plan. -/
theorem planned_by_kind {now : Int} {b : Row Bus} {db : Db} {plan : Plan} {event : Event}
    (h : (Query.rebuildBus true now b db).1 = .ok (.planned plan, event)) :
    ∃ listed, db.store.Ordered b.val plan listed ∧ plan.sinks.Perm listed ∧
      (plan.sinks = listed ↔ Unbroken PlannedSink.kind listed) ∧
      ∀ (later : Int) (next : Db), next.store = db.store →
        (next.Reliable → ∃ a, (Query.rebuildBus false later b next).1 = .ok a) ∧
        ∀ o e, (Query.rebuildBus false later b next).1 = .ok (o, e) → ∃ l, o = .linked l ∧
          l ∈ (Query.rebuildBus false later b next).2.store.links.rows ∧
          l.val.readTableIds = .ok plan.tableIds := by
  have hdid : db.store.rebuildBus true now b = _ := (Query.Means.rebuildBus true now b).sound db _ h
  cases hr : db.store.resolve b.val with
  | error e =>
    unfold Store.rebuildBus at hdid
    rw [hr] at hdid
    cases (Prod.mk.inj hdid).1
  | ok r =>
    have hplan : r.plan b.val = plan := by
      unfold Store.rebuildBus at hdid
      rw [hr] at hdid
      exact Outcome.planned.inj (congrArg (fun x => x.1.1) hdid)
    subst hplan
    obtain ⟨listed, hordered⟩ := Store.ordered_plan hr
    refine ⟨listed, hordered, ?_, ?_, fun later next hnext => ⟨?_, fun o e hrun => ?_⟩⟩
    · rw [hordered.sinks]
      exact perm_byKey _ listed
    · rw [hordered.sinks]
      exact byKey_eq_self_iff
    · exact (Query.Means.rebuildBus false later b).total next
    · have hlinked : next.store.rebuildBus false later b = _ :=
        (Query.Means.rebuildBus false later b).sound next _ hrun
      obtain ⟨l, hl, hmem, hids⟩ := Store.stored_tableIds hr later
      rw [← hnext, hlinked] at hl hmem
      exact ⟨l, hl, hmem, hids⟩

/-- A store with sinks of two kinds, each of which refers to a result table of its own. -/
def Store.interleaved : Store :=
  { Store.empty with
    sources := [⟨7, "source", "bk_standard_v2_event"⟩]
    sinks := { SinkTables.empty with
      vm := .ofList [⟨⟨"t", "n"⟩, "v1", "", some "a"⟩, ⟨⟨"t", "n"⟩, "v2", "", some "c"⟩] (by decide)
      elastic := .single ⟨⟨"t", "n"⟩, "e", "", some "b"⟩ }
    resultTables := .ofList [⟨⟨"t", "n"⟩, "a", "", "2_a"⟩, ⟨⟨"t", "n"⟩, "b", "", "2_b"⟩,
      ⟨⟨"t", "n"⟩, "c", "", "2_c"⟩] (by decide) }

/-- A sink list that comes back to a kind. -/
def Store.interleavedEntries : List String :=
  ["VmStorageBinding:v1", "ElasticSearchBinding:e", "VmStorageBinding:v2"]

/-- The plan of a data-bus with this list. -/
def Store.interleavedPlan : Plan where
  link := "rebuilt__t__n__bus"
  strategy := .standardV2Event
  dataId := 7
  tableIds := ["2_a", "2_c", "2_b"]
  sinks := [⟨.vm, "v1"⟩, ⟨.vm, "v2"⟩, ⟨.elastic, "e"⟩]
  tables := [⟨"a", "2_a"⟩, ⟨"c", "2_c"⟩, ⟨"b", "2_b"⟩]

theorem Store.planned_interleaved : ∃ event,
    (Query.rebuildBus true 9 (Store.gatedBus Store.interleavedEntries) (.of .interleaved)).1
      = .ok (.planned Store.interleavedPlan, event) := by
  have hmeans := Query.Means.rebuildBus true 9 (Store.gatedBus Store.interleavedEntries)
  obtain ⟨⟨o, event⟩, hrun⟩ := hmeans.total (.of .interleaved) (Db.reliable_of _)
  have hdid : Store.interleaved.rebuildBus true 9 (Store.gatedBus Store.interleavedEntries) = _ :=
    hmeans.sound (.of .interleaved) _ hrun
  have hplanned : (Store.interleaved.rebuildBus true 9 (Store.gatedBus Store.interleavedEntries)).1.1
      = .planned Store.interleavedPlan := by decide +kernel
  rw [hdid] at hplanned
  have ho : o = .planned Store.interleavedPlan := hplanned
  rw [ho] at hrun
  exact ⟨event, hrun⟩

theorem planned_by_kind_interleaved : ∃ event,
    (Query.rebuildBus true 9 (Store.gatedBus Store.interleavedEntries) (.of .interleaved)).1
      = .ok (.planned Store.interleavedPlan, event) ∧
    ∃ listed, Store.interleaved.Ordered (Store.gatedBus Store.interleavedEntries).val
      Store.interleavedPlan listed ∧ Store.interleavedPlan.sinks.Perm listed := by
  obtain ⟨event, hrun⟩ := Store.planned_interleaved
  obtain ⟨listed, hordered, hperm, -⟩ := planned_by_kind hrun
  exact ⟨event, hrun, listed, hordered, hperm⟩

/-- the second sink of a kind is planned before the sink that stands before it in the list -/
theorem interleaved_reordered : ∃ plan event,
    (Store.gatedBus Store.interleavedEntries).val.HasEntries Store.interleavedEntries ∧
    (Query.rebuildBus true 9 (Store.gatedBus Store.interleavedEntries) (.of .interleaved)).1
      = .ok (.planned plan, event) ∧
    plan.sinks.map PlannedSink.text ≠ Store.interleavedEntries ∧
    plan.tables.map PlannedTable.name ≠ ["a", "b", "c"] ∧ plan.tableIds ≠ ["2_a", "2_b", "2_c"] := by
  obtain ⟨event, hrun⟩ := Store.planned_interleaved
  exact ⟨_, event, Json.parse?_texts _, hrun, by decide, by decide, by decide⟩

end Linkage
