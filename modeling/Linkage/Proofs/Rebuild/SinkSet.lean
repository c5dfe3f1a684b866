import Linkage.Proofs.Rebuild.Writing

/-!
# A sink list counts as a set

The order of the entries of a sink list, and how often they stand in it, make no difference to what
becomes of a data-bus.

* `Component.SameEntries`    two data-buses that differ in this only;
* `SameEntries.applies_iff`  the same reasons apply to both;
* `SameEntries.resolve`      both resolve, to the same sinks and result tables, or fail alike;
* `SameRun`                  what both runs have in common;
* `sinkList_as_set`          this holds of both runs.
-/

namespace Linkage

/-- The two data-buses differ in their sink lists only, and these have the same entries. -/
structure Component.SameEntries (b c : Bus) : Prop where
  only : c = { b with detail := { b.detail with sinkList := c.detail.sinkList } }
  entries : ∃ es fs, b.HasEntries es ∧ c.HasEntries fs ∧ ∀ e, e ∈ es ↔ e ∈ fs

/-- The same link, strategy, sinks and result tables. -/
structure Resolution.Same (r q : Resolution) : Prop where
  link : r.link = q.link
  strategy : r.strategy = q.strategy
  sinks : ∀ x, x ∈ r.sinks ↔ x ∈ q.sinks
  tables : r.tables.Perm q.tables

/-! ## the checks -/

namespace Component

variable {b c : Bus}

theorem lists_iff_entry {k : SinkKind} {name : String} :
    b.Lists k name ↔ b.Entry (PlannedSink.mk k name).text := by
  unfold Lists Entry
  simp only [hasEntries_iff]

namespace SameEntries

variable (h : b.SameEntries c)
include h

theorem scope : c.scope = b.scope := by rw [h.only]

theorem name : c.name = b.name := by rw [h.only]

theorem dataId : c.detail.dataId = b.detail.dataId := by rw [h.only]

theorem entry_iff {e : String} : c.Entry e ↔ b.Entry e := by
  obtain ⟨es, fs, hes, hfs, hmem⟩ := h.entries
  rw [hes.entry_iff, hfs.entry_iff, hmem]

theorem lists_iff {k : SinkKind} {name : String} : c.Lists k name ↔ b.Lists k name := by
  rw [lists_iff_entry, lists_iff_entry, h.entry_iff]

theorem listsKind_iff {k : SinkKind} : c.ListsKind k ↔ b.ListsKind k :=
  exists_congr fun _ => h.lists_iff

theorem refers_iff {s : Store} {name : String} : s.Refers c name ↔ s.Refers b name := by
  unfold Store.Refers
  simp only [h.lists_iff, h.scope]

theorem listedRow_iff {s : Store} {k : SinkKind} {x : Row Sink} :
    s.ListedRow c k x ↔ s.ListedRow b k x := by
  unfold Store.ListedRow
  rw [h.scope, h.lists_iff]

theorem referredRow_iff {s : Store} {t : Row ResultTable} :
    s.ReferredRow c t ↔ s.ReferredRow b t := by
  unfold Store.ReferredRow
  rw [h.scope, h.refers_iff]

theorem gives_iff {s : Store} {strategy : Strategy} : s.Gives c strategy ↔ s.Gives b strategy := by
  unfold Store.Gives
  simp only [h.listsKind_iff, h.dataId]

/-- the same reasons apply -/
theorem applies_iff (s : Store) (r : SkipReason) : s.Applies c r ↔ s.Applies b r := by
  cases r with
  | malformedSinkEntry =>
    obtain ⟨es, fs, hes, hfs, -⟩ := h.entries
    have hread : (∃ es, c.HasEntries es) ↔ ∃ es, b.HasEntries es :=
      iff_of_true ⟨fs, hfs⟩ ⟨es, hes⟩
    unfold Store.Applies
    simp only [hread, h.entry_iff]
  | unknownSinkKind => simp only [Store.Applies, h.entry_iff]
  | missingComponent => simp only [Store.Applies, h.lists_iff, h.scope]
  | componentConflict => simp only [Store.Applies, h.listedRow_iff]
  | emptyTableReference => simp only [Store.Applies, h.listedRow_iff]
  | missingResultTable => simp only [Store.Applies, h.refers_iff, h.scope]
  | resultTableConflict => simp only [Store.Applies, h.refers_iff, h.scope]
  | missingDataSource => simp only [Store.Applies, h.listsKind_iff, h.dataId]
  | unmappedEtlConfig => simp only [Store.Applies, h.listsKind_iff, h.dataId]

end SameEntries

end Component

theorem Store.Gives.unique {s : Store} {b : Bus} {t u : Strategy} (ht : s.Gives b t)
    (hu : s.Gives b u) : t = u := by
  rcases ht with ⟨he, hd, rfl⟩ | ⟨hno, a, ha, ht⟩
  · rcases hu with ⟨-, -, rfl⟩ | ⟨hno, -⟩
    · rfl
    · exact absurd ⟨he, hd⟩ hno
  · rcases hu with ⟨he, hd, -⟩ | ⟨-, a', ha', hu⟩
    · exact absurd ⟨he, hd⟩ hno
    · rw [ha] at ha'
      cases ha'
      rw [ht] at hu
      exact Option.some.inj hu

/-- the checks stop for the same reason, or find the same rows -/
theorem Component.SameEntries.resolve {b c : Bus} (h : b.SameEntries c) (s : Store) :
    (∃ e f, s.resolve b = .error e ∧ s.resolve c = .error f ∧ e.reason = f.reason) ∨
      ∃ r q, s.resolve b = .ok r ∧ s.resolve c = .ok q ∧ r.Same q := by
  have hb := Store.decides_resolve s b
  have hc := Store.decides_resolve s c
  cases hr : s.resolve b with
  | error e =>
    have hreason := hb.error_iff.1 ⟨e, hr, rfl⟩
    simp only [← h.applies_iff] at hreason
    obtain ⟨f, hf, he⟩ := hc.error_iff.2 hreason
    exact .inl ⟨e, f, rfl, hf, he.symm⟩
  | ok r =>
    have hnone := hb.ok_iff.1 ⟨r, hr⟩
    simp only [← h.applies_iff] at hnone
    obtain ⟨q, hq⟩ := hc.ok_iff.2 hnone
    have hrb := Store.resolved_of_resolve hr
    have hqc := Store.resolved_of_resolve hq
    refine .inr ⟨r, q, rfl, hq, ?_, ?_, fun x => ?_, ?_⟩
    · rw [hrb.link, hqc.link, h.scope, h.name]
    · exact (Store.gives_strategy hr).unique (h.gives_iff.1 (Store.gives_strategy hq))
    · obtain ⟨k, row⟩ := x
      rw [← hrb.listedRow_iff, ← hqc.listedRow_iff, h.listedRow_iff]
    · refine (List.perm_ext_iff_of_nodup (Store.nodup_tables hr) (Store.nodup_tables hq)).2 ?_
      intro t
      rw [← hrb.referredRow_iff, ← hqc.referredRow_iff, h.referredRow_iff]

theorem Resolution.Same.tableIds {r q : Resolution} (h : r.Same q) :
    r.tableIds.Perm q.tableIds := (h.tables.map _).filter _

/-! ## what is written -/

/-- The plans of two runs that differ at most in the order of what they name. -/
structure Plan.Same (p q : Plan) : Prop where
  link : p.link = q.link
  strategy : p.strategy = q.strategy
  dataId : p.dataId = q.dataId
  tableIds : p.tableIds.Perm q.tableIds
  sinks : ∀ x, x ∈ p.sinks ↔ x ∈ q.sinks
  tables : p.tables.Perm q.tables

/-- The link rows of two runs: they differ at most in the order of their table ids. -/
structure Row.ReorderedLink (l m : Row Link) : Prop where
  id : m.id = l.id
  val : m.val = { l.val with tableIds := m.val.tableIds }
  strategy : ∃ strategy, l.val.readStrategy = .ok strategy ∧ m.val.readStrategy = .ok strategy
  tableIds : ∃ ts us, l.val.readTableIds = .ok ts ∧ m.val.readTableIds = .ok us ∧ ts.Perm us

/-- `u` and `v` are the store `s` after two links in which the same rows were stamped: those of the
data-bus `b`, of the sinks it lists and of the result tables these refer to. -/
structure Store.SameStamps (s u v : Store) (b : Row Bus) (link : String) : Prop where
  buses : s.buses.Marked u.buses (fun x => x.id = b.id) link ∧ v.buses = u.buses
  sinks : ∀ k, (s.sinks.get k).Marked (u.sinks.get k) (s.ListedRow b.val k) link ∧
    v.sinks.get k = u.sinks.get k
  resultTables : s.resultTables.Marked u.resultTables (s.ReferredRow b.val) link ∧
    v.resultTables = u.resultTables
  /-- the other links are those that were there -/
  links : ∀ x, ¬(x.val.scope = b.val.scope ∧ x.val.name = link) →
    (x ∈ u.links.rows ↔ x ∈ s.links.rows) ∧ (x ∈ v.links.rows ↔ x ∈ s.links.rows)

/-- Two runs on the store `s`, each with its outcome and the store after it, that do the same for
the data-bus `b`. -/
inductive SameRun (s : Store) (b : Row Bus) : Outcome × Store → Outcome × Store → Prop
  | skipped (r : SkipReason) : SameRun s b (.skipped r, s) (.skipped r, s)
  | planned {p q : Plan} (h : p.Same q) : SameRun s b (.planned p, s) (.planned q, s)
  | linked {l m : Row Link} {u v : Store} (h : l.ReorderedLink m)
      (hname : l.val.name = b.val.scope.linkName b.val.name)
      (hstamps : s.SameStamps u v b l.val.name) : SameRun s b (.linked l, u) (.linked m, v)

namespace Resolution.Same

variable {s : Store} {b c : Row Bus} {r q : Resolution} (h : r.Same q)
  (he : b.val.SameEntries c.val)
include h he

theorem plan : (r.plan b.val).Same (q.plan c.val) where
  link := h.link
  strategy := h.strategy
  dataId := he.dataId.symm
  tableIds := h.tableIds
  sinks x := by
    unfold Resolution.plan
    simp only [List.mem_map, h.sinks]
  tables := h.tables.map _

theorem reorderedLink (s : Store) (now : Int) :
    (s.putLink (r.commit b).draft now).1.ReorderedLink (s.putLink (q.commit c).draft now).1 := by
  have hdraft : (q.commit c).draft = { (r.commit b).draft with tableIds := q.tableIds } := by
    unfold Resolution.commit
    rw [he.scope, he.dataId, h.link, h.strategy]
  obtain ⟨-, hr, -, hrids⟩ := @Store.putLink_val (r.commit b).draft now s
  obtain ⟨-, hq, -, hqids⟩ := @Store.putLink_val (q.commit c).draft now s
  have hsame : (q.commit c).draft.strategy.text = r.strategy.text := congrArg _ h.strategy.symm
  refine ⟨?_, ?_, ⟨r.strategy, Link.readStrategy_text hr, Link.readStrategy_text (hq.trans hsame)⟩,
    ⟨r.tableIds, q.tableIds, Link.readTableIds_listColumn hrids, Link.readTableIds_listColumn hqids,
      h.tableIds⟩⟩
  · rw [hdraft, Store.putLink_tableIds]
  · rw [hdraft, Store.putLink_tableIds]

/-- the rows that are stamped are the same -/
theorem sameStamps (hr : s.Resolved b.val r) (hq : s.Resolved c.val q) (hid : c.id = b.id)
    (now : Int) : s.SameStamps (s.commitLink (r.commit b) now).2 (s.commitLink (q.commit c) now).2 b
      r.link := by
  have hrs := Store.stamping_commitLink hr now
  have hqs := Store.stamping_commitLink hq now
  obtain ⟨hbuses, hsinks, htables, -⟩ := hqs
  rw [← h.link] at hbuses hsinks htables
  refine ⟨⟨hrs.buses, ?_⟩, fun k => ⟨?_, ?_⟩, ⟨?_, ?_⟩, fun x hx => ⟨?_, ?_⟩⟩
  · exact hbuses.unique hrs.buses fun x _ => by rw [hid]
  · exact (hrs.sinks k).congr fun _ _ => hr.listedRow_iff.symm
  · exact (hsinks k).unique (hrs.sinks k) fun x _ => (h.sinks ⟨k, x⟩).symm
  · exact hrs.resultTables.congr fun _ _ => hr.referredRow_iff.symm
  · exact htables.unique hrs.resultTables fun x _ => h.tables.mem_iff.symm
  · exact Store.mem_links_putLink_of_ne hx
  · rw [← he.scope, h.link] at hx
    exact Store.mem_links_putLink_of_ne hx

end Resolution.Same

theorem Component.SameEntries.sameRun {b c : Row Bus} (h : b.val.SameEntries c.val)
    (hid : c.id = b.id) (dryRun : Bool) (now : Int) (s : Store) :
    SameRun s b ((s.rebuildBus dryRun now b).1.1, (s.rebuildBus dryRun now b).2)
      ((s.rebuildBus dryRun now c).1.1, (s.rebuildBus dryRun now c).2) := by
  unfold Store.rebuildBus
  rcases h.resolve s with ⟨e, f, he, hf, hreason⟩ | ⟨r, q, hr, hq, hsame⟩
  · rw [he, hf]
    show SameRun s b (.skipped e.reason, s) (.skipped f.reason, s)
    rw [← hreason]
    exact .skipped _
  · rw [hr, hq]
    have hrb := Store.resolved_of_resolve hr
    have hqc := Store.resolved_of_resolve hq
    cases dryRun with
    | true => exact .planned (hsame.plan h)
    | false =>
      have hname : (s.putLink (r.commit b).draft now).1.val.name = r.link := Store.putLink_val.1.2
      refine .linked (hsame.reorderedLink h s now) (hname.trans hrb.link) ?_
      show s.SameStamps _ _ b (s.putLink (r.commit b).draft now).1.val.name
      rw [hname]
      exact hsame.sameStamps h hrb hqc hid now

/-- Two data-buses that differ only in their sink lists, and in these only by the order of the entries
and by how often they stand there: when no statement fails, both are skipped for the same reason, or
both are planned, or both are linked under one name, with the same strategy and the same table ids in
some order, and the same rows of every table are stamped. -/
theorem sinkList_as_set (dryRun : Bool) (now : Int) (s : Store) {b c : Row Bus} (hid : c.id = b.id)
    (h : b.val.SameEntries c.val) :
    ∃ o e p f, (Query.rebuildBus dryRun now b (.of s)).1 = .ok (o, e) ∧
      (Query.rebuildBus dryRun now c (.of s)).1 = .ok (p, f) ∧
      SameRun s b (o, (Query.rebuildBus dryRun now b (.of s)).2.store)
        (p, (Query.rebuildBus dryRun now c (.of s)).2.store) := by
  have hb := Query.Means.rebuildBus dryRun now b
  have hc := Query.Means.rebuildBus dryRun now c
  obtain ⟨⟨o, e⟩, ho⟩ := hb.total (.of s) (Db.reliable_of s)
  obtain ⟨⟨p, f⟩, hp⟩ := hc.total (.of s) (Db.reliable_of s)
  have hsame := h.sameRun hid dryRun now s
  have hbs : s.rebuildBus dryRun now b = _ := hb.sound (.of s) _ ho
  have hcs : s.rebuildBus dryRun now c = _ := hc.sound (.of s) _ hp
  rw [hbs, hcs] at hsame
  exact ⟨o, e, p, f, ho, hp, hsame⟩

/-- A store with a data-bus whose sink list names two sinks. -/
def Store.gated : Store :=
  { Store.pipeline with
    sinks := { Store.pipeline.sinks with conditional := .single ⟨⟨"t", "n"⟩, "gate", "", none⟩ } }

/-- A data-bus of this store with a sink list. -/
def Store.gatedBus (entries : List String) : Row Bus :=
  ⟨1, ⟨⟨"t", "n"⟩, "bus", "", ⟨7, listColumn entries⟩⟩⟩

theorem sinkList_as_set_gated : ∃ b c : Row Bus, c.id = b.id ∧ b.val.SameEntries c.val ∧
    b.val.HasEntries ["ElasticSearchBinding:sink", "ConditionalSink:gate"] ∧
    c.val.HasEntries ["ConditionalSink:gate", "ElasticSearchBinding:sink", "ConditionalSink:gate"] ∧
    ∃ l e m f, (Query.rebuildBus false 9 b (.of .gated)).1 = .ok (.linked l, e) ∧
      (Query.rebuildBus false 9 c (.of .gated)).1 = .ok (.linked m, f) ∧
      SameRun .gated b (.linked l, (Query.rebuildBus false 9 b (.of .gated)).2.store)
        (.linked m, (Query.rebuildBus false 9 c (.of .gated)).2.store) := by
  let b := Store.gatedBus ["ElasticSearchBinding:sink", "ConditionalSink:gate"]
  let c := Store.gatedBus
    ["ConditionalSink:gate", "ElasticSearchBinding:sink", "ConditionalSink:gate"]
  have hb : b.val.HasEntries _ := Json.parse?_texts _
  have hc : c.val.HasEntries _ := Json.parse?_texts _
  have hsame : b.val.SameEntries c.val := ⟨rfl, _, _, hb, hc, by simp [or_comm]⟩
  obtain ⟨o, e, p, f, ho, hp, hrun⟩ := sinkList_as_set false 9 .gated (b := b) (c := c) rfl hsame
  have hdid := (Query.Means.rebuildBus false 9 b).sound (.of .gated) _ ho
  have hlinked : (Store.gated.rebuildBus false 9 b).1.1 = .linked ⟨1, ⟨⟨"t", "n"⟩,
      "rebuilt__t__n__bus", "bk_standard_v2_event", 7, "[\"2_bkmonitor.table\"]", 9, 9⟩⟩ := by
    decide +kernel
  have hl : o = _ := (congrArg (fun x => x.1.1) hdid).symm.trans hlinked
  subst hl
  cases hrun with
  | linked h hname hstamps =>
    exact ⟨b, c, rfl, hsame, hb, hc, _, e, _, f, ho, hp, .linked h hname hstamps⟩

end Linkage
