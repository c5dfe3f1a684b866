import Linkage.Proofs.Json.Values
import Linkage.Proofs.Rebuild.Batch
import Linkage.Proofs.Store.Claim

/-!
# Links, and what they own, always fit together

The store begins empty; data sources and components are added to it and batches run over its scopes,
in any order, whatever statements fail.

* `Store.Consistent`            what links, data-buses, sinks and result tables have to do with each
                                other;
* `Consistent.of_grows`         this stays true when something is added,
* `Consistent.of_linking`       and when a data-bus is linked;
* `Step`, `runAll`              the ways in which the store changes, and a sequence of them;
* `integral_runAll`             what a reader of the store may rely on after any such sequence.
-/

namespace Linkage

namespace Store

/-- A link has a data-bus of which it has name and data id, the name of a link is the one that is made
for its data-bus, and a link owns the sinks and result tables that its data-bus lists and refers to;
the table ids of a link are those of its result tables. -/
structure Consistent (s : Store) : Prop where
  bus_owner : ∀ b ∈ s.buses.rows, b.val.owner ≠ "" → b.val.owner = b.val.scope.linkName b.val.name
  bus_link : ∀ b ∈ s.buses.rows, b.val.owner ≠ "" →
    ∃ l ∈ s.links.rows, l.val.scope = b.val.scope ∧ l.val.name = b.val.owner
  link_bus : ∀ l ∈ s.links.rows, ∃ b ∈ s.buses.rows, b.val.scope = l.val.scope ∧
    b.val.owner = l.val.name ∧ b.val.owner ≠ "" ∧ l.val.dataId = b.val.detail.dataId
  sinks : ∀ k, (s.sinks.get k).Claimed s.buses fun b n => b.Lists k n
  resultTables : s.resultTables.Claimed s.buses s.Refers
  tableIds : ∀ l ∈ s.links.rows, ∃ ids, l.val.readTableIds = .ok ids ∧
    ∀ i, i ∈ ids ↔ i ≠ "" ∧ ∃ t ∈ s.resultTables.rows, t.val.scope = l.val.scope ∧
      t.val.owner = l.val.name ∧ t.val.detail = i
  storage : ∀ k, ∀ x ∈ (s.sinks.get k).rows, x.val.detail.isSome = k.isStorage

theorem consistent_empty : empty.Consistent where
  bus_owner b hb := by cases hb
  bus_link b hb := by cases hb
  link_bus l hl := by cases hl
  sinks k := by cases k <;> exact Table.claimed_empty
  resultTables := Table.claimed_empty
  tableIds l hl := by cases hl
  storage k x hx := by cases k <;> cases hx

namespace Consistent

variable {s u : Store}

theorem link_name (h : s.Consistent) {l : Row Link} (hl : l ∈ s.links.rows) : l.val.name ≠ "" := by
  obtain ⟨b, _, _, ho, hne, _⟩ := h.link_bus l hl
  rw [← ho]
  exact hne

/-! ## something is added -/

/-- a data-bus of a link refers to what it referred to before -/
theorem refers_of_grows (h : s.Consistent) (hg : s.Grows u) {b : Row Bus} (hb : b ∈ s.buses.rows)
    (ho : b.val.owner ≠ "") (n : String) : u.Refers b.val n ↔ s.Refers b.val n := by
  constructor
  · intro ⟨k, m, x, hm, hx, hd⟩
    obtain ⟨y, hy⟩ := (h.sinks k).there b hb ho m hm
    have : y = x := by
      have h1 := (hg.sinks k).named? hy
      rw [hx] at h1
      exact (Option.some.inj h1).symm
    subst this
    exact ⟨k, m, y, hm, hy, hd⟩
  · intro ⟨k, m, x, hm, hx, hd⟩
    exact ⟨k, m, x, hm, (hg.sinks k).named? hx, hd⟩

theorem of_grows (h : s.Consistent) (hg : s.Grows u) : u.Consistent where
  bus_owner b hb ho := h.bus_owner b ((hg.buses.mem_iff ho).1 hb) ho
  bus_link b hb ho := by
    rw [hg.links]
    exact h.bus_link b ((hg.buses.mem_iff ho).1 hb) ho
  link_bus l hl := by
    rw [hg.links] at hl
    obtain ⟨b, hb, hrest⟩ := h.link_bus l hl
    exact ⟨b, hg.buses.mem b hb, hrest⟩
  sinks k := (h.sinks k).of_grows (hg.sinks k) hg.buses fun _ _ _ _ => Iff.rfl
  resultTables := h.resultTables.of_grows hg.resultTables hg.buses fun _ hb ho n =>
    h.refers_of_grows hg hb ho n
  tableIds l hl := by
    rw [hg.links] at hl
    obtain ⟨ids, hread, hids⟩ := h.tableIds l hl
    refine ⟨ids, hread, fun i => ?_⟩
    rw [hids i]
    refine and_congr_right fun _ => exists_congr fun t => ?_
    constructor
    · intro ⟨ht, hrest⟩
      exact ⟨hg.resultTables.mem t ht, hrest⟩
    · intro ⟨ht, hs, ho, hd⟩
      have hne : t.val.owner ≠ "" := ho.symm ▸ h.link_name hl
      exact ⟨(hg.resultTables.mem_iff hne).1 ht, hs, ho, hd⟩
  storage k x hx := by
    rcases hg.storage k x hx with hx | hx
    · exact h.storage k x hx
    · exact hx

/-! ## a data-bus is linked -/

section
variable {b : Row Bus} {r : Resolution} {l : Row Link} (h : s.Consistent)
  (hb : b ∈ s.buses.rows) (hbo : b.val.owner = "")
include h hb hbo

/-- the link of a data-bus that has none belongs to no other data-bus of the scope -/
theorem owner_ne_linkName {a : Row Bus} (ha : a ∈ s.buses.rows)
    (hs : a.val.scope = b.val.scope) : a.val.owner ≠ b.val.scope.linkName b.val.name := by
  intro ho
  have hne : a.val.owner ≠ "" := ho.symm ▸ Scope.linkName_ne_empty _ _
  have hname := h.bus_owner a ha hne
  rw [ho, hs] at hname
  have : a = b := Table.eq_of_name ha hb hs (Scope.linkName_injective hname).symm
  subst this
  exact hne hbo

theorem link_ne_linkName {x : Row Link} (hx : x ∈ s.links.rows) :
    ¬(x.val.scope = b.val.scope ∧ x.val.name = b.val.scope.linkName b.val.name) := by
  intro ⟨hs, hn⟩
  obtain ⟨a, ha, has, hao, _, _⟩ := h.link_bus x hx
  exact h.owner_ne_linkName hb hbo ha (has.trans hs) (hao.trans hn)

theorem table_ne_linkName {t : Row ResultTable} (ht : t ∈ s.resultTables.rows)
    (hs : t.val.scope = b.val.scope) : t.val.owner ≠ b.val.scope.linkName b.val.name := by
  intro ho
  obtain ⟨a, ha, has, hao, _⟩ :=
    (h.resultTables.owner_iff t ht _ (Scope.linkName_ne_empty _ _)).1 ho
  exact h.owner_ne_linkName hb hbo ha (has.trans hs) hao

variable (hr : s.Resolved b.val r) (hl : s.Linking b r l u)
include hr hl

theorem mem_links {x : Row Link} : x ∈ u.links.rows ↔ x = l ∨ x ∈ s.links.rows := by
  rw [hl.links, hr.link]
  refine or_congr_right ⟨fun hx => hx.1, fun hx => ⟨hx, ?_⟩⟩
  exact h.link_ne_linkName hb hbo hx

theorem mem_tables_new {t : Row ResultTable} :
    (t ∈ u.resultTables.rows ∧ t.val.scope = b.val.scope ∧ t.val.owner = r.link) ↔
      ∃ a ∈ r.tables, t = ⟨a.id, a.val.own r.link⟩ := by
  constructor
  · intro ⟨ht, hs, ho⟩
    obtain ⟨a, ha, ⟨ham, rfl⟩ | ⟨_, rfl⟩⟩ := hl.resultTables.mem_iff.1 ht
    · exact ⟨a, ham, rfl⟩
    · rw [hr.link] at ho
      exact absurd ho (h.table_ne_linkName hb hbo ha hs)
  · intro ⟨a, ham, ht⟩
    obtain ⟨ha, hs⟩ := hr.table_mem a ham
    rw [ht]
    exact ⟨hl.resultTables.mem_iff.2 ⟨a, ha, .inl ⟨ham, rfl⟩⟩, hs, rfl⟩

theorem mem_tables_old {x : Row Link} (hx : x ∈ s.links.rows) {t : Row ResultTable} :
    (t ∈ u.resultTables.rows ∧ t.val.scope = x.val.scope ∧ t.val.owner = x.val.name) ↔
      t ∈ s.resultTables.rows ∧ t.val.scope = x.val.scope ∧ t.val.owner = x.val.name := by
  constructor
  · intro ⟨ht, hs, ho⟩
    obtain ⟨a, ha, ⟨ham, rfl⟩ | ⟨_, rfl⟩⟩ := hl.resultTables.mem_iff.1 ht
    · have hs' : x.val.scope = b.val.scope := hs.symm.trans (hr.table_mem a ham).2
      have ho' : x.val.name = r.link := ho.symm
      exact absurd ⟨hs', ho'.trans hr.link⟩ (h.link_ne_linkName hb hbo hx)
    · exact ⟨ha, hs, ho⟩
  · intro ⟨ht, hs, ho⟩
    have hnot : t ∉ r.tables := by
      intro hm
      exact h.link_name hx (ho.symm.trans (hr.table_unowned t hm))
    exact ⟨hl.resultTables.mem_iff.2 ⟨t, ht, .inr ⟨hnot, rfl⟩⟩, hs, ho⟩

theorem of_linking : u.Consistent where
  bus_owner x hx ho := by
    obtain ⟨a, ha, ⟨rfl, rfl⟩ | ⟨_, rfl⟩⟩ := hl.buses.mem_iff.1 hx
    · exact hr.link
    · exact h.bus_owner x ha ho
  bus_link x hx ho := by
    obtain ⟨a, ha, ⟨rfl, rfl⟩ | ⟨_, rfl⟩⟩ := hl.buses.mem_iff.1 hx
    · exact ⟨l, (h.mem_links hb hbo hr hl).2 (.inl rfl), hl.key⟩
    · obtain ⟨y, hy, hyk⟩ := h.bus_link x ha ho
      exact ⟨y, (h.mem_links hb hbo hr hl).2 (.inr hy), hyk⟩
  link_bus x hx := by
    rcases (h.mem_links hb hbo hr hl).1 hx with rfl | hx
    · refine ⟨⟨b.id, b.val.own r.link⟩, hl.buses.mem_iff.2 ⟨b, hb, .inl ⟨rfl, rfl⟩⟩,
        hl.key.1.symm, hl.key.2.symm, ?_, hl.dataId⟩
      show r.link ≠ ""
      rw [hr.link]
      exact Scope.linkName_ne_empty _ _
    · obtain ⟨a, ha, hs, ho, hne, hd⟩ := h.link_bus x hx
      have hab : a ≠ b := by
        intro he
        rw [he] at hne
        exact hne hbo
      exact ⟨a, hl.buses.mem_iff.2 ⟨a, ha, .inr ⟨hab, rfl⟩⟩, hs, ho, hne, hd⟩
  sinks k := by
    refine (h.sinks k).of_marked (hl.sinks k) hl.buses (fun x hx => hr.mem_sinks_iff hx)
      (fun x _ hm => hr.sink_unowned _ hm) hb hbo (fun n hn => ?_) (fun _ _ => Iff.rfl)
      fun _ _ _ => Iff.rfl
    obtain ⟨y, hy, rfl, rfl⟩ := (hr.lists_iff k n).1 hn
    exact ⟨y.row, hr.named?_sink hy⟩
  resultTables := by
    have hkeep := hl.keeps hr hbo
    refine h.resultTables.of_marked hl.resultTables hl.buses (fun x hx => hr.mem_tables_iff hx)
      (fun x _ hm => hr.table_unowned x hm) hb hbo (fun n hn => ?_) (fun _ _ => hkeep.refers_iff)
      fun _ _ _ => Iff.rfl
    obtain ⟨t, ht, rfl⟩ := hr.refers_iff.1 hn
    exact ⟨t, Table.named?_eq_some_iff.2 ⟨(hr.table_mem t ht).1, (hr.table_mem t ht).2, rfl⟩⟩
  tableIds x hx := by
    rcases (h.mem_links hb hbo hr hl).1 hx with rfl | hx
    · refine ⟨r.tableIds, ?_, fun i => ?_⟩
      · rw [Link.readTableIds, hl.tableIds]
        exact readListColumn_listColumn _ _
      · unfold Resolution.tableIds
        rw [List.mem_filter, List.mem_map, decide_eq_true_iff, and_comm]
        refine and_congr_right fun _ => ?_
        rw [hl.key.1, hl.key.2]
        constructor
        · rintro ⟨a, ha, hd⟩
          obtain ⟨h1, h2, h3⟩ := (h.mem_tables_new hb hbo hr hl).2 ⟨a, ha, rfl⟩
          exact ⟨_, h1, h2, h3, hd⟩
        · rintro ⟨t, h1, h2, h3, hd⟩
          obtain ⟨a, ha, rfl⟩ := (h.mem_tables_new hb hbo hr hl).1 ⟨h1, h2, h3⟩
          exact ⟨a, ha, hd⟩
    · obtain ⟨ids, hread, hids⟩ := h.tableIds x hx
      refine ⟨ids, hread, fun i => ?_⟩
      rw [hids i]
      refine and_congr_right fun _ => exists_congr fun t => ?_
      have hold := h.mem_tables_old hb hbo hr hl hx (t := t)
      constructor
      · rintro ⟨h1, h2, h3, hd⟩
        obtain ⟨h1, h2, h3⟩ := hold.2 ⟨h1, h2, h3⟩
        exact ⟨h1, h2, h3, hd⟩
      · rintro ⟨h1, h2, h3, hd⟩
        obtain ⟨h1, h2, h3⟩ := hold.1 ⟨h1, h2, h3⟩
        exact ⟨h1, h2, h3, hd⟩
  storage k x hx := by
    obtain ⟨a, ha, hax⟩ := ((hl.keeps hr hbo).sinks k).exists_before hx
    rw [hax.detail]
    exact h.storage k a ha

end

end Consistent

/-! ## what a reader may rely on -/

/-- A data-bus of the scope that the link of a name owns. -/
def Carries (s : Store) (scope : Scope) (link : String) (b : Row Bus) : Prop :=
  b ∈ s.buses.rows ∧ b.val.scope = scope ∧ b.val.owner = link

/-- Links and what they own fit together in every scope. -/
structure Integral (s : Store) : Prop where
  /-- a link belongs to one data-bus, whose name and data id it has -/
  link : ∀ l ∈ s.links.rows, ∃ b, s.Carries l.val.scope l.val.name b ∧
    (∀ c, s.Carries l.val.scope l.val.name c → c = b) ∧
    l.val.name = l.val.scope.linkName b.val.name ∧ l.val.dataId = b.val.detail.dataId
  /-- what a data-bus has as its link is one -/
  bus : ∀ b ∈ s.buses.rows, b.val.owner ≠ "" →
    ∃ l ∈ s.links.rows, l.val.scope = b.val.scope ∧ l.val.name = b.val.owner
  /-- a link owns the sinks that its data-bus lists -/
  sink : ∀ link, link ≠ "" → ∀ k, ∀ x ∈ (s.sinks.get k).rows,
    (x.val.owner = link ↔ ∃ b, s.Carries x.val.scope link b ∧ b.val.Lists k x.val.name)
  /-- a link owns the result tables that the storage bindings of its data-bus refer to -/
  resultTable : ∀ link, link ≠ "" → ∀ t ∈ s.resultTables.rows,
    (t.val.owner = link ↔ ∃ b k x, s.Carries t.val.scope link b ∧ k.isStorage = true ∧
      x ∈ (s.sinks.get k).rows ∧ x.val.scope = t.val.scope ∧ b.val.Lists k x.val.name ∧
      x.val.detail = some t.val.name)
  /-- the table ids of a link are those of its result tables -/
  tableIds : ∀ l ∈ s.links.rows, ∃ ids, l.val.readTableIds = .ok ids ∧
    ∀ i, i ∈ ids ↔ i ≠ "" ∧ ∃ t ∈ s.resultTables.rows, t.val.scope = l.val.scope ∧
      t.val.owner = l.val.name ∧ t.val.detail = i
  /-- two data-buses of links have no sink and no result table in common -/
  apart : ∀ a ∈ s.buses.rows, ∀ b ∈ s.buses.rows, a.val.owner ≠ "" → b.val.owner ≠ "" →
    a.val.scope = b.val.scope → a ≠ b →
      (∀ k n, ¬(a.val.Lists k n ∧ b.val.Lists k n)) ∧
        ∀ n, ¬(s.Refers a.val n ∧ s.Refers b.val n)

namespace Consistent

variable {s : Store} (h : s.Consistent)
include h

theorem eq_of_owner {a b : Row Bus} (ha : a ∈ s.buses.rows) (hb : b ∈ s.buses.rows)
    (hs : a.val.scope = b.val.scope) (ho : a.val.owner = b.val.owner) (hne : a.val.owner ≠ "") :
    a = b := by
  have h1 := h.bus_owner a ha hne
  have h2 := h.bus_owner b hb (ho ▸ hne)
  rw [ho, h2, hs] at h1
  exact Table.eq_of_name ha hb hs (Scope.linkName_injective h1).symm

/-- a sink is referred to through the storage binding of its name -/
theorem refers_iff {b : Bus} {n : String} : s.Refers b n ↔ ∃ k x, k.isStorage = true ∧
    x ∈ (s.sinks.get k).rows ∧ x.val.scope = b.scope ∧ b.Lists k x.val.name ∧
    x.val.detail = some n := by
  constructor
  · intro ⟨k, m, x, hm, hx, hd⟩
    obtain ⟨hxm, hs, rfl⟩ := Table.named?_eq_some_iff.1 hx
    refine ⟨k, x, ?_, hxm, hs, hm, hd⟩
    rw [← h.storage k x hxm, hd]
    rfl
  · intro ⟨k, x, _, hx, hs, hm, hd⟩
    exact ⟨k, x.val.name, x, hm, Table.named?_eq_some_iff.2 ⟨hx, hs, rfl⟩, hd⟩

theorem integral : s.Integral where
  link l hl := by
    obtain ⟨b, hb, hs, ho, hne, hd⟩ := h.link_bus l hl
    refine ⟨b, ⟨hb, hs, ho⟩, fun c hc => ?_, ?_, hd⟩
    · obtain ⟨hcm, hcs, hco⟩ := hc
      exact (h.eq_of_owner hb hcm (hs.trans hcs.symm) (ho.trans hco.symm) hne).symm
    · rw [← ho, ← hs]
      exact h.bus_owner b hb hne
  bus := h.bus_link
  sink link hne k x hx := by
    rw [(h.sinks k).owner_iff x hx link hne]
    refine exists_congr fun b => ?_
    unfold Carries
    rw [and_assoc, and_assoc]
  resultTable link hne t ht := by
    rw [h.resultTables.owner_iff t ht link hne]
    constructor
    · intro ⟨b, hb, hs, ho, hr⟩
      obtain ⟨k, x, hk, hx, hxs, hm, hd⟩ := h.refers_iff.1 hr
      exact ⟨b, k, x, ⟨hb, hs, ho⟩, hk, hx, hxs.trans hs, hm, hd⟩
    · intro ⟨b, k, x, ⟨hb, hs, ho⟩, hk, hx, hxs, hm, hd⟩
      exact ⟨b, hb, hs, ho, h.refers_iff.2 ⟨k, x, hk, hx, hxs.trans hs.symm, hm, hd⟩⟩
  tableIds := h.tableIds
  apart a ha b hb hao hbo hs hne := by
    refine ⟨fun k n hboth => ?_, fun n hboth => ?_⟩
    · have ho := (h.sinks k).owner_eq ha hb hao hbo hs hboth.1 hboth.2
      exact hne (h.eq_of_owner ha hb hs ho hao)
    · have ho := h.resultTables.owner_eq ha hb hao hbo hs hboth.1 hboth.2
      exact hne (h.eq_of_owner ha hb hs ho hao)

end Consistent

end Store

/-! ## any sequence of changes -/

/-- What can happen to a store that begins empty. -/
inductive Step where
  | source (a : DataSource)
  | bus (scope : Scope) (name : String) (dataId : DataId) (sinkList : String)
  | sink (k : SinkKind) (scope : Scope) (name table : String)
  | resultTable (scope : Scope) (name tableId : String)
  | batch (scope : Scope) (dryRun : Bool) (clock : Clock)

/-- The database after a step, whether it fails or not. -/
def Step.run : Step → Db → Db
  | source a, db => (Query.insertSource a db).2
  | bus scope name dataId sinkList, db => (Query.insertBus scope name dataId sinkList db).2
  | sink k scope name table, db => (Query.insertSink k scope name table db).2
  | resultTable scope name tableId, db => (Query.insertResultTable scope name tableId db).2
  | batch scope dryRun clock, db => (rebuild scope dryRun clock db).2

def runAll (steps : List Step) (db : Db) : Db := steps.foldl (fun db step => step.run db) db

theorem consistent_step {db : Db} (h : db.store.Consistent) (step : Step) :
    (step.run db).store.Consistent := by
  cases step with
  | source a => exact h.of_grows (Query.grows_insertSource a db)
  | bus scope name dataId sinkList =>
    exact h.of_grows (Query.grows_insertBus scope name dataId sinkList db)
  | sink k scope name table => exact h.of_grows (Query.grows_insertSink k scope name table db)
  | resultTable scope name tableId =>
    exact h.of_grows (Query.grows_insertResultTable scope name tableId db)
  | batch scope dryRun clock =>
    show (rebuild scope dryRun clock db).2.store.Consistent
    rw [rebuild_store]
    refine ((batch_visits scope dryRun clock db).invariant ?_ h).2
    intro s b r l u hs hb hr hl
    obtain ⟨hb, _, hbo⟩ := Store.mem_unlinked.1 hb
    exact hs.of_linking hb hbo hr hl

theorem consistent_runAll {db : Db} (h : db.store.Consistent) (steps : List Step) :
    (runAll steps db).store.Consistent := by
  unfold runAll
  induction steps generalizing db with
  | nil => exact h
  | cons step steps ih => exact ih (consistent_step h step)

/-- Whatever is added to an empty store and whatever batches run over it, in any order and with any
statements that fail: links and what they own fit together. -/
theorem integral_runAll (guards : List (TableName × RowEvent)) (outage : Nat → Bool)
    (steps : List Step) : (runAll steps ⟨.empty, guards, outage, 0⟩).store.Integral := by
  have h : (runAll steps ⟨.empty, guards, outage, 0⟩).store.Consistent :=
    consistent_runAll Store.consistent_empty steps
  exact h.integral

-- links come about in this way
example : ((runAll [.source ⟨7, "source", "bk_standard_v2_event"⟩,
      .resultTable ⟨"t", "n"⟩ "table" "2_bkmonitor.table",
      .sink .elastic ⟨"t", "n"⟩ "sink" "table",
      .bus ⟨"t", "n"⟩ "bus" 7 "[\"ElasticSearchBinding:sink\"]",
      .batch ⟨"t", "n"⟩ false ⟨9, 3⟩]
    ⟨.empty, [], fun _ => false, 0⟩).store.links.rows.map fun l => (l.val.name, l.val.tableIds))
      = [("rebuilt__t__n__bus", "[\"2_bkmonitor.table\"]")] := by decide +kernel

end Linkage
