import Linkage.Proofs.Json.Values
import Linkage.Proofs.Rebuild.Reasons

/-!
# What linking a data-bus writes

A data-bus that is linked gets what its sink list and the rows say, in terms that do not mention how
it was resolved.

* `Store.ReferredRow`     the row of a result table that a listed sink refers to;
* `Store.Gives`           the strategy that follows from the kinds of the sinks or the data source;
* `Store.Written`         all that is different after a data-bus was linked, and that nothing else is;
* `Written.of_linking`    a data-bus that was linked as it resolves was linked like this;
* `rebuildBus_written`    so was any that is linked; otherwise, and in a dry run, the store is as it was.
-/

namespace Linkage

/-! ## what a data-bus gets -/

namespace Store

/-- The row of a result table that a data-bus refers to. -/
def ReferredRow (s : Store) (b : Bus) (t : Row ResultTable) : Prop :=
  t ∈ s.resultTables.rows ∧ t.val.scope = b.scope ∧ s.Refers b t.val.name

/-- The strategy of a data-bus: a log when both Elasticsearch and Doris bindings are listed, else
what the label of its data source stands for. -/
def Gives (s : Store) (b : Bus) (strategy : Strategy) : Prop :=
  b.ListsKind .elastic ∧ b.ListsKind .doris ∧ strategy = .log ∨
    ¬(b.ListsKind .elastic ∧ b.ListsKind .doris) ∧
      ∃ a, s.sources.find? (fun a => a.id = b.detail.dataId) = some a ∧
        Strategy.ofEtlConfig? a.etlConfig = some strategy

/-- `u` is the store `s` after the data-bus `b` was linked at the time `now`, with `l` as the row of
its link. -/
structure Written (s u : Store) (now : Int) (b : Row Bus) (l : Row Link) : Prop where
  key : l.val.scope = b.val.scope ∧ l.val.name = b.val.scope.linkName b.val.name
  /-- the link owns the data-bus, and this is all that is different about data-buses -/
  buses : s.buses.Marked u.buses (fun x => x = b) l.val.name
  /-- it owns the listed sinks, each in the table of its kind -/
  sinks : ∀ k, (s.sinks.get k).Marked (u.sinks.get k) (s.ListedRow b.val k) l.val.name
  /-- it owns the result tables that the listed sinks refer to -/
  resultTables : s.resultTables.Marked u.resultTables (s.ReferredRow b.val) l.val.name
  /-- all of them are there -/
  listed : ∀ k n, b.val.Lists k n → ∃ x, s.ListedRow b.val k x ∧ x.val.name = n
  referred : ∀ n, s.Refers b.val n → ∃ t, s.ReferredRow b.val t ∧ t.val.name = n
  /-- one row of links has the scope and the name of the link -/
  link : ∀ x, x ∈ u.links.rows ∧ x.val.scope = l.val.scope ∧ x.val.name = l.val.name ↔ x = l
  /-- a row that had them before is this one, changed -/
  renewed : ∀ x ∈ s.links.rows, x.val.scope = l.val.scope → x.val.name = l.val.name →
    l.id = x.id ∧ l.val.created = x.val.created
  fresh : (∀ x ∈ s.links.rows, x.val.scope = l.val.scope → x.val.name ≠ l.val.name) →
    s.links.last < l.id ∧ l.val.created = now
  /-- the other rows of links are those that were there -/
  others : ∀ x, ¬(x.val.scope = l.val.scope ∧ x.val.name = l.val.name) →
    (x ∈ u.links.rows ↔ x ∈ s.links.rows)
  strategy : ∃ strategy, s.Gives b.val strategy ∧ l.val.readStrategy = .ok strategy
  dataId : l.val.dataId = b.val.detail.dataId
  /-- the table ids are those of the result tables, without empty ones -/
  tableIds : ∃ ts : List (Row ResultTable), ts.Nodup ∧ (∀ t, t ∈ ts ↔ s.ReferredRow b.val t) ∧
    l.val.readTableIds = .ok ((ts.map fun t => t.val.detail).filter fun t => t ≠ "")
  updated : l.val.updated = now
  frame : u.spaces = s.spaces ∧ u.resources = s.resources ∧ u.relations = s.relations ∧
    u.sources = s.sources

end Store

/-! ## what is known of a resolution -/

theorem nodup_tableNames {seen names : List String} {ss : List ListedSink}
    (h : tableNames seen ss = .ok names) (hseen : seen.Nodup) : names.Nodup := by
  induction ss generalizing seen with
  | nil =>
    cases h
    exact hseen
  | cons x ss ih =>
    rw [tableNames] at h
    cases hd : x.row.val.detail with
    | none =>
      rw [hd] at h
      exact ih h hseen
    | some t =>
      rw [hd] at h
      simp only at h
      split at h
      · cases h
      · split at h
        · exact ih h hseen
        · rename_i hnew
          have hnew : t ∉ seen := fun hm => hnew (List.contains_iff_mem.2 hm)
          refine ih h (List.nodup_append.2 ⟨hseen, List.nodup_singleton t, fun a ha c hc he => ?_⟩)
          rw [List.mem_singleton.1 hc] at he
          exact hnew (he ▸ ha)

theorem Table.nodup_found {δ : Type} {t : Table (Component.key (δ := δ))} {scope : Scope}
    {names : List String} (h : names.Nodup) : (t.found scope names).Nodup := by
  refine h.filterMap fun n m r hn hm => ?_
  obtain ⟨_, _, hn⟩ := named?_eq_some_iff.1 hn
  obtain ⟨_, _, hm⟩ := named?_eq_some_iff.1 hm
  exact hn.symm.trans hm

namespace Store

variable {s : Store} {b : Bus} {r : Resolution}

theorem nodup_tables (h : s.resolve b = .ok r) : r.tables.Nodup := by
  obtain ⟨_, _, _, _, _, _, _, _, hnames, hts, _, rfl⟩ := resolve_eq_ok_iff.1 h
  obtain ⟨_, rfl, _⟩ := ownableTables_eq_ok_iff.1 hts
  exact Table.nodup_found (nodup_tableNames hnames List.nodup_nil)

theorem gives_strategy (h : s.resolve b = .ok r) : s.Gives b r.strategy := by
  obtain ⟨gs, _, _, _, strategy, hgs, _, _, _, _, hst, rfl⟩ := resolve_eq_ok_iff.1 h
  show s.Gives b strategy
  unfold Gives
  rw [← hasKind_iff hgs, ← hasKind_iff hgs]
  unfold strategyOf at hst
  by_cases hk : hasKind gs .elastic = true ∧ hasKind gs .doris = true
  · rw [if_pos (Bool.and_eq_true_iff.2 hk)] at hst
    exact .inl ⟨hk.1, hk.2, (Except.ok.inj hst).symm⟩
  · rw [if_neg fun h => hk (Bool.and_eq_true_iff.1 h)] at hst
    refine .inr ⟨hk, ?_⟩
    unfold sourceStrategy at hst
    cases hf : s.sources.find? fun a => a.id = b.detail.dataId with
    | none =>
      rw [hf] at hst
      cases hst
    | some a =>
      rw [hf] at hst
      simp only at hst
      cases he : Strategy.ofEtlConfig? a.etlConfig with
      | none =>
        rw [he] at hst
        cases hst
      | some t =>
        rw [he] at hst
        cases hst
        exact ⟨a, rfl, he⟩

namespace Resolved

variable (h : s.Resolved b r)
include h

theorem listedRow_iff {k : SinkKind} {x : Row Sink} : s.ListedRow b k x ↔ ⟨k, x⟩ ∈ r.sinks := by
  constructor
  · intro ⟨hx, hs, hl⟩
    exact (h.mem_sinks_iff hx).2 ⟨hs, hl⟩
  · intro hm
    have hx := (h.sink_mem _ hm).1
    obtain ⟨hs, hl⟩ := (h.mem_sinks_iff hx).1 hm
    exact ⟨hx, hs, hl⟩

theorem referredRow_iff {t : Row ResultTable} : s.ReferredRow b t ↔ t ∈ r.tables := by
  constructor
  · intro ⟨ht, hs, hr⟩
    exact (h.mem_tables_iff ht).2 ⟨hs, hr⟩
  · intro hm
    have ht := (h.table_mem _ hm).1
    obtain ⟨hs, hr⟩ := (h.mem_tables_iff ht).1 hm
    exact ⟨ht, hs, hr⟩

end Resolved

/-- A link that was written keeps the id and the time of one that had its scope and its name; it has
new ones when there was none. -/
structure Dated (s : Store) (now : Int) (l : Row Link) : Prop where
  renewed : ∀ x ∈ s.links.rows, x.val.scope = l.val.scope → x.val.name = l.val.name →
    l.id = x.id ∧ l.val.created = x.val.created
  fresh : (∀ x ∈ s.links.rows, x.val.scope = l.val.scope → x.val.name ≠ l.val.name) →
    s.links.last < l.id ∧ l.val.created = now
  updated : l.val.updated = now

theorem dated_putLink (d : LinkDraft) (now : Int) (s : Store) :
    s.Dated now (s.putLink d now).1 := by
  unfold putLink
  cases hf : s.links.find? (Query.isLink d.scope d.name) with
  | some l =>
    obtain ⟨hl, hp⟩ := Table.of_find? hf
    obtain ⟨hls, hln⟩ := isLink_iff.1 hp
    refine ⟨fun x hx hxs hxn => ?_, fun hno => absurd rfl (hno l hl rfl), rfl⟩
    have hlkey : Link.key l.val = some (d.scope, d.name) := by rw [Link.key, hls, hln]
    have hxkey : Link.key x.val = some (d.scope, d.name) := by
      rw [Link.key, hxs, hxn]
      exact hlkey
    rw [Table.eq_of_key hx hl hxkey hlkey]
    exact ⟨rfl, rfl⟩
  | none =>
    obtain ⟨t, id, ht⟩ := insert?_newLink now hf
    simp only [ht]
    refine ⟨fun x hx hxs hxn => ?_, fun _ => ⟨?_, rfl⟩, rfl⟩
    · exact absurd (isLink_iff.2 ⟨hxs, hxn⟩) (Table.find?_eq_none_iff.1 hf x hx)
    · have hid : id = s.links.last + 1 := (Table.rows_insert? ht).2
      show s.links.last < id
      omega

/-- a data-bus that was linked as it resolves was linked as its sink list says -/
theorem Written.of_linking {b : Row Bus} {l : Row Link} {u : Store} {now : Int}
    (h : s.resolve b.val = .ok r) (hr : s.Resolved b.val r) (hl : s.Linking b r l u)
    (hd : s.Dated now l) : s.Written u now b l where
  key := ⟨hl.key.1, hl.key.2.trans hr.link⟩
  buses := by
    rw [hl.key.2]
    exact hl.buses
  sinks k := by
    rw [hl.key.2]
    exact (hl.sinks k).congr fun _ _ => hr.listedRow_iff.symm
  resultTables := by
    rw [hl.key.2]
    exact hl.resultTables.congr fun _ _ => hr.referredRow_iff.symm
  listed k n hn := by
    obtain ⟨x, hx, rfl, hxn⟩ := (hr.lists_iff k n).1 hn
    exact ⟨x.row, hr.listedRow_iff.2 hx, hxn⟩
  referred n hn := by
    obtain ⟨t, ht, htn⟩ := hr.refers_iff.1 hn
    exact ⟨t, hr.referredRow_iff.2 ht, htn⟩
  link x := by
    rw [hl.links, hl.key.1, hl.key.2]
    constructor
    · intro ⟨hx, hkey⟩
      exact hx.resolve_right fun hold => hold.2 hkey
    · rintro rfl
      exact ⟨.inl rfl, hl.key⟩
  renewed := hd.renewed
  fresh := hd.fresh
  others x hx := by
    rw [hl.links]
    rw [hl.key.1, hl.key.2] at hx
    constructor
    · rintro (rfl | ⟨hold, _⟩)
      · exact absurd hl.key hx
      · exact hold
    · intro hold
      exact .inr ⟨hold, hx⟩
  strategy := by
    refine ⟨r.strategy, gives_strategy h, ?_⟩
    rw [Link.readStrategy, hl.strategy, Strategy.ofText?_text]
  dataId := hl.dataId
  tableIds := by
    refine ⟨r.tables, nodup_tables h, fun t => hr.referredRow_iff.symm, ?_⟩
    rw [Link.readTableIds, hl.tableIds]
    exact readListColumn_listColumn _ _
  updated := hd.updated
  frame := hl.frame

end Store

/-- Whatever statements fail: a stored data-bus that is linked was linked as its sink list says, with
all that belongs to the link and nothing else; when it is not linked, and in a dry run, the store is
as it was. -/
theorem rebuildBus_written (dryRun : Bool) (now : Int) {b : Row Bus} {db : Db}
    (hb : b ∈ db.store.buses.rows) :
    (∀ l event, (Query.rebuildBus dryRun now b db).1 = .ok (.linked l, event) →
      db.store.Written (Query.rebuildBus dryRun now b db).2.store now b l) ∧
    ((∀ l event, (Query.rebuildBus dryRun now b db).1 ≠ .ok (.linked l, event)) →
      (Query.rebuildBus dryRun now b db).2.store = db.store) ∧
    (dryRun = true → (Query.rebuildBus dryRun now b db).2.store = db.store) := by
  have hmeans := Query.Means.rebuildBus dryRun now b
  cases hrun : (Query.rebuildBus dryRun now b db).1 with
  | error e =>
    have hsame := Query.atomic_rebuildBus dryRun now b db e hrun
    refine ⟨fun l event h => ?_, fun _ => hsame, fun _ => hsame⟩
    cases h
  | ok a =>
    have hdid := hmeans.sound db a hrun
    unfold Store.rebuildBus at hdid
    cases hr : db.store.resolve b.val with
    | error e =>
      rw [hr] at hdid
      obtain ⟨rfl, hsame⟩ := Prod.mk.inj hdid
      refine ⟨fun l event h => ?_, fun _ => hsame.symm, fun _ => hsame.symm⟩
      cases h
    | ok r =>
      rw [hr] at hdid
      cases dryRun with
      | true =>
        obtain ⟨rfl, hsame⟩ := Prod.mk.inj hdid
        refine ⟨fun l event h => ?_, fun _ => hsame.symm, fun _ => hsame.symm⟩
        cases h
      | false =>
        obtain ⟨rfl, hafter⟩ := Prod.mk.inj hdid
        refine ⟨fun l event hl => ?_, fun hno => absurd rfl (hno _ _), nofun⟩
        cases hl
        rw [← hafter]
        have hres := Store.resolved_of_resolve hr
        exact .of_linking hr hres (Store.linking_commitLink hres hb now)
          (Store.dated_putLink _ now _)

/-- The table of one row, the first that was added. -/
def Table.single {α κ : Type} {key : α → Option κ} (a : α) : Table key where
  rows := [⟨1, a⟩]
  last := 1
  last_nonneg := Int.one_nonneg
  rising := List.pairwise_singleton _ _
  bounded := List.forall_mem_singleton.2 ⟨Int.le_refl 1, Int.le_refl 1⟩
  distinct := List.pairwise_singleton _ _

/-- A store with a data-bus that can be linked. -/
def Store.pipeline : Store :=
  { Store.empty with
    sources := [⟨7, "source", "bk_standard_v2_event"⟩]
    buses := .single ⟨⟨"t", "n"⟩, "bus", "", ⟨7, "[\"ElasticSearchBinding:sink\"]"⟩⟩
    sinks := { SinkTables.empty with elastic := .single ⟨⟨"t", "n"⟩, "sink", "", some "table"⟩ }
    resultTables := .single ⟨⟨"t", "n"⟩, "table", "", "2_bkmonitor.table"⟩ }

theorem rebuildBus_written_pipeline : ∃ b ∈ Store.pipeline.buses.rows, ∃ l event,
    (Query.rebuildBus false 9 b (.of .pipeline)).1 = .ok (.linked l, event) ∧
      Store.pipeline.Written (Query.rebuildBus false 9 b (.of .pipeline)).2.store 9 b l := by
  let b : Row Bus := ⟨1, ⟨⟨"t", "n"⟩, "bus", "", ⟨7, "[\"ElasticSearchBinding:sink\"]"⟩⟩⟩
  have hb : b ∈ (Db.of .pipeline).store.buses.rows := List.mem_cons_self
  obtain ⟨⟨o, event⟩, hrun⟩ :=
    (Query.Means.rebuildBus false 9 b).total (.of .pipeline) (Db.reliable_of _)
  have hdid := (Query.Means.rebuildBus false 9 b).sound (.of .pipeline) _ hrun
  have hlinked : (Store.pipeline.rebuildBus false 9 b).1.1 = .linked ⟨1, ⟨⟨"t", "n"⟩,
      "rebuilt__t__n__bus", "bk_standard_v2_event", 7, "[\"2_bkmonitor.table\"]", 9, 9⟩⟩ := by
    decide +kernel
  have ho : o = _ := (congrArg (fun x => x.1.1) hdid).symm.trans hlinked
  rw [ho] at hrun
  exact ⟨b, hb, _, event, hrun, (rebuildBus_written false 9 hb).1 _ _ hrun⟩

end Linkage
