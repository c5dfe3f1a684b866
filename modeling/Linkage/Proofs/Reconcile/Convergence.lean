import Linkage.Proofs.Reconcile.Difference

/-!
# A pass leaves the relations that should be stored

* `Store.desired`         the keys that should be stored, derived from the registry of spaces;
* `Table.rows_apply`      the rows after the changes: the stored ones of wanted keys with the time of
                          the pass, and one for each wanted key that had none;
* `Converged`             what this means for keys, ids, times and the counts of the report;
* `reconcile_converges`   a pass that ends with a report has done this, whatever was stored before.
-/

namespace Linkage

/-! ## what is read -/

def Store.registry (s : Store) : Registry × List Note :=
  let clusters := s.resources.select fun r =>
    r.val.spaceType = SpaceKind.project.text ∧ r.val.type = SpaceKind.container.text
  let projects := s.spaces.select fun r => r.val.type = SpaceKind.project.text
  let bindings := Bindings.ofRows (s.resources.select fun r =>
    r.val.spaceType = SpaceKind.project.text ∧ r.val.type = SpaceKind.business.text)
  (⟨clusters, Dict.ofList (projects.map fun r => (r.val.id, r.val.code)), bindings.businesses⟩,
    bindings.notes)

/-- What is derived from the registry of spaces. -/
def Store.derived (s : Store) (overrides : Overrides) (lookup : Lookup) : Derivation :=
  Derivation.run s.registry.1 overrides lookup

/-- The keys that should be stored. -/
def Store.desired (s : Store) (overrides : Overrides) (lookup : Lookup) : KeySet :=
  (s.derived overrides lookup).keys

theorem Query.Observes.registry : Observes registry Store.registry :=
  (Observes.read fun s : Store => s.resources.select fun r =>
      r.val.spaceType = SpaceKind.project.text ∧
        r.val.type = SpaceKind.container.text).transaction.bind fun clusters =>
    (Observes.read fun s : Store => s.spaces.select fun r =>
        r.val.type = SpaceKind.project.text).transaction.bind fun spaces =>
      (Observes.read fun s : Store => s.resources.select fun r =>
          r.val.spaceType = SpaceKind.project.text ∧
            r.val.type = SpaceKind.business.text).transaction.bind fun bound =>
        Observes.pure ((⟨clusters,
          Dict.ofList (spaces.map fun r : Row Space => (r.val.id, r.val.code)),
          (Bindings.ofRows bound).businesses⟩, (Bindings.ofRows bound).notes) :
            Registry × List Note)

/-! ## what is stored -/

namespace Table

/-- The rows that are added: one for each wanted key that has none. -/
def added (wanted : KeySet) (now : Int) (t : Table Relation.noKey) : List (Row Relation) :=
  numbered t.last ((Difference.of wanted t.rows).add.map fun k => ⟨k, now⟩)

variable {wanted : KeySet} {now : Int} {t : Table Relation.noKey}

/-- The stored rows of wanted keys get the time of the pass and keep their ids, and a row is added for
each wanted key that had none. -/
theorem rows_apply : (t.apply (.of wanted t.rows) now).2.rows =
    (t.rows.filter fun r => wanted.contains r.val.key).map
        (fun r => ⟨r.id, Query.checkedAt now r.val⟩) ++ t.added wanted now := by
  have hrows : (t.apply (.of wanted t.rows) now).2.rows
      = ((t.modify (hasId (Difference.of wanted t.rows).refresh) (Query.checkedAt now)
            (Query.key_checkedAt now)).remove (hasId (Difference.of wanted t.rows).delete)).rows ++
        t.added wanted now :=
    rows_extend Query.relation_keyless _ _
  rw [hrows, rows_remove, rows_modify, List.filter_map]
  congr 1
  have hfilter : (t.rows.filter ((fun r => !hasId (Difference.of wanted t.rows).delete r) ∘
      change (hasId (Difference.of wanted t.rows).refresh) (Query.checkedAt now)))
      = t.rows.filter fun r => wanted.contains r.val.key := by
    refine List.filter_congr fun r hr => ?_
    rw [Function.comp, hasId_change, Difference.hasId_delete hr, Bool.not_not]
  rw [hfilter]
  refine List.map_congr_left fun r hr => ?_
  obtain ⟨hr, hk⟩ := List.mem_filter.1 hr
  exact change_of_pos ((Difference.hasId_refresh hr).trans hk)

theorem counts_apply : (t.apply (.of wanted t.rows) now).1 =
    ⟨(Difference.of wanted t.rows).add.length, t.rows.countP fun r => wanted.contains r.val.key,
      t.rows.countP fun r => !wanted.contains r.val.key⟩ := by
  have hrefresh : t.count (hasId (Difference.of wanted t.rows).refresh)
      = t.rows.countP fun r => wanted.contains r.val.key :=
    List.countP_congr fun r hr => by rw [Difference.hasId_refresh hr]
  have hdelete : (t.modify (hasId (Difference.of wanted t.rows).refresh) (Query.checkedAt now)
      (Query.key_checkedAt now)).count (hasId (Difference.of wanted t.rows).delete)
      = t.rows.countP fun r => !wanted.contains r.val.key := by
    rw [count_modify fun r => hasId_change _ _ _ r]
    exact List.countP_congr fun r hr => by rw [Difference.hasId_delete hr]
  show (⟨_, t.count _, (t.modify _ _ _).count _⟩ : Query.Counts) = _
  rw [hrefresh, hdelete]

/-- a row after the changes is a stored one of a wanted key, or one of a key that had none -/
theorem mem_apply {x : Row Relation} : x ∈ (t.apply (.of wanted t.rows) now).2.rows ↔
    (∃ r ∈ t.rows, r.val.key ∈ wanted.keys ∧ x = ⟨r.id, ⟨r.val.key, now⟩⟩) ∨
      x ∈ t.added wanted now := by
  rw [rows_apply, List.mem_append, List.mem_map]
  refine or_congr_left ?_
  constructor
  · intro ⟨r, hr, hx⟩
    obtain ⟨hr, hk⟩ := List.mem_filter.1 hr
    exact ⟨r, hr, Dict.contains_iff.1 hk, hx.symm⟩
  · intro ⟨r, hr, hk, hx⟩
    exact ⟨r, List.mem_filter.2 ⟨hr, Dict.contains_iff.2 hk⟩, hx.symm⟩

theorem map_val_added : (t.added wanted now).map Row.val
    = (Difference.of wanted t.rows).add.map fun k => ⟨k, now⟩ := map_val_numbered _ _

theorem length_added : (t.added wanted now).length = (Difference.of wanted t.rows).add.length := by
  rw [← List.length_map (f := Row.val), map_val_added, List.length_map]

theorem of_mem_added {x : Row Relation} (h : x ∈ t.added wanted now) :
    t.last < x.id ∧ x.val.checked = now ∧ x.val.key ∈ wanted.keys ∧
      ∀ r ∈ t.rows, r.val.key ≠ x.val.key := by
  refine ⟨lt_of_mem_numbered h, ?_⟩
  have hval := List.mem_map_of_mem (f := Row.val) h
  rw [map_val_added] at hval
  obtain ⟨k, hk, hx⟩ := List.mem_map.1 hval
  rw [← hx]
  exact ⟨rfl, Difference.mem_add_iff.1 hk⟩

theorem added_unique {x y : Row Relation} (hx : x ∈ t.added wanted now)
    (hy : y ∈ t.added wanted now) (h : y.val.key = x.val.key) : y = x := by
  have hnodup : ((t.added wanted now).map Row.val).Nodup := by
    rw [map_val_added]
    exact Difference.nodup_add.map fun k j he => congrArg Relation.key he
  refine List.inj_on_of_nodup_map hnodup hy hx ?_
  obtain ⟨_, hxc, _⟩ := of_mem_added hx
  obtain ⟨_, hyc, _⟩ := of_mem_added hy
  obtain ⟨i, k, c⟩ := x
  obtain ⟨j, l, d⟩ := y
  simp only at h hxc hyc
  rw [h, hxc, hyc]

theorem exists_added (now : Int) {k : RelationKey} (hk : k ∈ wanted.keys)
    (h : ∀ r ∈ t.rows, r.val.key ≠ k) : ∃ x ∈ t.added wanted now, x.val.key = k := by
  have hmem : (⟨k, now⟩ : Relation) ∈ (t.added wanted now).map Row.val := by
    rw [map_val_added]
    exact List.mem_map_of_mem (Difference.mem_add_iff.2 ⟨hk, h⟩)
  obtain ⟨x, hx, hval⟩ := List.mem_map.1 hmem
  exact ⟨x, hx, by rw [hval]⟩

/-- the stored keys are the wanted ones -/
theorem keys_apply (k : RelationKey) :
    (∃ x ∈ (t.apply (.of wanted t.rows) now).2.rows, x.val.key = k) ↔ k ∈ wanted.keys := by
  constructor
  · intro ⟨x, hx, hk⟩
    rw [← hk]
    rcases mem_apply.1 hx with ⟨r, _, hr, rfl⟩ | hx
    · exact hr
    · exact (of_mem_added hx).2.2.1
  · intro hk
    by_cases h : ∃ r ∈ t.rows, r.val.key = k
    · obtain ⟨r, hr, rfl⟩ := h
      exact ⟨_, mem_apply.2 (.inl ⟨r, hr, hk, rfl⟩), rfl⟩
    · obtain ⟨x, hx, hxk⟩ := exists_added now hk fun r hr he => h ⟨r, hr, he⟩
      exact ⟨x, mem_apply.2 (.inr hx), hxk⟩

theorem size_wanted : wanted.size
    = ((t.apply (.of wanted t.rows) now).2.rows.map fun x => x.val.key).dedup.length := by
  have hkeys : wanted.size = wanted.keys.length := (List.length_map _).symm
  rw [hkeys]
  refine List.Perm.length_eq ((List.perm_ext_iff_of_nodup (Dict.nodup_keys wanted)
    (List.nodup_dedup _)).2 fun k => ?_)
  rw [List.mem_dedup, List.mem_map]
  exact (keys_apply k).symm

end Table

/-- What a pass at the time `now` has made of the store `s`. -/
structure Converged (s u : Store) (wanted : KeySet) (now : Int) (report : RelationReport) :
    Prop where
  /-- the stored keys are the wanted ones -/
  keys : ∀ k, (∃ x ∈ u.relations.rows, x.val.key = k) ↔ k ∈ wanted.keys
  /-- every row of a wanted key stays, with its id and its key -/
  kept : ∀ r ∈ s.relations.rows, r.val.key ∈ wanted.keys →
    ∃ x ∈ u.relations.rows, x.id = r.id ∧ x.val.key = r.val.key
  /-- every other row goes -/
  gone : ∀ r ∈ s.relations.rows, r.val.key ∉ wanted.keys → ∀ x ∈ u.relations.rows, x.id ≠ r.id
  /-- a wanted key that had no row has one, and only one, under a new id -/
  added : ∀ k ∈ wanted.keys, (∀ r ∈ s.relations.rows, r.val.key ≠ k) →
    ∃ x ∈ u.relations.rows, x.val.key = k ∧ s.relations.last < x.id ∧
      ∀ y ∈ u.relations.rows, y.val.key = k → y = x
  /-- there are no other rows: one whose id or key is not new was there -/
  origin : ∀ x ∈ u.relations.rows,
    (∃ r ∈ s.relations.rows, r.id = x.id ∧ r.val.key = x.val.key) ∨
      ∀ r ∈ s.relations.rows, r.id ≠ x.id ∧ r.val.key ≠ x.val.key
  checked : ∀ x ∈ u.relations.rows, x.val.checked = now
  desired : report.desired = (u.relations.rows.map fun x => x.val.key).dedup.length
  before : report.refreshed + report.deleted = s.relations.rows.length
  after : report.refreshed + report.added = u.relations.rows.length
  /-- no other table changes -/
  frame : u = { s with relations := u.relations }

theorem converged_apply (s : Store) (wanted : KeySet) (now : Int) (report : RelationReport)
    (hdesired : report.desired = wanted.size)
    (hcounts : (s.relations.apply (.of wanted s.relations.rows) now).1
      = ⟨report.added, report.refreshed, report.deleted⟩) :
    Converged s (Query.setRelations s (s.relations.apply (.of wanted s.relations.rows) now).2)
      wanted now report where
  keys := Table.keys_apply
  kept r hr hk := ⟨_, Table.mem_apply.2 (.inl ⟨r, hr, hk, rfl⟩), rfl, rfl⟩
  gone r hr hk x hx := by
    rcases Table.mem_apply.1 hx with ⟨a, ha, hak, rfl⟩ | hx
    · intro hid
      rw [Table.eq_of_id ha hr hid] at hak
      exact hk hak
    · have h1 := (Table.of_mem_added hx).1
      have h2 := (s.relations.bounded r hr).2
      omega
  added k hk hno := by
    obtain ⟨x, hx, rfl⟩ := Table.exists_added now hk hno
    refine ⟨x, Table.mem_apply.2 (.inr hx), rfl, (Table.of_mem_added hx).1, fun y hy he => ?_⟩
    rcases Table.mem_apply.1 hy with ⟨a, ha, _, rfl⟩ | hy
    · exact absurd he (hno a ha)
    · exact Table.added_unique hx hy he
  origin x hx := by
    rcases Table.mem_apply.1 hx with ⟨a, ha, _, rfl⟩ | hx
    · exact .inl ⟨a, ha, rfl, rfl⟩
    · obtain ⟨hlast, _, _, hkey⟩ := Table.of_mem_added hx
      refine .inr fun r hr => ⟨?_, hkey r hr⟩
      have := (s.relations.bounded r hr).2
      omega
  checked x hx := by
    rcases Table.mem_apply.1 hx with ⟨a, _, _, rfl⟩ | hx
    · rfl
    · exact (Table.of_mem_added hx).2.1
  desired := by
    rw [hdesired]
    exact Table.size_wanted
  before := by
    obtain ⟨-, hrefreshed, hdeleted⟩ := Query.Counts.mk.inj (Table.counts_apply.symm.trans hcounts)
    rw [← hrefreshed, ← hdeleted,
      List.length_eq_countP_add_countP fun r : Row Relation => wanted.contains r.val.key]
    simp
  after := by
    obtain ⟨hadded, hrefreshed, -⟩ := Query.Counts.mk.inj (Table.counts_apply.symm.trans hcounts)
    show _ = (s.relations.apply _ now).2.rows.length
    rw [Table.rows_apply, List.length_append, List.length_map, Table.length_added, ← hadded,
      ← hrefreshed, List.countP_eq_length_filter]
  frame := rfl

/-! ## a whole pass -/

/-- A pass that ends with a report has brought the table in line with the keys that should be stored,
whatever was stored before. -/
theorem reconcile_converges (overrides : Overrides) (lookup : Lookup) (clock : Clock) (db : Db)
    {report : RelationReport} (h : (reconcile overrides lookup clock db).1.result = .ok report) :
    Converged db.store (reconcile overrides lookup clock db).2.store
      (db.store.desired overrides lookup) clock.now report := by
  have hobs := Query.Observes.registry
  unfold reconcile at h ⊢
  cases hreg : Query.registry db with
  | mk r db' =>
    rw [hreg] at h
    cases r with
    | error e => cases h
    | ok w =>
      have hw : w = db.store.registry := hobs.sound db w (by rw [hreg])
      have hstore : db'.store = db.store := by
        have := hobs.store db
        rwa [hreg] at this
      have hmeans := Query.Means.converge (Derivation.run w.1 overrides lookup).keys clock.now
      simp only at h ⊢
      cases hcon : Query.converge (Derivation.run w.1 overrides lookup).keys clock.now db' with
      | mk r after =>
        rw [hcon] at h
        cases r with
        | error e => cases h
        | ok c =>
          have hdid := hmeans.sound db' c (by rw [hcon])
          rw [hcon, hstore, hw] at hdid
          obtain ⟨hcounts, hafter⟩ := Prod.mk.inj hdid
          cases h
          simp only
          rw [← hafter, hw]
          exact converged_apply db.store _ clock.now _ rfl hcounts

theorem reconcile_total (overrides : Overrides) (lookup : Lookup) (clock : Clock) (s : Store) :
    ∃ report, (reconcile overrides lookup clock (.of s)).1.result = .ok report := by
  have hobs := Query.Observes.registry
  obtain ⟨w, hw⟩ := hobs.total (.of s) (Db.reliable_of s)
  have hdb := (Db.reliable_of s).congr (hobs.guards _) (hobs.outage _)
  obtain ⟨c, hc⟩ :=
    (Query.Means.converge (Derivation.run w.1 overrides lookup).keys clock.now).total _ hdb
  refine ⟨(Derivation.run w.1 overrides lookup).report c clock.elapsed, ?_⟩
  unfold reconcile
  rw [Query.eq_mk_of_fst hw]
  simp only
  rw [Query.eq_mk_of_fst hc]

/-- A store with a project of two clusters: the relation of the first is stored twice, that of the
second is not, and there is one that is not wanted. -/
def Store.sample : Store :=
  { Store.empty with
    spaces := .ofList [⟨"bkci", "project-1", "p1", "Project"⟩] (by decide)
    resources := .ofList [
      ⟨"bkci", "project-1", "bcs", none,
        "[\x7b\"cluster_id\": \"c1\"\x7d, \x7b\"cluster_id\": \"c2\"\x7d]"⟩,
      ⟨"bkci", "project-1", "bkcc", some "7", "[]"⟩] (by decide)
    relations := ⟨[
      ⟨1, ⟨⟨"7", "7", "p1", "c1"⟩, 5⟩⟩, ⟨2, ⟨⟨"7", "7", "p1", "c1"⟩, 6⟩⟩,
      ⟨4, ⟨⟨"3", "3", "p1", "c1"⟩, 5⟩⟩], 4, by decide, by decide, by decide, by decide⟩ }

theorem reconcile_converges_sample :
    (Store.sample.desired .empty (.ofList [])).keys
      = [⟨"7", "7", "p1", "c1"⟩, ⟨"7", "7", "p1", "c2"⟩] ∧
    ∃ report, (reconcile .empty (.ofList []) ⟨9, 3⟩ (.of .sample)).1.result = .ok report ∧
      Converged .sample (reconcile .empty (.ofList []) ⟨9, 3⟩ (.of .sample)).2.store
        (Store.sample.desired .empty (.ofList [])) 9 report := by
  obtain ⟨report, h⟩ := reconcile_total .empty (.ofList []) ⟨9, 3⟩ .sample
  exact ⟨by decide +kernel, report, h, reconcile_converges _ _ _ _ h⟩

end Linkage
