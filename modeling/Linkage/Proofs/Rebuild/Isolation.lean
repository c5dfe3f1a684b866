import Linkage.Proofs.Rebuild.DryRun
import Linkage.Proofs.Rebuild.Resume
import Linkage.Proofs.Rebuild.Tally
import Linkage.Proofs.Store.Within

/-!
# A batch and the rows of other scopes

A batch is run on two stores with the same rows in its scope, and any rows in others.

* `Store.SameIn`           two stores with the same rows in a scope, and links that are alike;
* `SameIn.resolve_eq`      the data-buses of the scope resolve to the same in both;
* `Twins.rebuildBus`       looking at one of them comes to the same;
* `Twins.batch`            so does a whole batch;
* `Store.SameOutside`      nothing is different in other scopes;
* `rebuild_isolated`       a batch reads and writes only its scope.
-/

namespace Linkage

/-- Two stores with the same data sources, the same components in a scope, and links in it that are
alike. -/
structure Store.SameIn (scope : Scope) (R : Row Link → Row Link → Prop) (s u : Store) : Prop where
  sources : ∀ id, (u.sources.find? fun a => a.id = id) = s.sources.find? fun a => a.id = id
  buses : u.buses.within Component.scope scope = s.buses.within Component.scope scope
  sinks : ∀ k, (u.sinks.get k).within Component.scope scope
    = (s.sinks.get k).within Component.scope scope
  resultTables : u.resultTables.within Component.scope scope
    = s.resultTables.within Component.scope scope
  links : List.Forall₂ R (s.links.within Link.scope scope) (u.links.within Link.scope scope)

namespace Store.SameIn

variable {scope : Scope} {R : Row Link → Row Link → Prop} {s u : Store} (h : SameIn scope R s u)
include h

theorem groupSinks_eq (g : SinkGroup) : u.groupSinks scope g = s.groupSinks scope g := by
  unfold groupSinks
  simp only [Table.found_congr (h.sinks g.kind), Table.lost_congr (h.sinks g.kind)]

theorem allSinks_eq (gs : List SinkGroup) : u.allSinks scope gs = s.allSinks scope gs := by
  induction gs with
  | nil => rfl
  | cons g gs ih => rw [allSinks, allSinks, h.groupSinks_eq, ih]

theorem ownableTables_eq (names : List String) :
    u.ownableTables scope names = s.ownableTables scope names := by
  unfold ownableTables
  simp only [Table.found_congr h.resultTables, Table.lost_congr h.resultTables]

/-- rows of other scopes play no part in what a data-bus resolves to -/
theorem resolve_eq {b : Bus} (hb : b.scope = scope) : u.resolve b = s.resolve b := by
  have hstrategy : ∀ gs, u.strategyOf b gs = s.strategyOf b gs := by
    intro gs
    unfold strategyOf
    rw [h.sources]
  unfold resolve
  rw [hb]
  simp only [h.allSinks_eq, h.ownableTables_eq, hstrategy]

theorem unlinked_eq : u.unlinked scope = s.unlinked scope := by
  have hrows : ∀ t : Store, t.unlinked scope
      = (t.buses.within Component.scope scope).filter fun r => r.val.owner = "" := by
    intro t
    unfold Table.within
    rw [List.filter_filter]
    refine List.filter_congr fun r _ => ?_
    rw [Bool.eq_iff_iff, Bool.and_eq_true, decide_eq_true_iff, decide_eq_true_iff,
      decide_eq_true_iff, and_comm]
  rw [hrows, hrows, h.buses]

end Store.SameIn

/-! ## links that are alike -/

/-- The same link, but for its times; if the ids differ, both are given after `last` and `last'`. -/
structure Row.SameLink (last last' : Int) (x y : Row Link) : Prop where
  val : y.val.timeless = x.val.timeless
  id : y.id = x.id ∨ last < x.id ∧ last' < y.id

namespace Row.SameLink

variable {last last' : Int} {x y : Row Link}

theorem refl (last last' : Int) (x : Row Link) : SameLink last last' x x := ⟨rfl, .inl rfl⟩

variable (h : SameLink last last' x y)
include h

theorem name_eq : y.val.name = x.val.name := by
  have hname : y.val.timeless.name = x.val.timeless.name := by rw [h.val]
  exact hname

theorem isLink_eq (scope : Scope) (name : String) :
    Query.isLink scope name y = Query.isLink scope name x := by
  have hscope : y.val.timeless.scope = x.val.timeless.scope := by rw [h.val]
  have hscope : y.val.scope = x.val.scope := hscope
  unfold Query.isLink
  rw [hscope, h.name_eq]

theorem renewed (d : LinkDraft) (now now' : Int) :
    SameLink last last' ⟨x.id, Query.renewed d now x.val⟩ ⟨y.id, Query.renewed d now' y.val⟩ := by
  refine ⟨?_, h.id⟩
  have htimeless : ∀ (l : Link) time,
      (Query.renewed d time l).timeless = Query.renewed d 0 l.timeless := fun _ _ => rfl
  rw [htimeless, htimeless, h.val]

end Row.SameLink

theorem isSome_find?_of_forall₂ {α β : Type} {R : α → β → Prop} {p : α → Bool} {q : β → Bool}
    {xs : List α} {ys : List β} (h : List.Forall₂ R xs ys) (hp : ∀ x y, R x y → p x = q y) :
    (xs.find? p).isSome = (ys.find? q).isSome := by
  induction h with
  | nil => rfl
  | @cons x y xs ys hxy _ ih =>
    rw [List.find?_cons, List.find?_cons, hp x y hxy]
    cases q y with
    | true => rfl
    | false => exact ih

section
variable {last last' : Int} {d : LinkDraft} {s u : Store}

theorem forall₂_putLink (h : List.Forall₂ (Row.SameLink last last')
      (s.links.within Link.scope d.scope) (u.links.within Link.scope d.scope))
    (hs : last ≤ s.links.last) (hu : last' ≤ u.links.last) (now now' : Int) :
    List.Forall₂ (Row.SameLink last last') ((s.putLink d now).2.links.within Link.scope d.scope)
      ((u.putLink d now').2.links.within Link.scope d.scope) := by
  have hfound := isSome_find?_of_forall₂ (p := fun r => r.val.name = d.name)
    (q := fun r => r.val.name = d.name) h fun x y hxy => by rw [hxy.name_eq]
  rw [(Store.within_putLink d now s).2, (Store.within_putLink d now' u).2, ← hfound]
  split
  · rw [List.forall₂_map_left_iff, List.forall₂_map_right_iff]
    refine h.imp fun x y hxy => ?_
    unfold Table.change
    rw [hxy.isLink_eq]
    split
    · exact hxy.renewed d now now'
    · exact hxy
  · refine List.rel_append h (.cons ⟨rfl, .inr ⟨?_, ?_⟩⟩ .nil)
    · show last < s.links.last + 1
      omega
    · show last' < u.links.last + 1
      omega

end

/-! ## one data-bus -/

/-- Two stores that began with the same rows in a scope, with `last` and `last'` as the last ids of
their links then. -/
structure Store.Twins (scope : Scope) (last last' : Int) (s u : Store) : Prop where
  same : SameIn scope (Row.SameLink last last') s u
  before : last ≤ s.links.last
  before' : last' ≤ u.links.last

namespace Store.Twins

variable {scope : Scope} {last last' : Int} {s u : Store} (h : Twins scope last last' s u)
include h

theorem commitLink {c : LinkCommit} (hc : c.draft.scope = scope) (now now' : Int) :
    Twins scope last last' (s.commitLink c now).2 (u.commitLink c now').2 := by
  subst hc
  have hsources : ∀ (t : Store) time, (t.commitLink c time).2.sources = t.sources := by
    intro t time
    show (t.putLink c.draft time).2.sources = _
    rw [Query.putLink_snd]
  have hlast : ∀ (t : Store) time, (t.commitLink c time).2.links.last = t.links.last + 1 := by
    intro t time
    exact (within_putLink c.draft time t).1
  have hs := h.before
  have hu := h.before'
  refine ⟨⟨fun id => ?_, ?_, fun k => ?_, ?_, ?_⟩, ?_, ?_⟩
  · rw [hsources, hsources]
    exact h.same.sources id
  · exact Table.within_stamped_congr h.same.buses _ _
  · show ((u.sinks.stamp _ _).get k).within _ _ = ((s.sinks.stamp _ _).get k).within _ _
    rw [SinkTables.get_stamp, SinkTables.get_stamp]
    exact Table.within_stamped_congr (h.same.sinks k) _ _
  · exact Table.within_stamped_congr h.same.resultTables _ _
  · exact forall₂_putLink h.same.links hs hu now now'
  · rw [hlast]
    omega
  · rw [hlast]
    omega

theorem rebuildBus {b : Row Bus} (hb : b.val.scope = scope) (dryRun : Bool) (now now' : Int) :
    (∀ report : RebuildReport, report.count (u.rebuildBus dryRun now' b).1.1
      = report.count (s.rebuildBus dryRun now b).1.1) ∧
    Twins scope last last' (s.rebuildBus dryRun now b).2 (u.rebuildBus dryRun now' b).2 := by
  unfold Store.rebuildBus
  rw [h.same.resolve_eq hb]
  cases s.resolve b.val with
  | error e => exact ⟨fun _ => rfl, h⟩
  | ok r =>
    cases dryRun with
    | true => exact ⟨fun _ => rfl, h⟩
    | false => exact ⟨fun _ => rfl, h.commitLink hb now now'⟩

end Store.Twins

/-! ## a batch -/

/-- visits of the same data-buses are counted alike, and leave stores that are alike -/
theorem Store.Twins.batch {scope : Scope} {last last' : Int} {s u : Store} {dryRun : Bool}
    {now now' : Int} {vs ws : List Visit} (h : Twins scope last last' s u)
    (hvs : Batch scope dryRun now s vs) (hws : Batch scope dryRun now' u ws)
    (hv : ∀ v ∈ vs, ∃ a, v.answer = .ok a) (hw : ∀ w ∈ ws, ∃ a, w.answer = .ok a)
    (hbuses : ws.map Visit.bus = vs.map Visit.bus) (report : RebuildReport) :
    Visit.tally report ws = Visit.tally report vs ∧
      Twins scope last last' (Visit.storeAfter s vs) (Visit.storeAfter u ws) := by
  -- on the first batch; the second one begins at its own store, and the report may have any counts
  induction hvs generalizing u ws report with
  | nil s =>
    have hnil : ws = [] := List.map_eq_nil_iff.1 hbuses
    subst hnil
    cases hws
    exact ⟨rfl, h⟩
  | @cons v vs hvis _ ih =>
    cases hws with
    | nil => cases hbuses
    | @cons w ws hwis hws =>
      obtain ⟨hbus, hbuses⟩ := List.cons.inj hbuses
      obtain ⟨⟨a, ha⟩, hv⟩ := List.forall_mem_cons.1 hv
      obtain ⟨⟨a', ha'⟩, hw⟩ := List.forall_mem_cons.1 hw
      have hdid := hvis.did_ok ha
      have hdid' := hwis.did_ok ha'
      obtain ⟨hcount, hnext⟩ := h.rebuildBus hvis.scope dryRun now now'
      rw [hdid, ← hbus, hdid'] at hcount
      rw [hdid, ← hbus, hdid'] at hnext
      rw [Visit.tally_cons, Visit.tally_cons, ha, ha']
      show Visit.tally (report.count a'.1) ws = Visit.tally (report.count a.1) vs ∧ _
      rw [hcount report]
      exact ih hnext hws hv hw hbuses _

/-! ## other scopes -/

/-- Nothing is different outside a scope. -/
structure Store.SameOutside (scope : Scope) (s u : Store) : Prop where
  buses : ∀ x, x.val.scope ≠ scope → (x ∈ u.buses.rows ↔ x ∈ s.buses.rows)
  sinks : ∀ k x, x.val.scope ≠ scope → (x ∈ (u.sinks.get k).rows ↔ x ∈ (s.sinks.get k).rows)
  resultTables : ∀ x, x.val.scope ≠ scope → (x ∈ u.resultTables.rows ↔ x ∈ s.resultTables.rows)
  links : ∀ x, x.val.scope ≠ scope → (x ∈ u.links.rows ↔ x ∈ s.links.rows)
  others : u.spaces = s.spaces ∧ u.resources = s.resources ∧ u.relations = s.relations ∧
    u.sources = s.sources

theorem Table.Marked.mem_of_scope {δ : Type} {t u : Table (Component.key (δ := δ))}
    {p : Row (Component δ) → Prop} {owner : String} {scope : Scope} (h : t.Marked u p owner)
    (hp : ∀ r ∈ t.rows, p r → r.val.scope = scope) {x : Row (Component δ)}
    (hx : x.val.scope ≠ scope) : x ∈ u.rows ↔ x ∈ t.rows := by
  refine h.mem_of_unmarked (fun hxt hpx => hx (hp x hxt hpx)) fun a ha hpa he => ?_
  rw [he] at hx
  exact hx (hp a ha hpa)

namespace Store

variable {scope : Scope} {s u w : Store}

theorem SameOutside.refl (scope : Scope) (s : Store) : SameOutside scope s s :=
  ⟨fun _ _ => .rfl, fun _ _ _ => .rfl, fun _ _ => .rfl, fun _ _ => .rfl, rfl, rfl, rfl, rfl⟩

theorem SameOutside.linking (h : SameOutside scope s u) {b : Row Bus} {r : Resolution} {l : Row Link}
    (hl : u.Linking b r l w) (hr : u.Resolved b.val r) (hb : b.val.scope = scope) :
    SameOutside scope s w where
  buses x hx := by
    refine Iff.trans (hl.buses.mem_of_scope (fun y _ hy => ?_) hx) (h.buses x hx)
    rw [hy, hb]
  sinks k x hx := by
    refine Iff.trans ((hl.sinks k).mem_of_scope (fun y _ hy => ?_) hx) (h.sinks k x hx)
    exact (hr.sink_mem _ hy).2.trans hb
  resultTables x hx := by
    refine Iff.trans (hl.resultTables.mem_of_scope (fun y _ hy => ?_) hx) (h.resultTables x hx)
    exact (hr.table_mem _ hy).2.trans hb
  links x hx := by
    rw [hl.links, ← h.links x hx]
    have hother : ¬x = l := by
      rintro rfl
      exact hx (hl.key.1.trans hb)
    have hscope : ¬x.val.scope = b.val.scope := by rwa [hb]
    simp only [hother, hscope, false_or, false_and, not_false_eq_true, and_true]
  others := by
    obtain ⟨h1, h2, h3, h4⟩ := hl.frame
    rw [h1, h2, h3, h4]
    exact h.others

end Store

/-- whatever fails in a batch, nothing is different outside its scope -/
theorem sameOutside_rebuild (scope : Scope) (dryRun : Bool) (clock : Clock) (db : Db) :
    db.store.SameOutside scope (rebuild scope dryRun clock db).2.store := by
  rw [rebuild_store]
  refine ((batch_visits scope dryRun clock db).invariant (fun s b r l u hs hb hr hl => ?_)
    (.refl scope db.store)).2
  exact hs.linking hl hr (Store.mem_unlinked.1 hb).2.1

/-- A batch over one scope ends with the same report on two stores with the same rows in this scope,
whatever rows there are in others, and with the same rows in it, but for the ids of new links and for
times.  It changes nothing in other scopes, whether it ends with a report or fails. -/
theorem rebuild_isolated (scope : Scope) (dryRun : Bool) (clock clock' : Clock) {db db' : Db}
    (h : db.store.SameIn scope Eq db'.store) :
    let run := rebuild scope dryRun clock db
    let run' := rebuild scope dryRun clock' db'
    ((db.Reliable → ∃ report, run.1.result = .ok report) ∧
      (db'.Reliable → ∃ report', run'.1.result = .ok report')) ∧
    (∀ report report', run.1.result = .ok report → run'.1.result = .ok report' →
      ({ report' with duration := 0 } : RebuildReport) = { report with duration := 0 } ∧
      run.2.store.SameIn scope (Row.SameLink db.store.links.last db'.store.links.last)
        run'.2.store) ∧
    db.store.SameOutside scope run.2.store ∧ db'.store.SameOutside scope run'.2.store := by
  intro run run'
  refine ⟨⟨exists_report scope dryRun clock, exists_report scope dryRun clock'⟩,
    fun report report' hrun hrun' => ?_, sameOutside_rebuild scope dryRun clock db,
    sameOutside_rebuild scope dryRun clock' db'⟩
  have hreported := reported_rebuild hrun
  have hreported' := reported_rebuild hrun'
  have htwins : Store.Twins scope db.store.links.last db'.store.links.last db.store db'.store :=
    { same := { h with links := h.links.imp fun x y he => he ▸ .refl _ _ x }
      before := Int.le_refl _
      before' := Int.le_refl _ }
  have hbuses : (visits scope dryRun clock' db').map Visit.bus
      = (visits scope dryRun clock db).map Visit.bus := by
    rw [hreported.buses, hreported'.buses, h.unlinked_eq]
  obtain ⟨final, htally, rfl⟩ := hreported.tally
  obtain ⟨final', htally', rfl⟩ := hreported'.tally
  obtain ⟨hsame, hafter⟩ := htwins.batch (batch_visits scope dryRun clock db)
    (batch_visits scope dryRun clock' db') hreported.answered hreported'.answered hbuses
    { RebuildReport.start scope dryRun with total := (db.store.unlinked scope).length }
  rw [h.unlinked_eq, hsame, htally] at htally'
  cases htally'
  refine ⟨rfl, ?_⟩
  rw [← rebuild_store, ← rebuild_store] at hafter
  exact hafter.same

/-- A store with one scope, whose data-bus has the name of its link in common with the data-bus `b` of
the scope `n__a`. -/
def Store.alone : Store :=
  { Store.empty with
    sources := [⟨7, "source", "bk_standard_v2_event"⟩]
    buses := ⟨[⟨1, ⟨⟨"t", "n"⟩, "a__b", "", ⟨7, "[\"ElasticSearchBinding:sink\"]"⟩⟩⟩], 1,
      by decide, by decide, by decide, by decide⟩
    sinks := { SinkTables.empty with
      elastic := ⟨[⟨1, ⟨⟨"t", "n"⟩, "sink", "", some "table"⟩⟩], 1,
        by decide, by decide, by decide, by decide⟩ }
    resultTables := ⟨[⟨1, ⟨⟨"t", "n"⟩, "table", "", "2_bkmonitor.table"⟩⟩], 1,
      by decide, by decide, by decide, by decide⟩ }

/-- The same store with the other data-bus and its link. -/
def Store.shared : Store :=
  { Store.alone with
    buses := ⟨[⟨1, ⟨⟨"t", "n"⟩, "a__b", "", ⟨7, "[\"ElasticSearchBinding:sink\"]"⟩⟩⟩,
      ⟨2, ⟨⟨"t", "n__a"⟩, "b", "rebuilt__t__n__a__b", ⟨7, "[]"⟩⟩⟩], 2,
      by decide, by decide, by decide, by decide⟩
    links := ⟨[⟨1, ⟨⟨"t", "n__a"⟩, "rebuilt__t__n__a__b", "bk_standard_v2_event", 7, "[]", 5, 5⟩⟩], 1,
      by decide, by decide, by decide, by decide⟩ }

theorem rebuild_isolated_shared : Store.alone.SameIn ⟨"t", "n"⟩ Eq .shared ∧
    (rebuild ⟨"t", "n"⟩ false ⟨9, 3⟩ (.of .alone)).2.store.links.rows.map
      (fun r => (r.id, r.val.scope.name, r.val.name)) = [(1, "n", "rebuilt__t__n__a__b")] ∧
    (rebuild ⟨"t", "n"⟩ false ⟨8, 4⟩ (.of .shared)).2.store.links.rows.map
      (fun r => (r.id, r.val.scope.name, r.val.name))
        = [(1, "n__a", "rebuilt__t__n__a__b"), (2, "n", "rebuilt__t__n__a__b")] ∧
    ∃ report report', (rebuild ⟨"t", "n"⟩ false ⟨9, 3⟩ (.of .alone)).1.result = .ok report ∧
      (rebuild ⟨"t", "n"⟩ false ⟨8, 4⟩ (.of .shared)).1.result = .ok report' ∧
      ({ report' with duration := 0 } : RebuildReport) = { report with duration := 0 } := by
  have hsame : (Db.of .alone).store.SameIn ⟨"t", "n"⟩ Eq (Db.of .shared).store :=
    ⟨fun _ => rfl, by decide, fun k => by cases k <;> decide, by decide, .nil⟩
  obtain ⟨⟨hok, hok'⟩, hreports, _⟩ := rebuild_isolated ⟨"t", "n"⟩ false ⟨9, 3⟩ ⟨8, 4⟩ hsame
  obtain ⟨report, hrun⟩ := hok (Db.reliable_of _)
  obtain ⟨report', hrun'⟩ := hok' (Db.reliable_of _)
  exact ⟨hsame, by decide +kernel, by decide +kernel, report, report', hrun, hrun',
    (hreports report report' hrun hrun').1⟩

end Linkage
