import Linkage.Proofs.Rebuild.Resolution
import Linkage.Proofs.Rebuild.SinkList

/-!
# What is known of a data-bus that resolves

* `Store.Refers`            a sink that a data-bus lists refers to a result table;
* `Store.Resolved`          sinks and result tables of a resolution are those that the data-bus lists
                            and refers to, and no link owns one of them;
* `resolved_of_resolve`     this holds of whatever a data-bus resolves to.
-/

namespace Linkage

theorem Except.bind_eq_ok_iff {ε α β : Type} {x : Except ε α} {f : α → Except ε β} {b : β} :
    x.bind f = .ok b ↔ ∃ a, x = .ok a ∧ f a = .ok b := by
  cases x with
  | error e =>
    constructor
    · intro h
      cases h
    · rintro ⟨a, h, _⟩
      cases h
  | ok a =>
    constructor
    · intro h
      exact ⟨a, rfl, h⟩
    · rintro ⟨a', h, hf⟩
      cases h
      exact hf

/-- A sink that a data-bus lists refers to the result table of a name; only storage bindings have
such a reference. -/
def Store.Refers (s : Store) (b : Bus) (name : String) : Prop :=
  ∃ k n r, b.Lists k n ∧ (s.sinks.get k).named? b.scope n = some r ∧ r.val.detail = some name

/-- What is known of the resolution of a data-bus. -/
structure Store.Resolved (s : Store) (b : Bus) (r : Resolution) : Prop where
  link : r.link = b.scope.linkName b.name
  sink_mem : ∀ x ∈ r.sinks, x.row ∈ (s.sinks.get x.kind).rows ∧ x.row.val.scope = b.scope
  sink_unowned : ∀ x ∈ r.sinks, x.row.val.owner = ""
  lists_iff : ∀ k n, b.Lists k n ↔ ∃ x ∈ r.sinks, x.kind = k ∧ x.row.val.name = n
  table_mem : ∀ t ∈ r.tables, t ∈ s.resultTables.rows ∧ t.val.scope = b.scope
  table_unowned : ∀ t ∈ r.tables, t.val.owner = ""
  table_iff : ∀ n, (∃ x ∈ r.sinks, x.row.val.detail = some n) ↔ ∃ t ∈ r.tables, t.val.name = n

/-! ## the checks that are passed -/

namespace Store

variable {s : Store} {scope : Scope}

theorem groupSinks_eq_ok_iff {g : SinkGroup} {ss : List ListedSink} :
    s.groupSinks scope g = .ok ss ↔ (s.sinks.get g.kind).lost scope g.names = [] ∧
      ss = ((s.sinks.get g.kind).found scope g.names).map fun r => ⟨g.kind, r⟩ := by
  unfold groupSinks
  simp only
  split
  · rename_i h
    rw [Except.ok.injEq]
    exact ⟨fun he => ⟨h, he.symm⟩, fun he => he.2.symm⟩
  · rename_i h
    exact ⟨fun he => (by cases he), fun he => absurd he.1 h⟩

theorem mem_allSinks {gs : List SinkGroup} {ss : List ListedSink}
    (h : s.allSinks scope gs = .ok ss) {x : ListedSink} :
    x ∈ ss ↔ ∃ g ∈ gs, x.kind = g.kind ∧ x.row ∈ (s.sinks.get x.kind).found scope g.names := by
  induction gs generalizing ss with
  | nil =>
    cases h
    simp
  | cons g gs ih =>
    obtain ⟨as, ha, h⟩ := Except.bind_eq_ok_iff.1 h
    obtain ⟨bs, hb, h⟩ := Except.bind_eq_ok_iff.1 h
    cases h
    obtain ⟨_, rfl⟩ := groupSinks_eq_ok_iff.1 ha
    rw [List.mem_append, ih hb, List.mem_map, List.exists_mem_cons_iff]
    apply or_congr_left
    constructor
    · rintro ⟨r, hr, rfl⟩
      exact ⟨rfl, hr⟩
    · rintro ⟨hk, hr⟩
      refine ⟨x.row, hk ▸ hr, ?_⟩
      rw [← hk]

theorem exists_named_of_allSinks {gs : List SinkGroup} {ss : List ListedSink}
    (h : s.allSinks scope gs = .ok ss) {g : SinkGroup} (hg : g ∈ gs) {n : String}
    (hn : n ∈ g.names) : ∃ r, (s.sinks.get g.kind).named? scope n = some r := by
  induction gs generalizing ss with
  | nil => cases hg
  | cons g' gs ih =>
    obtain ⟨as, ha, h⟩ := Except.bind_eq_ok_iff.1 h
    obtain ⟨bs, hb, _⟩ := Except.bind_eq_ok_iff.1 h
    rcases List.mem_cons.1 hg with rfl | hg
    · exact Table.lost_eq_nil_iff.1 (groupSinks_eq_ok_iff.1 ha).1 n hn
    · exact ih hb hg

theorem unownedSinks_eq_ok_iff {ss : List ListedSink} {u : Unit} :
    Query.unownedSinks ss = .ok u ↔ ∀ x ∈ ss, x.row.val.owner = "" := by
  rw [← Component.find?_isOwned_eq_none_iff]
  unfold Query.unownedSinks
  cases (ss.find? fun x => x.row.val.isOwned) <;> simp

theorem mem_tableNames {seen names : List String} {ss : List ListedSink}
    (h : tableNames seen ss = .ok names) {n : String} :
    n ∈ names ↔ n ∈ seen ∨ ∃ x ∈ ss, x.row.val.detail = some n := by
  induction ss generalizing seen with
  | nil =>
    cases h
    simp
  | cons x ss ih =>
    rw [tableNames] at h
    rw [List.exists_mem_cons_iff]
    cases hd : x.row.val.detail with
    | none =>
      rw [hd] at h
      rw [ih h]
      simp
    | some t =>
      rw [hd] at h
      simp only at h
      split at h
      · cases h
      · split at h
        · rename_i hseen
          rw [ih h]
          constructor
          · rintro (hn | hn)
            · exact .inl hn
            · exact .inr (.inr hn)
          · rintro (hn | hn | hn)
            · exact .inl hn
            · exact .inl (Option.some.inj hn ▸ List.contains_iff_mem.1 hseen)
            · exact .inr hn
        · rw [ih h, List.mem_append, List.mem_singleton, or_assoc, Option.some.injEq, eq_comm]

theorem ownableTables_eq_ok_iff {names : List String} {ts : List (Row ResultTable)} :
    s.ownableTables scope names = .ok ts ↔ s.resultTables.lost scope names = [] ∧
      ts = s.resultTables.found scope names ∧ ∀ t ∈ ts, t.val.owner = "" := by
  rw [← Component.find?_isOwned_eq_none_iff]
  unfold ownableTables
  split
  · rename_i h
    cases hf : (s.resultTables.found scope names).find? fun t => t.val.isOwned with
    | none =>
      rw [Except.ok.injEq]
      constructor
      · rintro rfl
        exact ⟨h, rfl, hf⟩
      · intro ⟨_, hts, _⟩
        exact hts.symm
    | some t =>
      constructor
      · intro he
        cases he
      · rintro ⟨_, rfl, hnone⟩
        rw [hf] at hnone
        cases hnone
  · rename_i h
    constructor
    · intro he
      cases he
    · intro ⟨hlost, _⟩
      exact absurd hlost h

/-- a data-bus that resolves has passed every check -/
theorem resolve_eq_ok_iff {b : Bus} {r : Resolution} : s.resolve b = .ok r ↔
    ∃ gs ss names ts strategy, SinkGroup.ofBus b = .ok gs ∧ s.allSinks b.scope gs = .ok ss ∧
      (∀ x ∈ ss, x.row.val.owner = "") ∧ tableNames [] ss = .ok names ∧
      s.ownableTables b.scope names = .ok ts ∧ s.strategyOf b gs = .ok strategy ∧
      r = ⟨b.scope.linkName b.name, strategy, ss, ts⟩ := by
  unfold resolve
  constructor
  · intro h
    obtain ⟨gs, hgs, h⟩ := Except.bind_eq_ok_iff.1 h
    obtain ⟨ss, hss, h⟩ := Except.bind_eq_ok_iff.1 h
    obtain ⟨u, hu, h⟩ := Except.bind_eq_ok_iff.1 h
    obtain ⟨names, hnames, h⟩ := Except.bind_eq_ok_iff.1 h
    obtain ⟨ts, hts, h⟩ := Except.bind_eq_ok_iff.1 h
    obtain ⟨strategy, hst, h⟩ := Except.bind_eq_ok_iff.1 h
    exact ⟨gs, ss, names, ts, strategy, hgs, hss, unownedSinks_eq_ok_iff.1 hu, hnames, hts, hst,
      (Except.ok.inj h).symm⟩
  · rintro ⟨gs, ss, names, ts, strategy, hgs, hss, hu, hnames, hts, hst, rfl⟩
    rw [hgs]
    show (s.allSinks b.scope gs).bind _ = _
    rw [hss]
    show (Query.unownedSinks ss).bind _ = _
    rw [unownedSinks_eq_ok_iff (u := ()).2 hu]
    show (tableNames [] ss).bind _ = _
    rw [hnames]
    show (s.ownableTables b.scope names).bind _ = _
    rw [hts]
    show (s.strategyOf b gs).bind _ = _
    rw [hst]
    rfl

theorem resolved_of_resolve {b : Bus} {r : Resolution} (h : s.resolve b = .ok r) :
    s.Resolved b r := by
  obtain ⟨gs, ss, names, ts, strategy, hgs, hss, hu, hnames, hts, _, rfl⟩ := resolve_eq_ok_iff.1 h
  obtain ⟨hlost, rfl, howned⟩ := ownableTables_eq_ok_iff.1 hts
  refine ⟨rfl, fun x hx => ?_, hu, fun k n => ?_, fun t ht => ?_, howned, fun n => ?_⟩
  · obtain ⟨g, _, _, hr⟩ := (mem_allSinks hss).1 hx
    obtain ⟨h1, h2, _⟩ := Table.mem_found_iff.1 hr
    exact ⟨h1, h2⟩
  · rw [SinkGroup.lists_iff hgs]
    constructor
    · rintro ⟨g, hg, rfl, hn⟩
      obtain ⟨row, hrow⟩ := exists_named_of_allSinks hss hg hn
      obtain ⟨h1, h2, rfl⟩ := Table.named?_eq_some_iff.1 hrow
      exact ⟨⟨g.kind, row⟩, (mem_allSinks hss).2 ⟨g, hg, rfl, Table.mem_found_iff.2 ⟨h1, h2, hn⟩⟩,
        rfl, rfl⟩
    · rintro ⟨x, hx, rfl, rfl⟩
      obtain ⟨g, hg, hk, hr⟩ := (mem_allSinks hss).1 hx
      exact ⟨g, hg, hk.symm, (Table.mem_found_iff.1 hr).2.2⟩
  · obtain ⟨h1, h2, _⟩ := Table.mem_found_iff.1 ht
    exact ⟨h1, h2⟩
  · have hn := mem_tableNames hnames (n := n)
    rw [or_iff_right (List.not_mem_nil)] at hn
    rw [← hn]
    constructor
    · intro hm
      obtain ⟨row, hrow⟩ := Table.lost_eq_nil_iff.1 hlost n hm
      obtain ⟨h1, h2, rfl⟩ := Table.named?_eq_some_iff.1 hrow
      exact ⟨row, Table.mem_found_iff.2 ⟨h1, h2, hm⟩, rfl⟩
    · rintro ⟨t, ht, rfl⟩
      exact (Table.mem_found_iff.1 ht).2.2

namespace Resolved

variable {b : Bus} {r : Resolution} (h : s.Resolved b r)
include h

/-- the row of a listed sink is the one in the resolution -/
theorem named?_sink {x : ListedSink} (hx : x ∈ r.sinks) :
    (s.sinks.get x.kind).named? b.scope x.row.val.name = some x.row :=
  Table.named?_eq_some_iff.2 ⟨(h.sink_mem x hx).1, (h.sink_mem x hx).2, rfl⟩

theorem refers_iff {n : String} : s.Refers b n ↔ ∃ t ∈ r.tables, t.val.name = n := by
  rw [← h.table_iff n]
  constructor
  · rintro ⟨k, m, row, hl, hrow, hd⟩
    obtain ⟨x, hx, rfl, rfl⟩ := (h.lists_iff k m).1 hl
    rw [h.named?_sink hx] at hrow
    cases hrow
    exact ⟨x, hx, hd⟩
  · rintro ⟨x, hx, hd⟩
    exact ⟨x.kind, x.row.val.name, x.row, (h.lists_iff _ _).2 ⟨x, hx, rfl, rfl⟩,
      h.named?_sink hx, hd⟩

/-- a row of a table of sinks is in the resolution when its name is listed -/
theorem mem_sinks_iff {k : SinkKind} {row : Row Sink} (hr : row ∈ (s.sinks.get k).rows) :
    ⟨k, row⟩ ∈ r.sinks ↔ row.val.scope = b.scope ∧ b.Lists k row.val.name := by
  rw [h.lists_iff]
  constructor
  · intro hm
    exact ⟨(h.sink_mem _ hm).2, _, hm, rfl, rfl⟩
  · rintro ⟨hs, x, hx, rfl, hn⟩
    have : x.row = row :=
      Table.eq_of_name (h.sink_mem x hx).1 hr ((h.sink_mem x hx).2.trans hs.symm) hn
    rw [← this]
    exact hx

theorem mem_tables_iff {row : Row ResultTable} (hr : row ∈ s.resultTables.rows) :
    row ∈ r.tables ↔ row.val.scope = b.scope ∧ s.Refers b row.val.name := by
  rw [h.refers_iff]
  constructor
  · intro hm
    exact ⟨(h.table_mem _ hm).2, row, hm, rfl⟩
  · rintro ⟨hs, t, ht, hn⟩
    have : t = row :=
      Table.eq_of_name (h.table_mem t ht).1 hr ((h.table_mem t ht).2.trans hs.symm) hn
    rw [← this]
    exact ht

end Resolved

end Store
end Linkage
