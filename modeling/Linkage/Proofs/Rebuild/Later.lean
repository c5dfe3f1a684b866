import Linkage.Proofs.Rebuild.Linking

/-!
# What a data-bus resolves to when others were linked before it

The components are the same later, but more of them may have an owner:

* `Keeps.allSinks`, `Keeps.ownableTables`   the sinks and result tables that are found later;
* `Keeps.resolve_echoes`    what was refused before is refused later for the same reason, or for a
                            conflict;
* `Keeps.resolve_of_taken_sink` and its siblings   what resolved before resolves to the same rows
                            later, unless one of them has been given an owner.
-/

namespace Linkage

/-- The second answer is the first one, up to `R`, or a conflict. -/
inductive Echoes {α β : Type} (R : α → β → Prop) : Except Skip α → Except Skip β → Prop
  | conflict {x : Except Skip α} (e : Skip) (h : e.reason.isConflict = true) : Echoes R x (.error e)
  | error (e : Skip) : Echoes R (.error e) (.error e)
  | ok {a : α} {b : β} (h : R a b) : Echoes R (.ok a) (.ok b)

theorem Echoes.bind {α β γ δ : Type} {R : α → β → Prop} {S : γ → δ → Prop} {x : Except Skip α}
    {y : Except Skip β} {f : α → Except Skip γ} {g : β → Except Skip δ} (h : Echoes R x y)
    (hf : ∀ a b, R a b → Echoes S (f a) (g b)) : Echoes S (x.bind f) (y.bind g) := by
  cases h with
  | conflict e he => exact .conflict e he
  | error e => exact .error e
  | ok hab => exact hf _ _ hab

theorem Echoes.refl {α : Type} (x : Except Skip α) : Echoes Eq x x := by
  cases x with
  | error e => exact .error e
  | ok a => exact .ok rfl

namespace Table

section
variable {δ : Type} {t u : Table (Component.key (δ := δ))}

theorem Keeps.found (h : t.Keeps u) (scope : Scope) (names : List String) :
    u.found scope names = (t.found scope names).map u.later := by
  unfold Table.found
  rw [List.map_filterMap]
  exact List.filterMap_congr fun n _ => h.named? scope n

theorem Keeps.lost (h : t.Keeps u) (scope : Scope) (names : List String) :
    u.lost scope names = t.lost scope names := by
  unfold Table.lost
  refine List.filter_congr fun n _ => ?_
  rw [h.named?, Option.isNone_map]

/-- a row that has no owner later is what it was -/
theorem Keeps.later_eq (h : t.Keeps u) {a : Row (Component δ)} (ha : a ∈ t.rows)
    (ho : (u.later a).val.owner = "") : u.later a = a := by
  obtain ⟨_, hk⟩ := h.later_mem ha
  refine hk.eq ?_
  by_cases hne : a.val.owner = ""
  · rw [ho, hne]
  · exact hk.owner hne

end

end Table

/-- The sink that a listed sink has become. -/
def ListedSink.later (u : Store) (x : ListedSink) : ListedSink :=
  ⟨x.kind, (u.sinks.get x.kind).later x.row⟩

namespace Store

variable {s u : Store} (h : s.Keeps u)
include h

theorem Keeps.groupSinks (scope : Scope) (g : SinkGroup) :
    u.groupSinks scope g = (s.groupSinks scope g).map (List.map (ListedSink.later u)) := by
  unfold Store.groupSinks
  simp only
  rw [(h.sinks g.kind).lost, (h.sinks g.kind).found]
  split
  · rw [List.map_map]
    show _ = Except.ok _
    rw [List.map_map]
    rfl
  · rfl

theorem Keeps.allSinks (scope : Scope) (gs : List SinkGroup) :
    u.allSinks scope gs = (s.allSinks scope gs).map (List.map (ListedSink.later u)) := by
  induction gs with
  | nil => rfl
  | cons g gs ih =>
    rw [Store.allSinks, Store.allSinks, h.groupSinks, ih]
    cases s.groupSinks scope g with
    | error e => rfl
    | ok ss =>
      cases s.allSinks scope gs with
      | error e => rfl
      | ok rest =>
        show Except.ok _ = Except.ok _
        rw [List.map_append]

theorem Keeps.strategyOf (b : Bus) (gs : List SinkGroup) :
    u.strategyOf b gs = s.strategyOf b gs := by
  unfold Store.strategyOf
  rw [h.sources]

/-- sinks without an owner are what they were -/
theorem Keeps.map_later {ss : List ListedSink}
    (hm : ∀ x ∈ ss, x.row ∈ (s.sinks.get x.kind).rows)
    (ho : ∀ x ∈ ss, (x.later u).row.val.owner = "") : ss.map (ListedSink.later u) = ss := by
  refine (List.map_congr_left fun x hx => ?_).trans (List.map_id ss)
  have := (h.sinks x.kind).later_eq (hm x hx) (ho x hx)
  unfold ListedSink.later
  rw [this]
  rfl

omit h in
theorem unownedSinks_error {ss : List ListedSink} {e : Skip}
    (he : Query.unownedSinks ss = .error e) : e.reason = .componentConflict := by
  unfold Query.unownedSinks at he
  split at he
  · cases he
    rfl
  · cases he

omit h in
theorem ownableTables_conflict {scope : Scope} {names : List String}
    (hlost : s.resultTables.lost scope names = [])
    (hex : ∃ t ∈ s.resultTables.found scope names, t.val.owner ≠ "") :
    ∃ e, s.ownableTables scope names = .error e ∧ e.reason = .resultTableConflict := by
  unfold Store.ownableTables
  rw [if_pos hlost]
  split
  · exact ⟨_, rfl, rfl⟩
  · rename_i hnone
    obtain ⟨t, ht, hne⟩ := hex
    exact absurd (Component.find?_isOwned_eq_none_iff.1 hnone t ht) hne

/-- result tables that are found later; one of them may have an owner -/
theorem Keeps.ownableTables (scope : Scope) (names : List String) :
    Echoes Eq (s.ownableTables scope names) (u.ownableTables scope names) := by
  cases hu : u.ownableTables scope names with
  | ok ts =>
    obtain ⟨hlost, rfl, hown⟩ := ownableTables_eq_ok_iff.1 hu
    rw [h.resultTables.lost] at hlost
    have hsame : u.resultTables.found scope names = s.resultTables.found scope names := by
      rw [h.resultTables.found] at hown ⊢
      refine (List.map_congr_left fun t ht => ?_).trans (List.map_id _)
      have ht' := (Table.mem_found_iff.1 ht).1
      exact h.resultTables.later_eq ht' (hown _ (List.mem_map_of_mem ht))
    rw [hsame] at hown ⊢
    rw [ownableTables_eq_ok_iff.2 ⟨hlost, rfl, hown⟩]
    exact .ok rfl
  | error e =>
    unfold Store.ownableTables at hu ⊢
    rw [h.resultTables.lost] at hu
    split at hu
    · split at hu
      · cases hu
        exact .conflict _ rfl
      · cases hu
    · rename_i hlost
      rw [if_neg hlost, ← hu]
      exact Echoes.refl _

/-- What is refused is refused later for the same reason, or for a conflict. -/
theorem Keeps.resolve_echoes (b : Bus) : Echoes Eq (s.resolve b) (u.resolve b) := by
  unfold Store.resolve
  refine (Echoes.refl (SinkGroup.ofBus b)).bind fun gs gs' hgs => ?_
  subst hgs
  rw [h.allSinks]
  cases hss : s.allSinks b.scope gs with
  | error e => exact .error e
  | ok ss =>
    have hm : ∀ x ∈ ss, x.row ∈ (s.sinks.get x.kind).rows := by
      intro x hx
      obtain ⟨g, _, _, hr⟩ := (mem_allSinks hss).1 hx
      exact (Table.mem_found_iff.1 hr).1
    show Echoes Eq ((Query.unownedSinks ss).bind _)
      ((Query.unownedSinks (ss.map (ListedSink.later u))).bind _)
    cases hown : Query.unownedSinks (ss.map (ListedSink.later u)) with
    | error e =>
      refine .conflict e ?_
      rw [unownedSinks_error hown]
      rfl
    | ok _ =>
      have hfree := fun x hx => unownedSinks_eq_ok_iff.1 hown _ (List.mem_map_of_mem (a := x) hx)
      have hsame := h.map_later hm hfree
      rw [hsame] at hown ⊢
      rw [hown]
      refine (Echoes.refl (tableNames [] ss)).bind fun names names' hn => ?_
      subst hn
      refine (h.ownableTables b.scope names).bind fun ts ts' ht => ?_
      subst ht
      rw [h.strategyOf]
      exact Echoes.refl _

section
variable {b : Bus} {r : Resolution} (hr : s.resolve b = .ok r)
include hr

/-- what has resolved gets to the check of its sinks, and from there to that of its result tables -/
theorem Keeps.resolve_stages : ∃ (f : Unit → Except Skip Resolution) (names : List String),
    u.resolve b = (Query.unownedSinks (r.sinks.map (ListedSink.later u))).bind f ∧
    s.ownableTables b.scope names = .ok r.tables ∧
    (r.sinks.map (ListedSink.later u) = r.sinks →
      f () = (u.ownableTables b.scope names).bind fun ts => .ok { r with tables := ts }) := by
  obtain ⟨gs, ss, names, ts, strategy, hgs, hss, _, hnames, hts, hst, rfl⟩ :=
    resolve_eq_ok_iff.1 hr
  refine ⟨fun _ => (tableNames [] (ss.map (ListedSink.later u))).bind fun names =>
      (u.ownableTables b.scope names).bind fun ts => (u.strategyOf b gs).bind fun strategy =>
        .ok ⟨b.scope.linkName b.name, strategy, ss.map (ListedSink.later u), ts⟩,
    names, ?_, hts, fun hsame => ?_⟩
  · unfold Store.resolve
    rw [hgs]
    show (u.allSinks b.scope gs).bind _ = _
    rw [h.allSinks, hss]
    rfl
  · have hsame : ss.map (ListedSink.later u) = ss := hsame
    rw [hsame, hnames]
    show (u.ownableTables b.scope names).bind (fun ts => (u.strategyOf b gs).bind _) = _
    rw [h.strategyOf, hst]
    rfl

theorem Keeps.resolve_of_taken_sink (hex : ∃ x ∈ r.sinks, (x.later u).row.val.owner ≠ "") :
    ∃ e, u.resolve b = .error e ∧ e.reason = .componentConflict := by
  obtain ⟨f, _, hu, _⟩ := h.resolve_stages hr
  cases hown : Query.unownedSinks (r.sinks.map (ListedSink.later u)) with
  | error e =>
    refine ⟨e, ?_, unownedSinks_error hown⟩
    rw [hu, hown]
    rfl
  | ok _ =>
    obtain ⟨x, hx, hne⟩ := hex
    exact absurd (unownedSinks_eq_ok_iff.1 hown _ (List.mem_map_of_mem hx)) hne

variable (hfree : ∀ x ∈ r.sinks, (x.later u).row.val.owner = "")
include hfree

/-- with free sinks, only the check of the result tables can turn out otherwise -/
theorem Keeps.resolve_of_free_sinks : ∃ names, s.ownableTables b.scope names = .ok r.tables ∧
    u.resolve b = (u.ownableTables b.scope names).bind fun ts => .ok { r with tables := ts } := by
  obtain ⟨f, names, hu, hts, hf⟩ := h.resolve_stages hr
  have hrows := resolved_of_resolve hr
  have hsame := h.map_later (fun x hx => (hrows.sink_mem x hx).1) hfree
  have hnone : Query.unownedSinks r.sinks = .ok () := by
    refine unownedSinks_eq_ok_iff.2 fun x hx => ?_
    exact hrows.sink_unowned x hx
  refine ⟨names, hts, ?_⟩
  rw [hu, hsame, hnone]
  exact hf hsame

theorem Keeps.resolve_of_taken_table
    (hex : ∃ t ∈ r.tables, (u.resultTables.later t).val.owner ≠ "") :
    ∃ e, u.resolve b = .error e ∧ e.reason = .resultTableConflict := by
  obtain ⟨names, hts, hu⟩ := h.resolve_of_free_sinks hr hfree
  obtain ⟨hlost, hfound, _⟩ := ownableTables_eq_ok_iff.1 hts
  rw [← h.resultTables.lost] at hlost
  obtain ⟨t, ht, hne⟩ := hex
  rw [hfound] at ht
  have hmem := List.mem_map_of_mem (f := u.resultTables.later) ht
  rw [← h.resultTables.found] at hmem
  obtain ⟨e, he, hreason⟩ := ownableTables_conflict hlost ⟨_, hmem, hne⟩
  refine ⟨e, ?_, hreason⟩
  rw [hu, he]
  rfl

theorem Keeps.resolve_of_free_tables
    (hall : ∀ t ∈ r.tables, (u.resultTables.later t).val.owner = "") : u.resolve b = .ok r := by
  obtain ⟨names, hts, hu⟩ := h.resolve_of_free_sinks hr hfree
  have hrows := resolved_of_resolve hr
  obtain ⟨hlost, hfound, _⟩ := ownableTables_eq_ok_iff.1 hts
  rw [← h.resultTables.lost] at hlost
  have hsame : u.resultTables.found b.scope names = r.tables := by
    rw [h.resultTables.found, ← hfound]
    refine (List.map_congr_left fun t ht => ?_).trans (List.map_id r.tables)
    exact h.resultTables.later_eq (hrows.table_mem t ht).1 (hall t ht)
  have htables : u.ownableTables b.scope names = .ok r.tables := by
    refine ownableTables_eq_ok_iff.2 ⟨hlost, hsame.symm, fun t ht => ?_⟩
    exact hrows.table_unowned t ht
  rw [hu, htables]
  rfl

end

end Store
end Linkage
