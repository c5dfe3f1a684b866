import Linkage.Proofs.Rebuild.Batch
import Linkage.Proofs.Rebuild.Later

/-!
# The owners that a batch has given so far

A batch finds the store as it was, but for the owners that it has given itself.

* `Table.Ahead`, `Store.Ahead`   owners were given, since, to what some data-buses claim, and to
                                 nothing else;
* `Ahead.linking`         linking one more data-bus adds what it claims;
* `Batch.ahead`           before each visit of a batch, owners were given to what the data-buses claim
                          that it has linked.
-/

namespace Linkage

namespace Table

section
variable {δ : Type} {t u v : Table (Component.key (δ := δ))} {scope : Scope}
  {claimed claims : String → Prop}

theorem Keeps.later_later (h : t.Keeps u) (h' : u.Keeps v) {x : Row (Component δ)}
    (hx : x ∈ t.rows) : v.later (u.later x) = v.later x := by
  obtain ⟨hy, hxy⟩ := h.later_mem hx
  obtain ⟨hz, hyz⟩ := h'.later_mem hy
  obtain ⟨hw, hxw⟩ := (h.trans h').later_mem hx
  refine eq_of_name hz hw ?_ ?_
  · rw [hyz.scope, hxy.scope, hxw.scope]
  · rw [hyz.name, hxy.name, hxw.name]

/-- Since the table `t`, owners were given to the components of the scope whose names are claimed,
and to no others. -/
structure Ahead (t u : Table (Component.key (δ := δ))) (scope : Scope) (claimed : String → Prop) :
    Prop where
  keeps : t.Keeps u
  owner_iff : ∀ x ∈ t.rows, x.val.owner = "" → x.val.scope = scope →
    ((u.later x).val.owner = "" ↔ ¬claimed x.val.name)

theorem ahead_self (t : Table (Component.key (δ := δ))) (scope : Scope)
    (h : ∀ n, ¬claimed n) : t.Ahead t scope claimed where
  keeps := .refl t
  owner_iff x hx ho _ := by
    have : t.later x = x := by
      unfold later
      rw [named?_self hx]
      rfl
    rw [this]
    exact ⟨fun _ => h _, fun _ => ho⟩

/-- the components of the scope that a data-bus claims are given an owner as well -/
theorem Ahead.marked {p : Row (Component δ) → Prop} {owner : String} (h : t.Ahead u scope claimed)
    (hm : u.Marked v p owner) (hne : owner ≠ "")
    (hp : ∀ y ∈ u.rows, p y ↔ y.val.scope = scope ∧ claims y.val.name)
    (hfree : ∀ y ∈ u.rows, p y → y.val.owner = "") :
    t.Ahead v scope fun n => claimed n ∨ claims n where
  keeps := h.keeps.trans (hm.keeps hfree)
  owner_iff x hx ho hs := by
    obtain ⟨hy, hxy⟩ := h.keeps.later_mem hx
    have hscope : (u.later x).val.scope = scope := hxy.scope.trans hs
    have hclaims : p (u.later x) ↔ claims x.val.name := by
      rw [hp _ hy, hxy.name]
      exact and_iff_right hscope
    rw [← h.keeps.later_later (hm.keeps hfree) hx, not_or, ← h.owner_iff x hx ho hs, ← hclaims]
    rcases hm.owner_later hfree hy with ⟨hpy, hz⟩ | ⟨hpy, hz⟩
    · rw [hz]
      exact ⟨fun he => absurd he hne, fun he => absurd hpy he.2⟩
    · rw [hz]
      exact ⟨fun he => ⟨he, hpy⟩, fun he => he.1⟩

theorem Ahead.congr (h : t.Ahead u scope claimed) (hc : ∀ n, claims n ↔ claimed n) :
    t.Ahead u scope claims where
  keeps := h.keeps
  owner_iff x hx ho hs := by
    rw [hc]
    exact h.owner_iff x hx ho hs

end

end Table

/-- Two data-buses list a sink in common. -/
def Component.SharesSink (a b : Bus) : Prop := ∃ k n, a.Lists k n ∧ b.Lists k n

namespace Store

/-- Two data-buses refer to a result table in common. -/
def SharesTable (s : Store) (a b : Bus) : Prop := ∃ n, s.Refers a n ∧ s.Refers b n

/-- Since the store `s`, the data-buses `es` of the scope were linked, and no others of it. -/
structure Ahead (s u : Store) (scope : Scope) (es : List Bus) : Prop where
  keeps : s.Keeps u
  sinks : ∀ k, (s.sinks.get k).Ahead (u.sinks.get k) scope fun n => ∃ e ∈ es, e.Lists k n
  resultTables : s.resultTables.Ahead u.resultTables scope fun n => ∃ e ∈ es, s.Refers e n

theorem ahead_self (s : Store) (scope : Scope) : s.Ahead s scope [] where
  keeps := .refl s
  sinks k := Table.ahead_self _ _ fun n hn => by simp at hn
  resultTables := Table.ahead_self _ _ fun n hn => by simp at hn

section
variable {s u v : Store} {scope : Scope} {es : List Bus} {b : Row Bus} {r : Resolution}

theorem Ahead.linking {l : Row Link} (h : s.Ahead u scope es) (hb : b ∈ u.unlinked scope)
    (hr : u.Resolved b.val r) (hl : u.Linking b r l v) : s.Ahead v scope (es ++ [b.val]) := by
  obtain ⟨_, hscope, hfree⟩ := Store.mem_unlinked.1 hb
  have hne : r.link ≠ "" := by
    rw [hr.link]
    exact Scope.linkName_ne_empty _ _
  have hmore : ∀ P : Bus → Prop, (∃ e ∈ es ++ [b.val], P e) ↔ (∃ e ∈ es, P e) ∨ P b.val := by
    intro P
    simp only [List.mem_append, List.mem_singleton, or_and_right, exists_or, exists_eq_left]
  refine ⟨h.keeps.trans (hl.keeps hr hfree), fun k => ?_, ?_⟩
  · have hsinks : (s.sinks.get k).Ahead (v.sinks.get k) scope
        fun n => (∃ e ∈ es, e.Lists k n) ∨ b.val.Lists k n := by
      refine (h.sinks k).marked (hl.sinks k) hne (fun y hy => ?_) fun y _ hm => ?_
      · rw [hr.mem_sinks_iff hy, hscope]
      · exact hr.sink_unowned _ hm
    exact hsinks.congr fun n => hmore _
  · have htables : s.resultTables.Ahead v.resultTables scope
        fun n => (∃ e ∈ es, s.Refers e n) ∨ s.Refers b.val n := by
      refine h.resultTables.marked hl.resultTables hne (fun y hy => ?_) fun y _ hm => ?_
      · rw [hr.mem_tables_iff hy, hscope, h.keeps.refers_iff]
      · exact hr.table_unowned _ hm
    exact htables.congr fun n => hmore _

section
variable (h : s.Ahead u b.val.scope es) (hr : s.resolve b.val = .ok r)
include h hr

/-- a sink of a resolution has got an owner iff it is shared with a data-bus that was linked -/
theorem Ahead.taken_sink_iff : (∃ x ∈ r.sinks, (x.later u).row.val.owner ≠ "") ↔
    ∃ e ∈ es, e.SharesSink b.val := by
  have hres := resolved_of_resolve hr
  have howner : ∀ x ∈ r.sinks, ((x.later u).row.val.owner ≠ "" ↔
      ∃ e ∈ es, e.Lists x.kind x.row.val.name) := fun x hx => by
    rw [Ne, ListedSink.later, (h.sinks x.kind).owner_iff x.row (hres.sink_mem x hx).1
      (hres.sink_unowned x hx) (hres.sink_mem x hx).2, Classical.not_not]
  constructor
  · intro ⟨x, hx, hne⟩
    obtain ⟨e, he, hen⟩ := (howner x hx).1 hne
    exact ⟨e, he, x.kind, x.row.val.name, hen, (hres.lists_iff _ _).2 ⟨x, hx, rfl, rfl⟩⟩
  · intro ⟨e, he, k, n, hen, hbn⟩
    obtain ⟨x, hx, rfl, rfl⟩ := (hres.lists_iff k n).1 hbn
    exact ⟨x, hx, (howner x hx).2 ⟨e, he, hen⟩⟩

theorem Ahead.taken_table_iff : (∃ t ∈ r.tables, (u.resultTables.later t).val.owner ≠ "") ↔
    ∃ e ∈ es, s.SharesTable e b.val := by
  have hres := resolved_of_resolve hr
  have howner : ∀ t ∈ r.tables, ((u.resultTables.later t).val.owner ≠ "" ↔
      ∃ e ∈ es, s.Refers e t.val.name) := fun t ht => by
    rw [Ne, h.resultTables.owner_iff t (hres.table_mem t ht).1 (hres.table_unowned t ht)
      (hres.table_mem t ht).2, Classical.not_not]
  constructor
  · intro ⟨t, ht, hne⟩
    obtain ⟨e, he, hen⟩ := (howner t ht).1 hne
    exact ⟨e, he, t.val.name, hen, hres.refers_iff.2 ⟨t, ht, rfl⟩⟩
  · intro ⟨e, he, n, hen, hbn⟩
    obtain ⟨t, ht, rfl⟩ := hres.refers_iff.1 hbn
    exact ⟨t, ht, (howner t ht).2 ⟨e, he, hen⟩⟩

/-- What has resolved is refused for a sink that is shared, or else for a result table that is
shared, or it resolves to the same. -/
theorem Ahead.resolve_cases :
    ((∃ e ∈ es, e.SharesSink b.val) ∧
      ∃ e, u.resolve b.val = .error e ∧ e.reason = .componentConflict) ∨
    ((¬∃ e ∈ es, e.SharesSink b.val) ∧ (∃ e ∈ es, s.SharesTable e b.val) ∧
      ∃ e, u.resolve b.val = .error e ∧ e.reason = .resultTableConflict) ∨
    ((¬∃ e ∈ es, e.SharesSink b.val) ∧ (¬∃ e ∈ es, s.SharesTable e b.val) ∧
      u.resolve b.val = .ok r) := by
  rw [← h.taken_sink_iff hr, ← h.taken_table_iff hr]
  by_cases hs : ∃ x ∈ r.sinks, (x.later u).row.val.owner ≠ ""
  · exact .inl ⟨hs, h.keeps.resolve_of_taken_sink hr hs⟩
  · have hfree : ∀ x ∈ r.sinks, (x.later u).row.val.owner = "" := fun x hx =>
      Decidable.not_not.1 fun hne => hs ⟨x, hx, hne⟩
    by_cases ht : ∃ t ∈ r.tables, (u.resultTables.later t).val.owner ≠ ""
    · exact .inr (.inl ⟨hs, ht, h.keeps.resolve_of_taken_table hr hfree ht⟩)
    · refine .inr (.inr ⟨hs, ht, h.keeps.resolve_of_free_tables hr hfree fun t htm => ?_⟩)
      exact Decidable.not_not.1 fun hne => ht ⟨t, htm, hne⟩

end

end

end Store

/-- The data-buses that visits linked. -/
def Visit.linkedBuses (vs : List Visit) : List Bus :=
  vs.filterMap fun v => match v.answer with
    | .ok (.linked _, _) => some v.bus.val
    | _ => none

theorem Visit.linkedBuses_cons (v : Visit) (vs : List Visit) :
    linkedBuses (v :: vs) = linkedBuses [v] ++ linkedBuses vs := by
  unfold linkedBuses
  rw [← List.filterMap_append]
  rfl

theorem Visit.linkedBuses_of_linked {v : Visit} {l : Row Link} (h : v.CameTo (.linked l)) :
    linkedBuses [v] = [v.bus.val] := by
  obtain ⟨event, hans⟩ := h
  simp [linkedBuses, hans]

theorem Visit.linkedBuses_of_not_linked {v : Visit} (h : ∀ l, ¬v.CameTo (.linked l)) :
    linkedBuses [v] = [] := by
  unfold linkedBuses
  refine List.filterMap_eq_nil_iff.2 fun w hw => ?_
  rw [List.mem_singleton.1 hw]
  split
  · rename_i l event hans
    exact absurd ⟨event, hans⟩ (h l)
  · rfl

namespace Batch

variable {scope : Scope} {dryRun : Bool} {now : Int} {s u : Store} {vs : List Visit}

/-- before a visit of a batch, owners were given to what the data-buses claim that it has linked -/
theorem ahead (h : Batch scope dryRun now u vs) {es : List Bus} (ha : s.Ahead u scope es) {i : Nat}
    {v : Visit} (hi : vs[i]? = some v) :
    s.Ahead v.before scope (es ++ Visit.linkedBuses (vs.take i)) := by
  induction h generalizing es i with
  | nil => cases hi
  | @cons w ws hw _ ih =>
    cases i with
    | zero =>
      cases hi
      rw [List.take_zero]
      show s.Ahead _ scope (es ++ [])
      rwa [List.append_nil]
    | succ i =>
      have hafter : s.Ahead w.after scope (es ++ Visit.linkedBuses [w]) := by
        rcases hw.step with ⟨hno, he⟩ | ⟨r, l, hr, _, hc, hl⟩
        · rw [Visit.linkedBuses_of_not_linked hno, he, List.append_nil]
          exact ha
        · have hb := Store.mem_unlinked.2 ⟨hw.bus_mem, hw.scope, hw.unowned⟩
          rw [Visit.linkedBuses_of_linked hc]
          exact ha.linking hb hr hl
      rw [List.take_succ_cons, Visit.linkedBuses_cons, ← List.append_assoc]
      exact ih hafter hi

end Batch

end Linkage
