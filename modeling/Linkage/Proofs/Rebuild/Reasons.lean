import Linkage.Proofs.Rebuild.Checks
import Linkage.Proofs.Rebuild.Linking

/-!
# The reason for which a data-bus is left alone

Several reasons may apply to a data-bus at once.  The one it is skipped for is the first of them in
the order of the checks, wherever in its sink list the cause stands.

* `Store.Applies`         when a reason applies, in terms of the sink list and the rows alone;
* `decides_resolve`       the checks of a data-bus decide all reasons;
* `skipped_first_reason`  what this means for a data-bus that is looked at.
-/

namespace Linkage

/-! ## the sink list -/

namespace Component

/-- A text stands in the sink list. -/
def Entry (b : Bus) (text : String) : Prop := ∃ entries, b.HasEntries entries ∧ text ∈ entries

/-- The sink list names a sink of a kind. -/
def ListsKind (b : Bus) (k : SinkKind) : Prop := ∃ name, b.Lists k name

end Component

/-! ## when a reason applies -/

/-- The row of a sink that a data-bus lists. -/
def Store.ListedRow (s : Store) (b : Bus) (k : SinkKind) (x : Row Sink) : Prop :=
  x ∈ (s.sinks.get k).rows ∧ x.val.scope = b.scope ∧ b.Lists k x.val.name

/-- A reason to leave a data-bus alone applies. -/
def Store.Applies (s : Store) (b : Bus) : SkipReason → Prop
  | .malformedSinkEntry => (¬∃ entries, b.HasEntries entries) ∨ ∃ e, b.Entry e ∧ ':' ∉ e.toList
  | .unknownSinkKind => ∃ e : SinkEntry, b.Entry e.text ∧ ':' ∉ e.kind.toList ∧
      ∀ k : SinkKind, e.kind ≠ k.text
  | .missingComponent => ∃ k n, b.Lists k n ∧
      ∀ x ∈ (s.sinks.get k).rows, x.val.scope = b.scope → x.val.name ≠ n
  | .componentConflict => ∃ k x, s.ListedRow b k x ∧ x.val.owner ≠ ""
  | .emptyTableReference => ∃ k x, s.ListedRow b k x ∧ x.val.detail = some ""
  | .missingResultTable => ∃ n, s.Refers b n ∧
      ∀ t ∈ s.resultTables.rows, t.val.scope = b.scope → t.val.name ≠ n
  | .resultTableConflict => ∃ t ∈ s.resultTables.rows, t.val.scope = b.scope ∧
      s.Refers b t.val.name ∧ t.val.owner ≠ ""
  | .missingDataSource => ¬(b.ListsKind .elastic ∧ b.ListsKind .doris) ∧
      ∀ a ∈ s.sources, a.id ≠ b.detail.dataId
  | .unmappedEtlConfig => ¬(b.ListsKind .elastic ∧ b.ListsKind .doris) ∧
      ∃ a, s.sources.find? (fun a => a.id = b.detail.dataId) = some a ∧
        ∀ l ∈ Strategy.labels, a.etlConfig ≠ l.1

/-! ## all checks of a data-bus -/

namespace Component

variable {s : Store} {b : Bus} {entries : List String} (h : b.HasEntries entries)
include h

theorem HasEntries.entry_iff {e : String} : b.Entry e ↔ e ∈ entries := by
  constructor
  · intro ⟨es, hes, he⟩
    rw [hasEntries_iff, hasEntries_iff.1 h] at hes
    cases hes
    exact he
  · intro he
    exact ⟨entries, h, he⟩

theorem HasEntries.malformed_iff :
    s.Applies b .malformedSinkEntry ↔ ∃ e ∈ entries, ':' ∉ e.toList := by
  constructor
  · rintro (hnone | ⟨e, he, hcolon⟩)
    · exact absurd ⟨entries, h⟩ hnone
    · exact ⟨e, h.entry_iff.1 he, hcolon⟩
  · intro ⟨e, he, hcolon⟩
    exact .inr ⟨e, h.entry_iff.2 he, hcolon⟩

theorem HasEntries.unknown_iff (hcolons : ∀ e ∈ entries, ':' ∈ e.toList) :
    s.Applies b .unknownSinkKind ↔
      ∃ k ∈ entries.map SinkEntry.head, ∀ kind : SinkKind, k ≠ kind.text := by
  constructor
  · intro ⟨e, he, hcolon, hkind⟩
    have hmem := List.mem_map_of_mem (f := SinkEntry.head) (h.entry_iff.1 he)
    rw [SinkEntry.head_text hcolon] at hmem
    exact ⟨e.kind, hmem, hkind⟩
  · intro ⟨k, hk, hkind⟩
    obtain ⟨t, ht, rfl⟩ := List.mem_map.1 hk
    obtain ⟨e, rfl, hcolon⟩ := SinkEntry.exists_text (hcolons t ht)
    rw [SinkEntry.head_text hcolon] at hkind
    exact ⟨e, h.entry_iff.2 ht, hcolon, hkind⟩

end Component

namespace Store

variable {s : Store} {b : Bus} {gs : List SinkGroup} {ss : List ListedSink}

theorem decides_ofBus (s : Store) (b : Bus) :
    Decides (s.Applies b) [.malformedSinkEntry, .unknownSinkKind] (SinkGroup.ofBus b) := by
  cases hb : b.sinkEntries with
  | error e =>
    unfold SinkGroup.ofBus
    rw [hb]
    refine ⟨[], _, rfl, .inl fun ⟨entries, h⟩ => ?_, nofun⟩
    rw [Component.hasEntries_iff, hb] at h
    cases h
  | ok entries =>
    have h : b.HasEntries entries := Component.hasEntries_iff.2 hb
    have hno (hcolons : ∀ e ∈ entries, ':' ∈ e.toList) : ¬s.Applies b .malformedSinkEntry := by
      rw [h.malformed_iff]
      exact fun ⟨e, he, hcolon⟩ => hcolon (hcolons e he)
    generalize hr : SinkGroup.ofBus b = r
    cases (SinkGroup.ofBus_eq_iff h).1 hr with
    | malformed first => exact ⟨[], _, rfl, h.malformed_iff.2 first.exists_mem, nofun⟩
    | unknown colons first =>
      exact ⟨[.malformedSinkEntry], [], rfl, (h.unknown_iff colons).2 first.exists_mem,
        List.forall_mem_singleton.2 (hno colons)⟩
    | @groups ps _ texts _ =>
      subst texts
      have hcolons : ∀ e ∈ ps.map PlannedSink.text, ':' ∈ e.toList :=
        List.forall_mem_map.2 fun p _ => p.colon_mem_text
      refine List.forall_mem_cons.2 ⟨hno hcolons, List.forall_mem_singleton.2 ?_⟩
      rw [h.unknown_iff hcolons, List.map_map]
      rintro ⟨k, hk, hkind⟩
      obtain ⟨p, -, rfl⟩ := List.mem_map.1 hk
      exact hkind p.kind p.head_text

/-- the kinds of the groups are those of the listed sinks -/
theorem hasKind_iff (hgs : SinkGroup.ofBus b = .ok gs) {k : SinkKind} :
    hasKind gs k = true ↔ b.ListsKind k := by
  unfold hasKind Component.ListsKind
  rw [List.any_eq_true]
  constructor
  · intro ⟨g, hg, hk⟩
    obtain ⟨n, hn⟩ := List.exists_mem_of_ne_nil _ (SinkGroup.ne_nil_ofBus hgs g hg)
    exact ⟨n, (SinkGroup.lists_iff hgs).2 ⟨g, hg, of_decide_eq_true hk, hn⟩⟩
  · intro ⟨n, hl⟩
    obtain ⟨g, hg, hk, _⟩ := (SinkGroup.lists_iff hgs).1 hl
    exact ⟨g, hg, decide_eq_true hk⟩

theorem missingComponent_iff (hgs : SinkGroup.ofBus b = .ok gs) :
    s.Applies b .missingComponent ↔
      ∃ g ∈ gs, ∃ n ∈ g.names, (s.sinks.get g.kind).named? b.scope n = none := by
  constructor
  · intro ⟨k, n, hl, hno⟩
    obtain ⟨g, hg, rfl, hn⟩ := (SinkGroup.lists_iff hgs).1 hl
    exact ⟨g, hg, n, hn, Table.named?_eq_none_iff.2 hno⟩
  · intro ⟨g, hg, n, hn, hnone⟩
    exact ⟨g.kind, n, (SinkGroup.lists_iff hgs).2 ⟨g, hg, rfl, hn⟩,
      Table.named?_eq_none_iff.1 hnone⟩

/-- the sinks that were found are the rows of the listed ones -/
theorem mem_allSinks_iff (hgs : SinkGroup.ofBus b = .ok gs)
    (hss : s.allSinks b.scope gs = .ok ss) {x : ListedSink} :
    x ∈ ss ↔ s.ListedRow b x.kind x.row := by
  rw [mem_allSinks hss]
  unfold ListedRow
  rw [SinkGroup.lists_iff hgs]
  constructor
  · intro ⟨g, hg, hk, hx⟩
    obtain ⟨hx, hscope, hn⟩ := Table.mem_found_iff.1 hx
    exact ⟨hx, hscope, g, hg, hk.symm, hn⟩
  · intro ⟨hx, hscope, g, hg, hk, hn⟩
    exact ⟨g, hg, hk.symm, Table.mem_found_iff.2 ⟨hx, hscope, hn⟩⟩

section
variable (hss : ∀ x : ListedSink, x ∈ ss ↔ s.ListedRow b x.kind x.row)
include hss

theorem exists_mem_sinks_iff {p : Row Sink → Prop} :
    (∃ x ∈ ss, p x.row) ↔ ∃ k x, s.ListedRow b k x ∧ p x := by
  constructor
  · intro ⟨x, hx, hp⟩
    exact ⟨x.kind, x.row, (hss x).1 hx, hp⟩
  · intro ⟨k, x, hx, hp⟩
    exact ⟨⟨k, x⟩, (hss ⟨k, x⟩).2 hx, hp⟩

/-- the names that were gathered are those that the data-bus refers to -/
theorem mem_tableNames_iff {names : List String} (hnames : tableNames [] ss = .ok names)
    {n : String} : n ∈ names ↔ s.Refers b n := by
  rw [mem_tableNames hnames, or_iff_right List.not_mem_nil,
    exists_mem_sinks_iff hss (p := fun x => x.val.detail = some n)]
  constructor
  · intro ⟨k, x, ⟨hx, hscope, hl⟩, hd⟩
    exact ⟨k, _, x, hl, Table.named?_eq_some_iff.2 ⟨hx, hscope, rfl⟩, hd⟩
  · intro ⟨k, m, x, hl, hnamed, hd⟩
    obtain ⟨hx, hscope, rfl⟩ := Table.named?_eq_some_iff.1 hnamed
    exact ⟨k, x, ⟨hx, hscope, hl⟩, hd⟩

end

theorem missingResultTable_iff {names : List String} (hnames : ∀ n, n ∈ names ↔ s.Refers b n) :
    s.Applies b .missingResultTable ↔
      ∃ n ∈ names, s.resultTables.named? b.scope n = none := by
  refine exists_congr fun n => ?_
  rw [hnames n, Table.named?_eq_none_iff]

theorem resultTableConflict_iff {names : List String} (hnames : ∀ n, n ∈ names ↔ s.Refers b n) :
    s.Applies b .resultTableConflict ↔
      ∃ t ∈ s.resultTables.found b.scope names, t.val.owner ≠ "" := by
  refine exists_congr fun t => ?_
  rw [Table.mem_found_iff, hnames, and_assoc, and_assoc]

/-- the checks of a data-bus decide all reasons in their order -/
theorem decides_resolve (s : Store) (b : Bus) :
    Decides (s.Applies b) SkipReason.all (s.resolve b) := by
  unfold resolve
  refine (decides_ofBus s b).bind fun gs hgs => ?_
  have hmissing := (stops_allSinks s b.scope gs).congr (missingComponent_iff hgs).symm
  refine hmissing.followed fun ss hss => ?_
  have hrows : ∀ x : ListedSink, x ∈ ss ↔ s.ListedRow b x.kind x.row :=
    fun _ => mem_allSinks_iff hgs hss
  have hconflict : Stops .componentConflict (s.Applies b .componentConflict)
      (Query.unownedSinks ss) := (stops_unownedSinks ss).congr
    (exists_mem_sinks_iff hrows (p := fun x => x.val.owner ≠ ""))
  refine hconflict.followed fun _ _ => ?_
  have hempty : Stops .emptyTableReference (s.Applies b .emptyTableReference)
      (tableNames [] ss) := (stops_tableNames [] ss).congr
    (exists_mem_sinks_iff hrows (p := fun x => x.val.detail = some ""))
  refine hempty.followed fun names hnames => ?_
  have hrefers : ∀ n, n ∈ names ↔ s.Refers b n := fun _ => mem_tableNames_iff hrows hnames
  refine (decides_ownableTables (missingResultTable_iff hrefers)
    (resultTableConflict_iff hrefers)).bind fun ts _ => ?_
  refine (decides_strategyOf ?_ ?_).answer _
  · rw [hasKind_iff hgs, hasKind_iff hgs, List.find?_eq_none]
    simp only [decide_eq_true_eq]
    rfl
  · rw [hasKind_iff hgs, hasKind_iff hgs]
    simp only [ofEtlConfig?_eq_none_iff]
    rfl

end Store

/-- Looking at a data-bus when no statement fails: it is skipped for the first of the reasons that
apply, and is linked, or planned in a dry run, when none does. -/
theorem skipped_first_reason (dryRun : Bool) (now : Int) (b : Row Bus) (s : Store) :
    ∃ outcome event, (Query.rebuildBus dryRun now b (.of s)).1 = .ok (outcome, event) ∧
      (∀ r, outcome = .skipped r ↔
        s.Applies b.val r ∧ ∀ r', s.Applies b.val r' → r.rank ≤ r'.rank) ∧
      ((∃ l, outcome = .linked l) ∧ dryRun = false ∨ (∃ p, outcome = .planned p) ∧ dryRun = true ↔
        ∀ r, ¬s.Applies b.val r) := by
  obtain ⟨⟨outcome, event⟩, hrun⟩ :=
    (Query.Means.rebuildBus dryRun now b).total (.of s) (Db.reliable_of s)
  have hmeans := (Query.Means.rebuildBus dryRun now b).sound (.of s) _ hrun
  have hout : (s.rebuildBus dryRun now b).1.1 = outcome := congrArg (fun x => x.1.1) hmeans
  have hdecides := Store.decides_resolve s b.val
  refine ⟨outcome, event, hrun, fun r => ?_, ?_⟩
  · rw [← hdecides.error_iff, ← hout]
    unfold Store.rebuildBus
    cases s.resolve b.val with
    | error e => simp [Store.settle]
    | ok r => cases dryRun <;> simp [Store.settle]
  · rw [← hdecides.ok_iff, ← hout]
    unfold Store.rebuildBus
    cases s.resolve b.val with
    | error e => simp [Store.settle]
    | ok r => cases dryRun <;> simp [Store.settle]

end Linkage
