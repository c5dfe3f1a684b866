import Linkage.Proofs.Rebuild.Resolved

/-!
# How the checks of a data-bus fail

A data-bus is checked step by step, and each step has reasons of its own to stop.

* `Decides`        a check fails on the first of its reasons that applies, or finds none;
* `Decides.bind`   two checks in a row decide the reasons of both, in their order;
* `Stops`          a check with one reason fails when there is a cause for it;
* `stops_allSinks`, `stops_unownedSinks`, `stops_tableNames`,
  `decides_ownableTables`, `decides_strategyOf`   the causes for which the single checks fail.
-/

namespace Linkage

namespace SkipReason

theorem mem_all (r : SkipReason) : r ∈ all := by cases r <;> decide

theorem pairwise_all : all.Pairwise fun a b => a.rank < b.rank := by decide

end SkipReason

section
variable {α β : Type} {P : SkipReason → Prop} {rs rs' : List SkipReason}

/-- A check that answers has found that none of the reasons apply; one that fails names one that
does, and none before it. -/
def Decides (P : SkipReason → Prop) (rs : List SkipReason) : Except Skip α → Prop
  | .ok _ => ∀ r ∈ rs, ¬P r
  | .error e => ∃ before after, rs = before ++ e.reason :: after ∧ P e.reason ∧ ∀ r ∈ before, ¬P r

theorem Decides.bind {x : Except Skip α} {f : α → Except Skip β} (hx : Decides P rs x)
    (hf : ∀ a, x = .ok a → Decides P rs' (f a)) : Decides P (rs ++ rs') (x.bind f) := by
  cases x with
  | error e =>
    obtain ⟨before, after, hrs, hP, hbefore⟩ := hx
    exact ⟨before, after ++ rs', by rw [hrs, List.append_assoc]; rfl, hP, hbefore⟩
  | ok a =>
    have hfa := hf a rfl
    show Decides P (rs ++ rs') (f a)
    cases hr : f a with
    | ok b =>
      rw [hr] at hfa
      intro r hmem
      rcases List.mem_append.1 hmem with h | h
      · exact hx r h
      · exact hfa r h
    | error e =>
      rw [hr] at hfa
      obtain ⟨before, after, hrs, hP, hbefore⟩ := hfa
      refine ⟨rs ++ before, after, by rw [hrs, List.append_assoc], hP, fun r hmem => ?_⟩
      rcases List.mem_append.1 hmem with h | h
      · exact hx r h
      · exact hbefore r h

theorem Decides.ok_iff {x : Except Skip α} (h : Decides P SkipReason.all x) :
    (∃ a, x = .ok a) ↔ ∀ r, ¬P r := by
  cases x with
  | ok a => exact ⟨fun _ r => h r r.mem_all, fun _ => ⟨a, rfl⟩⟩
  | error e =>
    obtain ⟨_, _, _, hP, _⟩ := h
    exact ⟨nofun, fun hno => absurd hP (hno e.reason)⟩

theorem Decides.error_iff {x : Except Skip α} (h : Decides P SkipReason.all x) {r : SkipReason} :
    (∃ e, x = .error e ∧ e.reason = r) ↔ P r ∧ ∀ r', P r' → r.rank ≤ r'.rank := by
  cases x with
  | ok a => exact ⟨nofun, fun ⟨hP, _⟩ => absurd hP (h r r.mem_all)⟩
  | error e =>
    obtain ⟨before, after, hall, hP, hbefore⟩ := h
    have hfirst : ∀ r', P r' → e.reason.rank ≤ r'.rank := by
      intro r' hr'
      have hmem : r' ∈ before ++ e.reason :: after := hall ▸ r'.mem_all
      have hranks := SkipReason.pairwise_all
      rw [hall, List.pairwise_append, List.pairwise_cons] at hranks
      rcases List.mem_append.1 hmem with hmem | hmem
      · exact absurd hr' (hbefore r' hmem)
      · rcases List.mem_cons.1 hmem with rfl | hmem
        · exact Nat.le_refl _
        · exact Nat.le_of_lt (hranks.2.1.1 r' hmem)
    constructor
    · rintro ⟨_, ⟨⟩, rfl⟩
      exact ⟨hP, hfirst⟩
    · intro ⟨hr, hmin⟩
      refine ⟨e, rfl, SkipReason.rank_injective ?_⟩
      exact Nat.le_antisymm (hfirst r hr) (hmin e.reason hP)

theorem Decides.answer {x : Except Skip α} (h : Decides P rs x) (g : α → β) :
    Decides P rs (x.bind fun a => .ok (g a)) := by
  cases x with
  | ok a => exact h
  | error e => exact h

/-- A check with one reason fails when there is a cause for it. -/
def Stops (r : SkipReason) (cause : Prop) : Except Skip α → Prop
  | .ok _ => ¬cause
  | .error e => e.reason = r ∧ cause

variable {r : SkipReason} {cause cause' : Prop}

theorem Stops.congr {x : Except Skip α} (h : Stops r cause x) (hc : cause ↔ cause') :
    Stops r cause' x := by
  rwa [← propext hc]

theorem Stops.bind {x : Except Skip α} {f : α → Except Skip β} (hx : Stops r cause x)
    (hf : ∀ a, x = .ok a → Stops r cause' (f a)) : Stops r (cause ∨ cause') (x.bind f) := by
  cases x with
  | error e => exact ⟨hx.1, .inl hx.2⟩
  | ok a => exact (hf a rfl).congr (or_iff_right hx).symm

theorem Stops.decides {x : Except Skip α} (h : Stops r (P r) x) : Decides P [r] x := by
  cases x with
  | ok a =>
    intro r' hr'
    rw [List.mem_singleton.1 hr']
    exact h
  | error e =>
    obtain ⟨rfl, hP⟩ := h
    exact ⟨[], [], rfl, hP, nofun⟩

theorem Stops.followed {x : Except Skip α} {f : α → Except Skip β} (h : Stops r (P r) x)
    (hf : ∀ a, x = .ok a → Decides P rs (f a)) : Decides P (r :: rs) (x.bind f) :=
  h.decides.bind hf

theorem Stops.answer {x : Except Skip α} (h : Stops r cause x) (g : α → β) :
    Stops r cause (x.bind fun a => .ok (g a)) := by
  cases x with
  | ok a => exact h
  | error e => exact h

end

/-! ## the single checks -/

theorem Component.mem_of_find?_isOwned {α δ : Type} {xs : List α} {f : α → Component δ} {a : α}
    (h : (xs.find? fun a => (f a).isOwned) = some a) : a ∈ xs ∧ (f a).owner ≠ "" := by
  have howned : (f a).isOwned = true := List.find?_some (p := fun a => (f a).isOwned) h
  exact ⟨List.mem_of_find?_eq_some h, Component.isOwned_iff.1 howned⟩

theorem Table.lost_ne_nil_iff {δ : Type} {t : Table (Component.key (δ := δ))} {scope : Scope}
    {names : List String} :
    t.lost scope names ≠ [] ↔ ∃ n ∈ names, t.named? scope n = none := by
  unfold lost
  rw [Ne, List.filter_eq_nil_iff]
  constructor
  · intro h
    by_contra hno
    exact h fun n hn hlost => hno ⟨n, hn, Option.isNone_iff_eq_none.1 hlost⟩
  · intro ⟨n, hn, hnone⟩ h
    exact h n hn (Option.isNone_iff_eq_none.2 hnone)

namespace Store

variable {s : Store} {scope : Scope}

theorem stops_groupSinks (s : Store) (scope : Scope) (g : SinkGroup) :
    Stops .missingComponent (∃ n ∈ g.names, (s.sinks.get g.kind).named? scope n = none)
      (s.groupSinks scope g) := by
  unfold groupSinks
  simp only
  by_cases h : (s.sinks.get g.kind).lost scope g.names = []
  · rw [if_pos h]
    exact fun hnone => Table.lost_ne_nil_iff.2 hnone h
  · rw [if_neg h]
    exact ⟨rfl, Table.lost_ne_nil_iff.1 h⟩

theorem stops_allSinks (s : Store) (scope : Scope) (gs : List SinkGroup) :
    Stops .missingComponent
      (∃ g ∈ gs, ∃ n ∈ g.names, (s.sinks.get g.kind).named? scope n = none)
      (s.allSinks scope gs) := by
  induction gs with
  | nil =>
    rintro ⟨_, h, _⟩
    cases h
  | cons g gs ih =>
    rw [allSinks]
    refine ((stops_groupSinks s scope g).bind fun ss _ => ih.answer (ss ++ ·)).congr ?_
    rw [List.exists_mem_cons_iff]

theorem stops_unownedSinks (ss : List ListedSink) :
    Stops .componentConflict (∃ x ∈ ss, x.row.val.owner ≠ "") (Query.unownedSinks ss) := by
  unfold Query.unownedSinks
  cases hf : ss.find? fun x => x.row.val.isOwned with
  | none =>
    rw [Component.find?_isOwned_eq_none_iff] at hf
    exact fun ⟨x, hx, howner⟩ => howner (hf x hx)
  | some x =>
    exact ⟨rfl, x, Component.mem_of_find?_isOwned (f := fun x : ListedSink => x.row.val) hf⟩

theorem stops_tableNames (seen : List String) (ss : List ListedSink) :
    Stops .emptyTableReference (∃ x ∈ ss, x.row.val.detail = some "") (tableNames seen ss) := by
  induction ss generalizing seen with
  | nil =>
    rintro ⟨_, h, _⟩
    cases h
  | cons x ss ih =>
    rw [tableNames]
    have hskip : x.row.val.detail ≠ some "" → ((∃ y ∈ ss, y.row.val.detail = some "") ↔
        ∃ y ∈ x :: ss, y.row.val.detail = some "") := by
      intro hx
      rw [List.exists_mem_cons_iff, or_iff_right hx]
    cases hd : x.row.val.detail with
    | none =>
      have hx : x.row.val.detail ≠ some "" := by
        rw [hd]
        exact (Option.some_ne_none "").symm
      exact (ih seen).congr (hskip hx)
    | some t =>
      simp only
      by_cases ht : t = ""
      · rw [if_pos ht]
        exact ⟨rfl, x, List.mem_cons_self, by rw [hd, ht]⟩
      · have hx : x.row.val.detail ≠ some "" := by
          rw [hd]
          exact fun h => ht (Option.some.inj h)
        rw [if_neg ht]
        split
        · exact (ih seen).congr (hskip hx)
        · exact (ih (seen ++ [t])).congr (hskip hx)

variable {P : SkipReason → Prop}

/-- the result tables are looked up before it is asked whether one of them is owned -/
theorem decides_ownableTables {names : List String}
    (hmissing : P .missingResultTable ↔ ∃ n ∈ names, s.resultTables.named? scope n = none)
    (hconflict : P .resultTableConflict ↔
      ∃ t ∈ s.resultTables.found scope names, t.val.owner ≠ "") :
    Decides P [.missingResultTable, .resultTableConflict] (s.ownableTables scope names) := by
  unfold ownableTables
  by_cases h : s.resultTables.lost scope names = []
  · have hno : ¬P .missingResultTable := by
      rw [hmissing, ← Table.lost_ne_nil_iff]
      exact fun hne => hne h
    rw [if_pos h]
    cases hf : (s.resultTables.found scope names).find? fun t => t.val.isOwned with
    | none =>
      rw [Component.find?_isOwned_eq_none_iff] at hf
      refine List.forall_mem_cons.2 ⟨hno, List.forall_mem_singleton.2 ?_⟩
      rw [hconflict]
      exact fun ⟨t, ht, howner⟩ => howner (hf t ht)
    | some t =>
      refine ⟨[.missingResultTable], [], rfl, ?_, List.forall_mem_singleton.2 hno⟩
      exact hconflict.2 ⟨t, Component.mem_of_find?_isOwned (f := Row.val) hf⟩
  · rw [if_neg h]
    exact ⟨[], _, rfl, hmissing.2 (Table.lost_ne_nil_iff.1 h), nofun⟩

theorem ofEtlConfig?_eq_none_iff {label : String} :
    Strategy.ofEtlConfig? label = none ↔ ∀ l ∈ Strategy.labels, label ≠ l.1 := by
  unfold Strategy.ofEtlConfig?
  rw [List.lookup_eq_none_iff]
  refine forall₂_congr fun l _ => ?_
  rw [bne_iff_ne]

/-- the data source is asked for a strategy when the kinds of the sinks do not give it -/
theorem decides_strategyOf {b : Bus} {gs : List SinkGroup}
    (hmissing : P .missingDataSource ↔ ¬(hasKind gs .elastic = true ∧ hasKind gs .doris = true) ∧
      s.sources.find? (fun a => a.id = b.detail.dataId) = none)
    (hunmapped : P .unmappedEtlConfig ↔ ¬(hasKind gs .elastic = true ∧ hasKind gs .doris = true) ∧
      ∃ a, s.sources.find? (fun a => a.id = b.detail.dataId) = some a ∧
        Strategy.ofEtlConfig? a.etlConfig = none) :
    Decides P [.missingDataSource, .unmappedEtlConfig] (s.strategyOf b gs) := by
  unfold strategyOf
  rw [← Bool.and_eq_true] at hmissing hunmapped
  by_cases h : (hasKind gs .elastic && hasKind gs .doris) = true
  · rw [if_pos h]
    refine List.forall_mem_cons.2 ⟨?_, List.forall_mem_singleton.2 ?_⟩
    · rw [hmissing]
      exact fun hm => hm.1 h
    · rw [hunmapped]
      exact fun hu => hu.1 h
  · rw [if_neg h]
    unfold sourceStrategy
    cases hf : s.sources.find? fun a => a.id = b.detail.dataId with
    | none => exact ⟨[], _, rfl, hmissing.2 ⟨h, hf⟩, nofun⟩
    | some a =>
      have hno : ¬P .missingDataSource := by
        rw [hmissing, hf]
        exact nofun
      simp only
      cases he : Strategy.ofEtlConfig? a.etlConfig with
      | none =>
        refine ⟨[.missingDataSource], [], rfl, ?_, List.forall_mem_singleton.2 hno⟩
        exact hunmapped.2 ⟨h, a, hf, he⟩
      | some t =>
        refine List.forall_mem_cons.2 ⟨hno, List.forall_mem_singleton.2 ?_⟩
        rw [hunmapped, hf]
        intro ⟨_, a', ha, hnone⟩
        cases ha
        rw [he] at hnone
        cases hnone

end Store

end Linkage
