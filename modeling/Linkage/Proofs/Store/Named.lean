import Linkage.Proofs.Query.Bulk
import Linkage.Rebuild.Resolve

/-!
# Components by their names

A name belongs to one component of a scope, so rows that are read batch by batch can be looked up in
the table itself:

* `Table.named?`               the component of a name;
* `Table.found`, `Table.lost`  the components of a list of names, and the names without one;
* `rowOf?_readByName`          a row among those that were read is the row of the table.
-/

namespace Linkage

namespace Component

variable {δ : Type}

theorem isOwned_iff {c : Component δ} : c.isOwned = true ↔ c.owner ≠ "" := by
  unfold isOwned
  rw [decide_eq_true_iff]

theorem find?_isOwned_eq_none_iff {α : Type} {xs : List α} {f : α → Component δ} :
    (xs.find? fun a => (f a).isOwned) = none ↔ ∀ a ∈ xs, (f a).owner = "" := by
  rw [List.find?_eq_none]
  refine forall₂_congr fun a _ => ?_
  rw [isOwned_iff, Ne, Decidable.not_not]

theorem own_self (c : Component δ) : c.own c.owner = c := rfl

end Component

namespace Table

section
variable {δ : Type}

/-- The component of a name. -/
def named? (t : Table (Component.key (δ := δ))) (scope : Scope) (name : String) :
    Option (Row (Component δ)) := t.find? (Query.isNamed scope name)

/-- The components of the names that have one, in the order of the names. -/
def found (t : Table (Component.key (δ := δ))) (scope : Scope) (names : List String) :
    List (Row (Component δ)) := names.filterMap (t.named? scope)

/-- The names that have no component. -/
def lost (t : Table (Component.key (δ := δ))) (scope : Scope) (names : List String) :
    List String := names.filter fun n => (t.named? scope n).isNone

variable {t : Table (Component.key (δ := δ))} {scope : Scope} {name : String}
  {a b r : Row (Component δ)} {names : List String}

theorem eq_of_name (ha : a ∈ t.rows) (hb : b ∈ t.rows) (hs : a.val.scope = b.val.scope)
    (hn : a.val.name = b.val.name) : a = b :=
  t.eq_of_key ha hb rfl (by rw [Component.key, hs, hn])

theorem isNamed_iff : Query.isNamed scope name r = true ↔ r.val.scope = scope ∧ r.val.name = name := by
  unfold Query.isNamed
  rw [decide_eq_true_iff]

theorem named?_eq_some_iff : t.named? scope name = some r ↔
    r ∈ t.rows ∧ r.val.scope = scope ∧ r.val.name = name := by
  constructor
  · intro h
    obtain ⟨hr, hp⟩ := of_find? h
    exact ⟨hr, isNamed_iff.1 hp⟩
  · rintro ⟨hr, hn⟩
    cases h : t.named? scope name with
    | none => exact absurd (isNamed_iff.2 hn) (find?_eq_none_iff.1 h r hr)
    | some a =>
      obtain ⟨ha, hp⟩ := of_find? h
      obtain ⟨hs', hn'⟩ := isNamed_iff.1 hp
      rw [eq_of_name ha hr (hs'.trans hn.1.symm) (hn'.trans hn.2.symm)]

theorem named?_eq_none_iff : t.named? scope name = none ↔
    ∀ r ∈ t.rows, r.val.scope = scope → r.val.name ≠ name := by
  unfold named?
  rw [find?_eq_none_iff]
  refine forall₂_congr fun r _ => ?_
  rw [isNamed_iff, not_and]

theorem named?_self (h : r ∈ t.rows) : t.named? r.val.scope r.val.name = some r :=
  named?_eq_some_iff.2 ⟨h, rfl, rfl⟩

theorem mem_found_iff : r ∈ t.found scope names ↔
    r ∈ t.rows ∧ r.val.scope = scope ∧ r.val.name ∈ names := by
  unfold found
  rw [List.mem_filterMap]
  constructor
  · rintro ⟨n, hn, h⟩
    obtain ⟨hr, hs, rfl⟩ := named?_eq_some_iff.1 h
    exact ⟨hr, hs, hn⟩
  · rintro ⟨hr, hs, hn⟩
    exact ⟨r.val.name, hn, named?_eq_some_iff.2 ⟨hr, hs, rfl⟩⟩

theorem lost_eq_nil_iff : t.lost scope names = [] ↔
    ∀ n ∈ names, ∃ r, t.named? scope n = some r := by
  unfold lost
  rw [List.filter_eq_nil_iff]
  refine forall₂_congr fun n _ => ?_
  cases t.named? scope n <;> simp

end

end Table

section
variable {δ : Type} {t : Table (Component.key (δ := δ))} {scope : Scope} {names : List String}

/-- The rows of the names, read batch by batch. -/
def readByName (t : Table (Component.key (δ := δ))) (scope : Scope) (names : List String) :
    List (Row (Component δ)) :=
  (batches names).flatMap fun ns => t.select (Query.isAmong scope ns)

theorem readByName_nil (t : Table (Component.key (δ := δ))) (scope : Scope) :
    readByName t scope [] = [] := by
  unfold readByName
  rw [batches, if_pos rfl, List.flatMap_nil]

theorem isAmong_iff {ns : List String} {r : Row (Component δ)} :
    Query.isAmong scope ns r = true ↔ r.val.scope = scope ∧ r.val.name ∈ ns := by
  unfold Query.isAmong
  rw [decide_eq_true_iff, List.contains_iff_mem]

theorem mem_readByName {r : Row (Component δ)} : r ∈ readByName t scope names ↔
    r ∈ t.rows ∧ r.val.scope = scope ∧ r.val.name ∈ names := by
  unfold readByName Table.select
  rw [List.mem_flatMap]
  constructor
  · rintro ⟨ns, hns, h⟩
    obtain ⟨hr, hp⟩ := List.mem_filter.1 h
    obtain ⟨hs, hn⟩ := isAmong_iff.1 hp
    refine ⟨hr, hs, ?_⟩
    rw [← flatten_batches names]
    exact List.mem_flatten.2 ⟨ns, hns, hn⟩
  · rintro ⟨hr, hs, hn⟩
    rw [← flatten_batches names] at hn
    obtain ⟨ns, hns, hn⟩ := List.mem_flatten.1 hn
    exact ⟨ns, hns, List.mem_filter.2 ⟨hr, isAmong_iff.2 ⟨hs, hn⟩⟩⟩

/-- a row among those read is the row of the table -/
theorem rowOf?_readByName {n : String} (hn : n ∈ names) :
    rowOf? (readByName t scope names) n = t.named? scope n := by
  cases h : rowOf? (readByName t scope names) n with
  | none =>
    refine (Table.named?_eq_none_iff.2 fun r hr hs he => ?_).symm
    have := List.find?_eq_none.1 h r (mem_readByName.2 ⟨hr, hs, he.symm ▸ hn⟩)
    exact this (decide_eq_true he)
  | some r =>
    obtain ⟨hr, hs, _⟩ := mem_readByName.1 (List.mem_of_find?_eq_some h)
    have he : r.val.name = n := by simpa using List.find?_some h
    exact (Table.named?_eq_some_iff.2 ⟨hr, hs, he⟩).symm

theorem missing_readByName : missing (readByName t scope names) names = t.lost scope names := by
  apply List.filter_congr
  intro n hn
  rw [rowOf?_readByName hn]

theorem filterMap_readByName :
    names.filterMap (rowOf? (readByName t scope names)) = t.found scope names := by
  apply List.filterMap_congr
  intro n hn
  exact rowOf?_readByName hn

end

namespace Query

/-- without names there is nothing to read -/
theorem Observes.unlessEmpty {δ : Type} {get : Store → Table (Component.key (δ := δ))}
    {scope : Scope} {names : List String} {q : Query (List (Row (Component δ)))}
    (h : Observes q fun s => readByName (get s) scope names) :
    Observes (Query.skipIf (decide (names = [])) [] (Query.transaction q))
      fun s => readByName (get s) scope names := by
  refine h.transaction.skipIf fun hn s => ?_
  rw [of_decide_eq_true hn, readByName_nil]

theorem Observes.sinks (k : SinkKind) (scope : Scope) (names : List String) :
    Observes (sinks k scope names) fun s => readByName (s.sinks.get k) scope names :=
  Observes.each (fun _ => Observes.read _) (batches names)

theorem Observes.resultTables (scope : Scope) (names : List String) :
    Observes (resultTables scope names) fun s => readByName s.resultTables scope names :=
  Observes.each (fun _ => Observes.read _) (batches names)

end Query
end Linkage
