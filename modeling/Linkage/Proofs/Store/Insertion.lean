import Linkage.Proofs.Query.Bulk
import Linkage.Proofs.Store.Named

/-!
# Components that are added

* `Table.Grows`, `Store.Grows`   nothing is taken away or changed, and what is new has a name that
                                 was free, and no owner;
* `grows_insertBus` and its siblings   a query that adds something makes the store grow, or fails and
                                 changes nothing.
-/

namespace Linkage

namespace Query

/-- a write does what it says, or fails and changes nothing -/
theorem write_cases {α : Type} (touches : Store → List (TableName × RowEvent))
    (f : Store → Except Error (α × Store)) (db : Db) :
    (write touches f db).2.store = db.store ∨
      ∃ a, f db.store = .ok (a, (write touches f db).2.store) := by
  cases h : (write touches f db).1 with
  | error e => exact .inl (atomic_statement _ db e h)
  | ok a => exact .inr ⟨a, write_ok h⟩

theorem insertRow_cases {α κ : Type} [DecidableEq κ] {key : α → Option κ}
    (touches : List (TableName × RowEvent)) (get : Store → Table key)
    (set : Store → Table key → Store) (a : α) (db : Db) :
    (insertRow touches get set a db).2.store = db.store ∨
      ∃ t id, (get db.store).insert? a = some (t, id) ∧
        (insertRow touches get set a db).2.store = set db.store t := by
  refine (write_cases (fun _ => touches) _ db).imp_right ?_
  rintro ⟨_, h⟩
  split at h
  · rename_i t id hi
    exact ⟨t, id, hi, (congrArg Prod.snd (Except.ok.inj h)).symm⟩
  · cases h

section
variable {α κ : Type} [DecidableEq κ] {key : α → Option κ} {touches : List (TableName × RowEvent)}
  {get : Store → Table key} {set : Store → Table key → Store} {a : α} {db : Db} {i : Int}

/-- an insertion that answers has added its row -/
theorem insertRow_ok (h : (insertRow touches get set a db).1 = .ok i) :
    ∃ t, (get db.store).insert? a = some (t, i) ∧
      (insertRow touches get set a db).2.store = set db.store t := by
  have hwrite := write_ok h
  split at hwrite
  · rename_i t id hinsert
    obtain ⟨rfl, hstore⟩ := Prod.mk.inj (Except.ok.inj hwrite)
    exact ⟨t, hinsert, hstore.symm⟩
  · cases hwrite

theorem insertRow_reliable (hdb : db.Reliable) (h : (get db.store).insert? a ≠ none) :
    ∃ i, (insertRow touches get set a db).1 = .ok i := by
  obtain ⟨⟨t, i⟩, hinsert⟩ := Option.ne_none_iff_exists'.1 h
  refine ⟨i, write_reliable hdb (s := set db.store t) ?_⟩
  rw [hinsert]

end

theorem insertSource_cases (a : DataSource) (db : Db) :
    (insertSource a db).2.store = db.store ∨
      (insertSource a db).2.store = { db.store with sources := db.store.sources ++ [a] } := by
  refine (write_cases (fun _ => []) _ db).imp_right ?_
  rintro ⟨_, h⟩
  split at h
  · cases h
  · exact (congrArg Prod.snd (Except.ok.inj h)).symm

end Query

namespace Table

section
variable {δ : Type} {t u : Table (Component.key (δ := δ))}

/-- The table with more components, which no link owns. -/
structure Grows (t u : Table (Component.key (δ := δ))) : Prop where
  mem : ∀ x ∈ t.rows, x ∈ u.rows
  fresh : ∀ x ∈ u.rows, x ∈ t.rows ∨
    x.val.owner = "" ∧ t.named? x.val.scope x.val.name = none

theorem Grows.refl (t : Table (Component.key (δ := δ))) : t.Grows t :=
  ⟨fun _ h => h, fun _ h => .inl h⟩

theorem grows_insert? {scope : Scope} {name : String} {detail : δ} {id : Int}
    (h : t.insert? (Query.unowned scope name detail) = some (u, id)) : t.Grows u := by
  have hrows := (rows_insert? h).1
  refine ⟨fun x hx => ?_, fun x hx => ?_⟩
  · rw [hrows]
    exact List.mem_append_left _ hx
  · rw [hrows] at hx
    rcases List.mem_append.1 hx with hx | hx
    · exact .inl hx
    · rw [List.mem_singleton.1 hx]
      refine .inr ⟨rfl, named?_eq_none_iff.2 fun r hr hs hn => ?_⟩
      have hnone : t.insert? (Query.unowned scope name detail) = none := by
        refine insert?_eq_none_iff.2 ⟨r, hr, ?_, ?_⟩
        · rw [Component.key]
          exact Option.some_ne_none _
        · rw [Component.key, hs, hn]
          rfl
      rw [hnone] at h
      cases h

/-- a row that a link owns was there -/
theorem Grows.mem_iff (h : t.Grows u) {x : Row (Component δ)} (ho : x.val.owner ≠ "") :
    x ∈ u.rows ↔ x ∈ t.rows := by
  refine ⟨fun hx => ?_, h.mem x⟩
  rcases h.fresh x hx with hx | ⟨hx, _⟩
  · exact hx
  · exact absurd hx ho

theorem Grows.named? (h : t.Grows u) {scope : Scope} {name : String} {x : Row (Component δ)}
    (hx : t.named? scope name = some x) : u.named? scope name = some x := by
  obtain ⟨hm, hn⟩ := named?_eq_some_iff.1 hx
  exact named?_eq_some_iff.2 ⟨h.mem x hm, hn⟩

end

end Table

/-- The store with more components, which no link owns; of the new sinks, those of the storage kinds
refer to a result table. -/
structure Store.Grows (s u : Store) : Prop where
  buses : s.buses.Grows u.buses
  sinks : ∀ k, (s.sinks.get k).Grows (u.sinks.get k)
  resultTables : s.resultTables.Grows u.resultTables
  links : u.links = s.links
  storage : ∀ k, ∀ x ∈ (u.sinks.get k).rows, x ∈ (s.sinks.get k).rows ∨
    x.val.detail.isSome = k.isStorage

theorem Store.Grows.refl (s : Store) : s.Grows s :=
  ⟨.refl _, fun _ => .refl _, .refl _, rfl, fun _ _ h => .inl h⟩

namespace Query

theorem grows_insertSource (a : DataSource) (db : Db) :
    db.store.Grows (insertSource a db).2.store := by
  rcases insertSource_cases a db with h | h
  · rw [h]
    exact .refl _
  · rw [h]
    exact ⟨.refl _, fun _ => .refl _, .refl _, rfl, fun _ _ h => .inl h⟩

theorem grows_insertBus (scope : Scope) (name : String) (dataId : DataId) (sinkList : String)
    (db : Db) : db.store.Grows (insertBus scope name dataId sinkList db).2.store := by
  rcases insertRow_cases [(.buses, .insert)] Store.buses setBuses
    (unowned scope name ⟨dataId, sinkList⟩) db with h | ⟨t, id, hi, h⟩
  · rw [insertBus, h]
    exact .refl _
  · rw [insertBus, h]
    exact ⟨Table.grows_insert? hi, fun _ => .refl _, .refl _, rfl, fun _ _ h => .inl h⟩

theorem grows_insertSink (k : SinkKind) (scope : Scope) (name table : String) (db : Db) :
    db.store.Grows (insertSink k scope name table db).2.store := by
  rcases insertRow_cases [(.sinks k, .insert)] (getSinks k) (setSinks k)
    (unowned scope name (if k.isStorage then some table else none)) db with h | ⟨t, id, hi, h⟩
  · rw [insertSink, h]
    exact .refl _
  · rw [insertSink, h]
    have hget : ∀ j, (setSinks k db.store t).sinks.get j
        = if j = k then t else db.store.sinks.get j := fun j => SinkTables.get_set _ _ _ _
    refine ⟨.refl _, fun j => ?_, .refl _, rfl, fun j x hx => ?_⟩
    · rw [hget]
      split
      · rename_i hj
        subst hj
        exact Table.grows_insert? hi
      · exact .refl _
    · rw [hget] at hx
      split at hx
      · rename_i hj
        subst hj
        rw [(Table.rows_insert? hi).1] at hx
        refine (List.mem_append.1 hx).imp_right fun hx => ?_
        rw [List.mem_singleton.1 hx, unowned]
        cases j.isStorage <;> rfl
      · exact .inl hx

theorem grows_insertResultTable (scope : Scope) (name tableId : String) (db : Db) :
    db.store.Grows (insertResultTable scope name tableId db).2.store := by
  rcases insertRow_cases [(.resultTables, .insert)] Store.resultTables setResultTables
    (unowned scope name tableId) db with h | ⟨t, id, hi, h⟩
  · rw [insertResultTable, h]
    exact .refl _
  · rw [insertResultTable, h]
    exact ⟨.refl _, fun _ => .refl _, Table.grows_insert? hi, rfl, fun _ _ h => .inl h⟩

end Query
end Linkage
