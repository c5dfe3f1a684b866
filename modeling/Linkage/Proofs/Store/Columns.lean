import Linkage.Proofs.Json.Values
import Linkage.Proofs.Store.History
import Linkage.Proofs.Store.Insertion

/-!
# Columns that hold JSON

A list of texts, and a value, are written into a column and read when they are asked for.

* `Json.cluster?`         the cluster that an item of a list of dimensions names;
* `Resource.clusterIds_valueColumn`   the clusters that a written value names;
* `Query.Stores`          a query that adds a row;
* `columns_read_back`     what is read of the rows of data-buses, links and resources.
-/

namespace Linkage

/-- The cluster that an item of a list of dimensions names: the text of the member `cluster_id` of an
object, unless it is empty. -/
def Json.cluster? : Json → Option String
  | .obj es => match last? "cluster_id" es with
    | some (.str s) => if s = "" then none else some s
    | _ => none
  | _ => none

namespace Resource

theorem clusterId?_eq (v : Json) : clusterId? v = v.cluster? := by
  cases v with
  | obj es =>
    unfold clusterId? Json.cluster? Json.member?
    simp only
    cases Json.last? "cluster_id" es with
    | none => rfl
    | some w =>
      cases w with
      | str s =>
        simp only [Option.bind_some, Json.text?, Option.filter_some]
        by_cases h : s = ""
        · simp [h]
        · simp [h]
      | _ => rfl
  | _ => rfl

theorem clusterId?_outline (v : Json) : clusterId? v.outline = clusterId? v := by
  unfold clusterId?
  rw [Json.member?_outline]
  cases v.member? "cluster_id" with
  | none => rfl
  | some w => rw [Option.map_some, Option.bind_some, Option.bind_some, Json.text?_outline]

theorem clusterId?_canonical (v : Json) : clusterId? v.canonical = clusterId? v := by
  unfold clusterId?
  rw [Json.member?_canonical]
  cases v.member? "cluster_id" with
  | none => rfl
  | some w => rw [Option.map_some, Option.bind_some, Option.bind_some, Json.text?_canonical]

/-- the clusters that are read of a written value are those that it names -/
theorem clusterIds_valueColumn {r : Resource} {v : Json} (hr : r.dimensions = valueColumn v)
    (hdepth : v.depth ≤ Json.depthLimit) (hheld : v.Held) :
    r.clusterIds = match v.array? with
      | some xs => .ok (xs.filterMap Json.cluster?)
      | none => .error (.store (.corrupted "space_resources" "not a JSON array")) := by
  obtain ⟨hdeep, hnumbers⟩ := Json.within_canonical hdepth hheld
  obtain ⟨w, hread, hw⟩ := Json.parse?_compact hdeep hnumbers
  have harray : w.array?.map (List.map Json.outline)
      = (v.array?.map (List.map Json.canonical)).map (List.map Json.outline) := by
    rw [← Json.array?_outline, hw, Json.array?_outline, Json.array?_canonical]
  have hread : Json.parse? r.dimensions = some w := by
    rw [hr]
    exact hread
  unfold clusterIds
  rw [hread, Option.bind_some]
  cases hv : v.array? with
  | none =>
    rw [hv, Option.map_none, Option.map_none, Option.map_eq_none_iff] at harray
    rw [harray]
  | some xs =>
    rw [hv] at harray
    obtain ⟨ys, hys, hmap⟩ := Option.map_eq_some_iff.1 harray
    have hitems : ys.filterMap clusterId? = xs.filterMap Json.cluster? := by
      calc ys.filterMap clusterId? = (ys.map Json.outline).filterMap clusterId? := by
            rw [List.filterMap_map]
            exact congrArg (ys.filterMap ·) (funext fun y => (clusterId?_outline y).symm)
        _ = ((xs.map Json.canonical).map Json.outline).filterMap clusterId? := by rw [hmap]
        _ = xs.filterMap Json.cluster? := by
            rw [List.filterMap_map, List.filterMap_map]
            refine congrArg (xs.filterMap ·) (funext fun x => ?_)
            rw [Function.comp, Function.comp, clusterId?_outline, clusterId?_canonical, clusterId?_eq]
    rw [hys]
    exact congrArg Except.ok hitems

end Resource

/-- A query that adds a row: the answer is the id of a row with a value of some kind, and there is an
answer where no statement fails, if the store allows the row. -/
structure Query.Stores {α : Type} (q : Query Int) (rows : Store → List (Row α))
    (allowed : Store → Prop) (kind : α → Prop) : Prop where
  stored : ∀ db i, (q db).1 = .ok i → ∃ a, ⟨i, a⟩ ∈ rows (q db).2.store ∧ kind a
  total : ∀ db, db.Reliable → allowed db.store → ∃ i, (q db).1 = .ok i

theorem Query.stores_insertRow {α κ : Type} [DecidableEq κ] {key : α → Option κ}
    {touches : List (TableName × RowEvent)} {get : Store → Table key}
    {set : Store → Table key → Store} {a : α} {allowed : Store → Prop} {kind : α → Prop}
    (hset : ∀ s t, get (set s t) = t) (hallowed : ∀ s, allowed s → (get s).insert? a ≠ none)
    (hkind : kind a) : (insertRow touches get set a).Stores (fun s => (get s).rows) allowed kind where
  stored db i h := by
    obtain ⟨t, hinsert, hstore⟩ := insertRow_ok h
    refine ⟨a, ?_, hkind⟩
    rw [hstore, hset, (Table.rows_insert? hinsert).1]
    exact List.mem_append_right _ List.mem_cons_self
  total db hdb h := insertRow_reliable hdb (hallowed db.store h)

/-- a data-bus can be added under a name that none has in its scope -/
theorem Table.insert?_unowned_ne_none {δ : Type} {t : Table (Component.key (δ := δ))} {scope : Scope}
    {name : String} {detail : δ}
    (h : ∀ r ∈ t.rows, ¬(r.val.scope = scope ∧ r.val.name = name)) :
    t.insert? (Query.unowned scope name detail) ≠ none := by
  intro hnone
  obtain ⟨r, hr, -, hkey⟩ := insert?_eq_none_iff.1 hnone
  exact h r hr (Prod.mk.inj (Option.some.inj hkey))

/-- What columns with JSON give back: the entries of a data-bus that was added, and the table ids of a
link that was written, are those that were given, in their order; of a resource that was added with a
value that is not too deep, the clusters are those that the items of an array name, in their order, and
the row is corrupted if the value is no array. -/
theorem columns_read_back :
    (∀ scope name id entries, (Query.insertBus scope name id (listColumn entries)).Stores
      (fun s => s.buses.rows)
      (fun s => ∀ b ∈ s.buses.rows, ¬(b.val.scope = scope ∧ b.val.name = name))
      fun b => b.scope = scope ∧ b.name = name ∧ b.detail.dataId = id ∧
        b.sinkEntries = .ok entries) ∧
    (∀ (w : LinkWriting) (now : Int) (db : Db),
      (∀ a, (w.query now db).1 = .ok a → a.row ∈ (w.query now db).2.store.links.rows ∧
        w.draft.IsOf a.row ∧ a.row.val.readTableIds = .ok w.draft.tableIds) ∧
      (db.Reliable → ∃ a, (w.query now db).1 = .ok a)) ∧
    ∀ (v : Json), v.depth ≤ 127 → v.Held → ∀ spaceType spaceId type target,
      (Query.insertResource ⟨spaceType, spaceId, type, target, valueColumn v⟩).Stores
        (fun s => s.resources.rows) (fun _ => True)
        fun r => r.spaceType = spaceType ∧ r.spaceId = spaceId ∧ r.type = type ∧
          r.target = target ∧
          (∀ xs, v = .arr xs → r.clusterIds = .ok (xs.filterMap Json.cluster?)) ∧
          ((∀ xs, v ≠ .arr xs) → ∃ message,
            r.clusterIds = .error (.store (.corrupted "space_resources" message))) := by
  refine ⟨fun scope name id entries => ?_, fun w now db => ⟨fun a ha => ?_, w.total_query now⟩,
    fun v hdepth hheld spaceType spaceId type target => ?_⟩
  · exact Query.stores_insertRow (fun _ _ => rfl) (fun _ => Table.insert?_unowned_ne_none)
      ⟨rfl, rfl, rfl, readListColumn_listColumn _ _⟩
  · have hwrote := w.wrote_query now ha
    refine ⟨(hwrote.rows a.row).2 (.inl rfl), ?_, hwrote.tableIds⟩
    unfold LinkDraft.IsOf
    rw [hwrote.row]
    exact ⟨rfl, rfl⟩
  · refine Query.stores_insertRow (fun _ _ => rfl) (fun s _ hnone => ?_) ⟨rfl, rfl, rfl, rfl, ?_, ?_⟩
    · obtain ⟨r, -, hkey, -⟩ := Table.insert?_eq_none_iff.1 hnone
      exact hkey rfl
    · rintro xs rfl
      exact Resource.clusterIds_valueColumn rfl hdepth hheld
    · intro hno
      refine ⟨"not a JSON array", ?_⟩
      rw [Resource.clusterIds_valueColumn rfl hdepth hheld]
      cases v with
      | arr xs => exact absurd rfl (hno xs)
      | _ => rfl

/-- Dimensions of every kind: two that name a cluster, others that do not. -/
def mixedDimensions : Json :=
  .arr [.obj [("cluster_id", .str "BCS-\"1\\")], .obj [("cluster_id", .str "")], .null,
    .obj [("name", .arr [.obj [("cluster_id", .str "BCS-inner")], .bool true, .num (.int (-7))]),
      ("load", .num (.decimal ⟨false, 15, -1, by decide,
        Magnitude.isSome_ofParts?_of_neg (by decide) (by decide)⟩)),
      ("cluster_id", .str "BCS:2")],
    .str "cluster_id", .obj [("cluster_id", .num (.int 3))]]

theorem columns_read_back_mixed : mixedDimensions.depth ≤ 127 ∧ mixedDimensions.Held ∧
    ∃ r ∈ (Query.insertResource ⟨"bkci", "p", "bcs", none, valueColumn mixedDimensions⟩
        (.of .empty)).2.store.resources.rows,
      r.val.clusterIds = .ok ["BCS-\"1\\", "BCS:2"] := by
  have hdepth : mixedDimensions.depth ≤ 127 := by decide
  have hheld : mixedDimensions.Held := by
    simp [mixedDimensions, Json.Held, Json.HeldItems, Json.HeldMembers, Number.Held,
      Text.Decimal.int64Min, Text.Decimal.uint64Max]
  obtain ⟨-, -, hresource⟩ := columns_read_back
  have hstores := hresource mixedDimensions hdepth hheld "bkci" "p" "bcs" none
  obtain ⟨i, hi⟩ := hstores.total (.of .empty) (Db.reliable_of _) trivial
  obtain ⟨r, hr, -, -, -, -, hclusters, -⟩ := hstores.stored (.of .empty) i hi
  exact ⟨hdepth, hheld, _, hr, hclusters _ rfl⟩

end Linkage
