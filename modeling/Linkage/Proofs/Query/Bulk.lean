import Linkage.Proofs.Query.Meaning
import Linkage.Proofs.Store.Table
import Linkage.Store.Links

/-!
# Statements over long lists

A list that is longer than a statement takes is worked off in batches.  The batches together mean
one statement over the whole list:

* `Observes.each`            rows read batch by batch are those of all batches;
* `Means.stampIds`           owners given batch by batch;
* `Means.refreshRelations`, `Means.deleteRelations`, `Means.insertRelations`   relations changed
  batch by batch;
* `sum_count_batches`        rows counted batch by batch, when no id is repeated.
-/

namespace Linkage.Query

section
variable {α β : Type}

theorem Observes.each {q : List α → Query (List β)} {f : List α → Store → List β}
    (h : ∀ xs, Observes (q xs) (f xs)) (parts : List (List α)) :
    Observes (each q parts) fun s => parts.flatMap fun xs => f xs s := by
  induction parts with
  | nil => exact Observes.pure []
  | cons xs rest ih =>
    rw [Query.each]
    exact ((h xs).bind fun ys => ih.bind fun zs => Observes.pure (ys ++ zs)).congr fun s => rfl

/-- What a counting query does to the store part by part, and the sum of its answers. -/
def totalOf (f : List α → Store → Nat × Store) : List (List α) → Store → Nat × Store
  | [], s => (0, s)
  | xs :: rest, s => ((f xs s).1 + (totalOf f rest (f xs s).2).1, (totalOf f rest (f xs s).2).2)

theorem Means.totalOf {q : List α → Query Nat} {f : List α → Store → Nat × Store}
    (h : ∀ xs, Means (q xs) (f xs)) (parts : List (List α)) :
    Means (Query.total q parts) (Query.totalOf f parts) := by
  induction parts with
  | nil => exact Means.pure 0
  | cons xs rest ih =>
    rw [Query.total]
    exact ((h xs).bind fun n => ih.bind fun m => Means.pure (n + m)).congr fun s => rfl

end

/-! ## a table of the store -/

section
variable {α κ : Type} {key : α → Option κ}

/-- What `get` reads and `set` replaces is one table of the store. -/
structure Access (get : Store → Table key) (set : Store → Table key → Store) : Prop where
  get_set : ∀ s t, get (set s t) = t
  set_set : ∀ s t u, set (set s t) u = set s u
  set_get : ∀ s, set s (get s) = s

variable {get : Store → Table key} {set : Store → Table key → Store}

/-- rows changed in parts are changed at once -/
theorem totalOf_modify (h : Access get set) {f : α → α} (hf : ∀ a, f (f a) = f a)
    (hk : ∀ a, key (f a) = key a) (parts : List (List Int)) (s : Store) :
    totalOf (fun ids s => ((get s).count (hasId ids), set s ((get s).modify (hasId ids) f hk)))
        parts s
      = ((parts.map fun ids => (get s).count (hasId ids)).sum,
          set s ((get s).modify (hasId parts.flatten) f hk)) := by
  induction parts generalizing s with
  | nil =>
    have : (get s).modify (hasId ([] : List Int)) f hk = get s :=
      Table.modify_of_none fun r _ => hasId_nil r
    rw [totalOf, List.map_nil, List.sum_nil, List.flatten_nil, this, h.set_get]
  | cons ids rest ih =>
    have hcount : ∀ js, ((get s).modify (hasId ids) f hk).count (hasId js)
        = (get s).count (hasId js) := fun js =>
      Table.count_modify fun r => Table.hasId_change js _ _ r
    have hmod : ((get s).modify (hasId ids) f hk).modify (hasId rest.flatten) f hk
        = (get s).modify (hasId (ids ++ rest.flatten)) f hk := by
      rw [Table.modify_modify hf fun r => Table.hasId_change _ _ _ r]
      exact Table.modify_congr fun r _ => (hasId_append ids rest.flatten r).symm
    rw [totalOf, ih, h.get_set, h.set_set, hmod, List.map_cons, List.sum_cons, List.flatten_cons]
    simp only [hcount]

/-- rows removed in parts are removed at once -/
theorem totalOf_remove (h : Access get set) (parts : List (List Int)) (s : Store) :
    totalOf (fun ids s => ((get s).count (hasId ids), set s ((get s).remove (hasId ids)))) parts s
      = ((get s).count (hasId parts.flatten), set s ((get s).remove (hasId parts.flatten))) := by
  induction parts generalizing s with
  | nil =>
    have hcount : (get s).count (hasId ([] : List Int)) = 0 :=
      Table.count_of_none fun r _ => hasId_nil r
    have hrem : (get s).remove (hasId ([] : List Int)) = get s :=
      Table.remove_of_none fun r _ => hasId_nil r
    rw [totalOf, List.flatten_nil, hcount, hrem, h.set_get]
  | cons ids rest ih =>
    have happend : (fun r => hasId ids r || hasId rest.flatten r)
        = hasId (α := α) (ids ++ rest.flatten) :=
      funext fun r => (hasId_append ids rest.flatten r).symm
    rw [totalOf, ih, h.get_set, h.set_set, Table.remove_remove, happend, List.flatten_cons]
    exact Prod.ext ((Table.count_remove _ _ _).trans (congrArg (get s).count happend)) rfl

end

/-! ## owners -/

section
variable {δ : Type}

theorem access_sinks (k : SinkKind) : Access (getSinks k) (setSinks k) where
  get_set s t := by cases k <;> rfl
  set_set s t u := by cases k <;> rfl
  set_get s := by cases k <;> rfl

theorem access_resultTables : Access Store.resultTables setResultTables :=
  ⟨fun _ _ => rfl, fun _ _ _ => rfl, fun _ => rfl⟩

theorem stamped_stamped {t : Table (Component.key (δ := δ))} {p q : Row (Component δ) → Bool}
    {owner : String} (hq : ∀ r, q (Table.change p (Component.own owner) r) = q r) :
    stamped (stamped t p owner) q owner = stamped t (fun r => p r || q r) owner :=
  Table.modify_modify (f := Component.own owner) (fun _ => rfl) hq

theorem stamped_congr {t : Table (Component.key (δ := δ))} {p q : Row (Component δ) → Bool}
    {owner : String} (h : ∀ r ∈ t.rows, p r = q r) : stamped t p owner = stamped t q owner :=
  Table.modify_congr h

theorem stamped_of_none {t : Table (Component.key (δ := δ))} {p : Row (Component δ) → Bool}
    {owner : String} (h : ∀ r ∈ t.rows, p r = false) : stamped t p owner = t :=
  Table.modify_of_none h

variable {get : Store → Table (Component.key (δ := δ))}
  {set : Store → Table (Component.key (δ := δ)) → Store}

theorem Means.stamp (name : TableName) (p : Row (Component δ) → Bool) (owner : String) :
    Means (stamp name get set p owner)
      fun s => ((get s).count p, set s (stamped (get s) p owner)) :=
  Means.write fun _ => rfl

/-- owners given in batches are given at once -/
theorem Means.stampIds (h : Access get set) (name : TableName) (ids : List Int) (owner : String) :
    Means (stampIds name get set ids owner) fun s =>
      (((batches ids).map fun ids => (get s).count (hasId ids)).sum,
        set s (stamped (get s) (hasId ids) owner)) := by
  refine (Means.totalOf (fun ids => Means.stamp name (hasId ids) owner) (batches ids)).congr
    fun s => ?_
  refine (totalOf_modify (f := Component.own owner) h (fun _ => rfl) _ (batches ids) s).trans ?_
  rw [flatten_batches]
  rfl

end

/-! ## relations -/

/-- The store with another table of relations. -/
def setRelations (s : Store) (t : Table Relation.noKey) : Store := { s with relations := t }

/-- A relation found right at a time. -/
def checkedAt (time : Int) (a : Relation) : Relation := { a with checked := time }

theorem key_checkedAt (time : Int) (a : Relation) : (checkedAt time a).noKey = a.noKey := rfl

theorem relation_keyless (a : Relation) : a.noKey = none := rfl

theorem access_relations : Access Store.relations setRelations :=
  ⟨fun _ _ => rfl, fun _ _ _ => rfl, fun _ => rfl⟩

theorem Means.refreshBatch (ids : List Int) (time : Int) :
    Means (refreshBatch ids time) fun s => (s.relations.count (hasId ids),
      setRelations s (s.relations.modify (hasId ids) (checkedAt time) (key_checkedAt time))) :=
  Means.write fun _ => rfl

theorem Means.deleteBatch (ids : List Int) :
    Means (deleteBatch ids) fun s => (s.relations.count (hasId ids),
      setRelations s (s.relations.remove (hasId ids))) :=
  Means.write fun _ => rfl

theorem Means.insertBatch (keys : List RelationKey) (time : Int) :
    Means (insertBatch keys time) fun s => (keys.length,
      setRelations s (s.relations.extend relation_keyless (keys.map fun k => ⟨k, time⟩))) :=
  Means.write fun s => by
    rw [Table.addRows_eq_extend relation_keyless]
    rfl

/-- without repeated ids a row is counted in one batch -/
theorem sum_count_batches {α κ : Type} {key : α → Option κ} (t : Table key) {ids : List Int}
    (h : ids.Nodup) :
    ((batches ids).map fun ids => t.count (hasId ids)).sum = t.count (hasId ids) := by
  rw [Table.sum_count t (by rwa [flatten_batches]), flatten_batches]

/-- times set in batches are set at once; a row that two batches name is counted in both -/
theorem Means.refreshRelations (ids : List Int) (time : Int) :
    Means (refreshRelations ids time) fun s =>
      (((batches ids).map fun ids => s.relations.count (hasId ids)).sum,
        setRelations s (s.relations.modify (hasId ids) (checkedAt time) (key_checkedAt time))) := by
  refine (Means.totalOf (fun ids => Means.refreshBatch ids time) (batches ids)).congr fun s => ?_
  refine (totalOf_modify (f := checkedAt time) access_relations (fun _ => rfl) _ (batches ids)
    s).trans ?_
  rw [flatten_batches]

/-- relations removed in batches are removed at once -/
theorem Means.deleteRelations (ids : List Int) :
    Means (deleteRelations ids) fun s => (s.relations.count (hasId ids),
      setRelations s (s.relations.remove (hasId ids))) := by
  refine (Means.totalOf Means.deleteBatch (batches ids)).congr fun s => ?_
  refine (totalOf_remove access_relations (batches ids) s).trans ?_
  rw [flatten_batches]

theorem totalOf_insert (time : Int) (parts : List (List RelationKey)) (s : Store) :
    totalOf (fun keys s => (keys.length, setRelations s
        (s.relations.extend relation_keyless (keys.map fun k => ⟨k, time⟩)))) parts s
      = (parts.flatten.length, setRelations s
          (s.relations.extend relation_keyless (parts.flatten.map fun k => ⟨k, time⟩))) := by
  induction parts generalizing s with
  | nil => rfl
  | cons keys rest ih =>
    rw [totalOf, ih, List.flatten_cons, List.length_append, List.map_append, Table.extend_append]
    rfl

/-- relations added in batches are added at once -/
theorem Means.insertRelations (keys : List RelationKey) (time : Int) :
    Means (insertRelations keys time) fun s => (keys.length, setRelations s
      (s.relations.extend relation_keyless (keys.map fun k => ⟨k, time⟩))) := by
  refine (Means.totalOf (fun keys => Means.insertBatch keys time) (batches keys)).congr fun s => ?_
  rw [totalOf_insert, flatten_batches]

end Linkage.Query
