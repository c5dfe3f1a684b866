import Linkage.Proofs.Dict.Last
import Linkage.Proofs.Store.Named

/-!
# Batches as one statement

Changes by a list of ids, new relations, and components asked for by their names are worked off in
batches.  Whatever is listed, in whatever order and however often, the batches do what one statement
over the whole list does.

* `byName`                the map from names to the components that were read;
* `Query.ChangesListed`   rows of one table are changed or removed by their ids;
* `Query.AddsInOrder`     relations are added, one for each key;
* `Query.FindsNamed`      components are found by their names;
* `batches_as_one`        this is what the queries do that work in batches.
-/

namespace Linkage

section
variable {δ : Type} {t : Table (Component.key (δ := δ))} {scope : Scope} {names : List String}
  {rows : List (Row (Component δ))} {n : String} {r : Row (Component δ)}

/-- The rows under their names; of several with a name the last counts. -/
def byName (rows : List (Row (Component δ))) : Dict String (Row (Component δ)) :=
  Dict.ofList (rows.map fun r => (r.val.name, r))

/-- among rows of one scope of a table a name is that of one row, however often it is there -/
theorem get?_byName (h : ∀ r ∈ rows, r ∈ t.rows ∧ r.val.scope = scope) :
    (byName rows).get? n = some r ↔ r ∈ rows ∧ r.val.name = n := by
  have hgives (x : Row (Component δ)) (b : Row (Component δ)) :
      some (x.val.name, x) = some (n, b) ↔ x.val.name = n ∧ x = b := by
    rw [Option.some.injEq, Prod.mk.injEq]
  unfold byName
  rw [← List.filterMap_eq_map, Dict.get?_ofList_iff_last, Dict.last_iff_exists]
  · simp only [Function.comp_apply, hgives]
    constructor
    · rintro ⟨x, hx, hn, rfl⟩
      exact ⟨hx, hn⟩
    · rintro ⟨hr, hn⟩
      exact ⟨r, hr, hn, rfl⟩
  · intro x hx y hy a b ha hb
    obtain ⟨hxn, rfl⟩ := (hgives x a).1 ha
    obtain ⟨hyn, rfl⟩ := (hgives y b).1 hb
    obtain ⟨hxt, hxs⟩ := h x hx
    obtain ⟨hyt, hys⟩ := h y hy
    exact Table.eq_of_name hxt hyt (hxs.trans hys.symm) (hxn.trans hyn.symm)

theorem get?_byName_of_mem
    (h : ∀ x, x ∈ rows ↔ x ∈ t.rows ∧ x.val.scope = scope ∧ x.val.name ∈ names) :
    (byName rows).get? n = some r ↔
      n ∈ names ∧ r ∈ t.rows ∧ r.val.scope = scope ∧ r.val.name = n := by
  have hrows : ∀ x ∈ rows, x ∈ t.rows ∧ x.val.scope = scope := fun x hx =>
    have hmem := (h x).1 hx
    ⟨hmem.1, hmem.2.1⟩
  rw [get?_byName hrows, h]
  constructor
  · rintro ⟨⟨hr, hs, hn⟩, rfl⟩
    exact ⟨hn, hr, hs, rfl⟩
  · rintro ⟨hn, hr, hs, rfl⟩
    exact ⟨⟨hr, hs, hn⟩, rfl⟩

theorem get?_byName_readByName : (byName (readByName t scope names)).get? n = some r ↔
    n ∈ names ∧ r ∈ t.rows ∧ r.val.scope = scope ∧ r.val.name = n :=
  get?_byName_of_mem fun _ => mem_readByName

end

namespace Query

section
variable {α κ : Type} {key : α → Option κ} {get : Store → Table key}
  {set : Store → Table key → Store} {ids : List Int} {fate : Row α → Option (Row α)}
  {q one : Query Nat}

/-- Whatever the store holds, `q` does with the rows of one table whose ids are listed what `fate` says
(`none` if they are removed), as the statement `one` does, and with no other row anything. -/
structure ChangesListed (get : Store → Table key) (set : Store → Table key → Store) (ids : List Int)
    (fate : Row α → Option (Row α)) (q one : Query Nat) : Prop where
  /-- it answers where no statement fails -/
  answers : ∀ db, db.Reliable → ∃ n, (q db).1 = .ok n
  /-- the store is left with another table, which has given no further id -/
  table : ∀ db n, (q db).1 = .ok n → ∃ t, (q db).2.store = set db.store t ∧
    t.last = (get db.store).last ∧
    t.rows = (get db.store).rows.filterMap fun r => if r.id ∈ ids then fate r else some r
  /-- this is the store that the one statement leaves -/
  as_one : ∀ db n, (q db).1 = .ok n → (q db).2.store = (one (.of db.store)).2.store
  /-- if no id is listed twice, the answer is the number of rows that are listed -/
  count : ids.Nodup → ∀ db n, (q db).1 = .ok n →
    n = ((get db.store).rows.filter fun r => r.id ∈ ids).length

theorem count_hasId (t : Table key) (ids : List Int) :
    t.count (hasId ids) = (t.rows.filter fun r => r.id ∈ ids).length := by
  unfold Table.count
  rw [List.countP_eq_length_filter]
  refine congrArg List.length (List.filter_congr fun r _ => ?_)
  rw [Bool.eq_iff_iff, hasId_iff, decide_eq_true_iff]

/-- queries with one effect on the store leave the same one -/
theorem Means.store_eq {α β : Type} {q : Query α} {p : Query β} {f : Store → α × Store}
    {g : Store → β × Store} (hq : Means q f) (hp : Means p g) (h : ∀ s, (f s).2 = (g s).2)
    {db : Db} {a : α} (ha : (q db).1 = .ok a) : (q db).2.store = (p (.of db.store)).2.store := by
  obtain ⟨b, hb⟩ := hp.total (.of db.store) (Db.reliable_of db.store)
  have hdid := congrArg Prod.snd (hq.sound db a ha)
  have hone := congrArg Prod.snd (hp.sound (.of db.store) b hb)
  exact hdid.symm.trans ((h db.store).trans hone)

/-- A change of the listed rows, from what it and the one statement mean. -/
theorem ChangesListed.of_means {f g : Store → Nat} {t : Store → Table key}
    (hq : Means q fun s => (f s, set s (t s))) (hone : Means one fun s => (g s, set s (t s)))
    (hlast : ∀ s, (t s).last = (get s).last)
    (hrows : ∀ s, (t s).rows
      = (get s).rows.filterMap fun r => if r.id ∈ ids then fate r else some r)
    (hcount : ids.Nodup → ∀ s, f s = (get s).count (hasId ids)) :
    ChangesListed get set ids fate q one where
  answers := hq.total
  table db n hn :=
    ⟨t db.store, (congrArg Prod.snd (hq.sound db n hn)).symm, hlast db.store, hrows db.store⟩
  as_one _ _ hn := hq.store_eq hone (fun _ => rfl) hn
  count hnodup db n hn := by
    have hanswer : f db.store = n := congrArg Prod.fst (hq.sound db n hn)
    rw [← hanswer, hcount hnodup, count_hasId]

theorem rows_modify_listed (t : Table key) (ids : List Int) {f : α → α}
    (h : ∀ a, key (f a) = key a) : (t.modify (hasId ids) f h).rows
      = t.rows.filterMap fun r => if r.id ∈ ids then some ⟨r.id, f r.val⟩ else some r := by
  rw [Table.rows_modify, ← List.filterMap_eq_map]
  refine List.filterMap_congr fun r _ => ?_
  show some (Table.change (hasId ids) f r) = _
  by_cases hr : r.id ∈ ids
  · rw [Table.change_of_pos (hasId_iff.2 hr), if_pos hr]
  · rw [Table.change_of_neg (mt hasId_iff.1 hr), if_neg hr]

theorem rows_remove_listed (t : Table key) (ids : List Int) : (t.remove (hasId ids)).rows
    = t.rows.filterMap fun r => if r.id ∈ ids then none else some r := by
  rw [Table.rows_remove, ← List.filterMap_eq_filter]
  refine List.filterMap_congr fun r _ => ?_
  show (if (!hasId ids r) = true then some r else none) = _
  by_cases hr : r.id ∈ ids
  · rw [if_pos hr, hasId_iff.2 hr]
    rfl
  · rw [if_neg hr, Bool.eq_false_iff.2 (mt hasId_iff.1 hr)]
    rfl

end

theorem changes_refresh (ids : List Int) (time : Int) :
    ChangesListed Store.relations setRelations ids
      (fun r => some ⟨r.id, { r.val with checked := time }⟩)
      (refreshRelations ids time) (refreshBatch ids time) :=
  .of_means (Means.refreshRelations ids time) (Means.refreshBatch ids time) (fun _ => rfl)
    (fun s => rows_modify_listed s.relations ids (key_checkedAt time))
    fun h s => sum_count_batches s.relations h

theorem changes_delete (ids : List Int) :
    ChangesListed Store.relations setRelations ids (fun _ => none)
      (deleteRelations ids) (deleteBatch ids) :=
  .of_means (Means.deleteRelations ids) (Means.deleteBatch ids) (fun _ => rfl)
    (fun s => rows_remove_listed s.relations ids) fun _ _ => rfl

theorem changes_stamp {δ : Type} {get : Store → Table (Component.key (δ := δ))}
    {set : Store → Table (Component.key (δ := δ)) → Store} (h : Access get set) (name : TableName)
    (ids : List Int) (owner : String) :
    ChangesListed get set ids (fun r => some ⟨r.id, { r.val with owner }⟩)
      (stampIds name get set ids owner)
      (stamp name get set (fun r => ids.contains r.id) owner) :=
  .of_means (Means.stampIds h name ids owner) (Means.stamp name _ owner) (fun _ => rfl)
    (fun s => rows_modify_listed (get s) ids (Component.key_own owner))
    fun hnodup s => sum_count_batches (get s) hnodup

/-- Whatever the store holds, `q` adds a relation for each key, in the order of the keys and under ids
that rise and were never given before, as the statement `one` does. -/
structure AddsInOrder (keys : List RelationKey) (time : Int) (q one : Query Nat) : Prop where
  /-- it answers where no statement fails -/
  answers : ∀ db, db.Reliable → ∃ n, (q db).1 = .ok n
  table : ∀ db n, (q db).1 = .ok n → ∃ t added, (q db).2.store = setRelations db.store t ∧
    t.rows = db.store.relations.rows ++ added ∧ added.map Row.val = keys.map (⟨·, time⟩) ∧
    (added.Pairwise fun a b => a.id < b.id) ∧ ∀ r ∈ added, db.store.relations.last < r.id
  /-- this is the store that the one statement leaves -/
  as_one : ∀ db n, (q db).1 = .ok n → (q db).2.store = (one (.of db.store)).2.store
  /-- the answer is the number of the keys -/
  count : ∀ db n, (q db).1 = .ok n → n = keys.length

theorem adds_insert (keys : List RelationKey) (time : Int) :
    AddsInOrder keys time (insertRelations keys time) (insertBatch keys time) where
  answers := (Means.insertRelations keys time).total
  table db n hn := by
    have hstore := congrArg Prod.snd ((Means.insertRelations keys time).sound db n hn)
    exact ⟨_, _, hstore.symm, Table.rows_extend relation_keyless _ _, Table.map_val_numbered _ _,
      Table.rising_numbered _ _, fun _ => Table.lt_of_mem_numbered⟩
  as_one _ _ hn :=
    (Means.insertRelations keys time).store_eq (Means.insertBatch keys time) (fun _ => rfl) hn
  count db n hn := (congrArg Prod.fst ((Means.insertRelations keys time).sound db n hn)).symm

section
variable {δ : Type} {get : Store → Table (Component.key (δ := δ))} {scope : Scope}
  {names : List String} {q : Query (List (Row (Component δ)))}

/-- Whatever the store holds, the components that `q` reads are those of the scope whose names are
listed. -/
structure FindsNamed (get : Store → Table (Component.key (δ := δ))) (scope : Scope)
    (names : List String) (q : Query (List (Row (Component δ)))) : Prop where
  /-- it answers where no statement fails -/
  answers : ∀ db, db.Reliable → ∃ rows, (q db).1 = .ok rows
  /-- nothing is changed -/
  store : ∀ db, (q db).2.store = db.store
  /-- the map of their names has the names that are listed and have a component, with this -/
  named : ∀ db rows, (q db).1 = .ok rows → ∀ n r, (byName rows).get? n = some r ↔
    n ∈ names ∧ r ∈ (get db.store).rows ∧ r.val.scope = scope ∧ r.val.name = n
  /-- it is the map of what one statement reads for all names -/
  as_one : ∀ db rows, (q db).1 = .ok rows →
    byName rows = byName ((get db.store).select (isAmong scope names))
  /-- and a listed name is looked up in it -/
  looked_up : ∀ db rows, (q db).1 = .ok rows → ∀ n ∈ names, rowOf? rows n = (byName rows).get? n

theorem FindsNamed.of_observes (h : Observes q fun s => readByName (get s) scope names) :
    FindsNamed get scope names q := by
  have hnamed {db rows} (hok : (q db).1 = .ok rows) (n : String) (r : Row (Component δ)) :
      (byName rows).get? n = some r ↔
        n ∈ names ∧ r ∈ (get db.store).rows ∧ r.val.scope = scope ∧ r.val.name = n := by
    rw [h.sound db rows hok]
    exact get?_byName_readByName
  refine ⟨h.total, h.store, fun _ _ => hnamed, fun db rows hok => ?_, fun db rows hok n hn => ?_⟩
  · refine Dict.ext_get? fun n => Option.ext fun r => ?_
    have hselect (x : Row (Component δ)) :
        x ∈ (get db.store).select (isAmong scope names) ↔
          x ∈ (get db.store).rows ∧ x.val.scope = scope ∧ x.val.name ∈ names := by
      unfold Table.select
      rw [List.mem_filter, isAmong_iff]
    rw [hnamed hok, get?_byName_of_mem hselect]
  · refine Option.ext fun r => ?_
    rw [hnamed hok, h.sound db rows hok, rowOf?_readByName hn, Table.named?_eq_some_iff]
    exact (and_iff_right hn).symm

end

end Query

open Query in
/-- Lists of any length.  What is done with listed relations, sinks and result tables, batch by batch,
is what one statement does with all of them: every row whose id is listed is changed or removed, once
or more often listed, and every other row and table is as it was; if no id is listed twice, the answer
is the number of stored rows that are listed.  Relations are added one for each key, in this order and
under new rising ids, and the answer is their number.  Sinks and result tables are found under the
listed names that exist in the scope, and under no others. -/
theorem batches_as_one (ids : List Int) (time : Int) (owner : String) (k : SinkKind)
    (keys : List RelationKey) (scope : Scope) (names : List String) :
    ChangesListed Store.relations setRelations ids
      (fun r => some ⟨r.id, { r.val with checked := time }⟩)
      (refreshRelations ids time) (refreshBatch ids time) ∧
    ChangesListed Store.relations setRelations ids (fun _ => none)
      (deleteRelations ids) (deleteBatch ids) ∧
    ChangesListed (getSinks k) (setSinks k) ids (fun r => some ⟨r.id, { r.val with owner }⟩)
      (stampSinks k ids owner)
      (stamp (.sinks k) (getSinks k) (setSinks k) (fun r => ids.contains r.id) owner) ∧
    ChangesListed Store.resultTables setResultTables ids
      (fun r => some ⟨r.id, { r.val with owner }⟩)
      (stampResultTables ids owner)
      (stamp .resultTables Store.resultTables setResultTables (fun r => ids.contains r.id) owner) ∧
    AddsInOrder keys time (insertRelations keys time) (insertBatch keys time) ∧
    FindsNamed (getSinks k) scope names (sinks k scope names) ∧
    FindsNamed Store.resultTables scope names (resultTables scope names) :=
  ⟨changes_refresh ids time, changes_delete ids,
    changes_stamp (access_sinks k) (.sinks k) ids owner,
    changes_stamp access_resultTables .resultTables ids owner, adds_insert keys time,
    .of_observes (Observes.sinks k scope names), .of_observes (Observes.resultTables scope names)⟩

end Linkage
