import Mathlib.Data.List.Dedup
import Linkage.Proofs.Dict.Group
import Linkage.Proofs.Query.Bulk
import Linkage.Reconcile.Run

/-!
# What the difference of a set of keys and the stored rows is

Rows are grouped by their keys, and a key may have several rows.

* `mem_refresh_iff`, `mem_delete_iff`, `mem_add_iff`   the ids of rows with a wanted key, those of the
                             other rows, and the wanted keys that have no row;
* `nodup_refresh`, `nodup_add`   none of them is listed twice;
* `Means.converge`           the three changes of the table as one.
-/

namespace Linkage

namespace Difference

/-- The ids under the keys that satisfy a condition. -/
def idsOf (p : RelationKey → Bool) (rows : List (Row Relation)) : List Int :=
  ((grouped rows).entries.filter fun e => p e.1).flatMap Prod.snd

theorem mem_idsOf {p : RelationKey → Bool} {rows : List (Row Relation)} {i : Int} :
    i ∈ idsOf p rows ↔ ∃ r ∈ rows, p r.val.key = true ∧ r.id = i := by
  have hgroup : grouped rows = Dict.group (fun r => r.val.key) Row.id rows := rfl
  unfold idsOf
  rw [hgroup, List.mem_flatMap]
  constructor
  · intro ⟨⟨k, ids⟩, he, hi⟩
    obtain ⟨he, hp⟩ := List.mem_filter.1 he
    obtain ⟨_, rfl⟩ := Dict.mem_entries_group.1 he
    obtain ⟨r, hr, rfl⟩ := List.mem_map.1 hi
    obtain ⟨hr, hk⟩ := List.mem_filter.1 hr
    rw [← of_decide_eq_true hk] at hp
    exact ⟨r, hr, hp, rfl⟩
  · intro ⟨r, hr, hp, hi⟩
    refine ⟨(r.val.key, (rows.filter fun x => x.val.key = r.val.key).map Row.id),
      List.mem_filter.2 ⟨Dict.mem_entries_group.2 ⟨List.mem_map_of_mem hr, rfl⟩, hp⟩, ?_⟩
    rw [← hi]
    exact List.mem_map_of_mem (List.mem_filter.2 ⟨hr, decide_eq_true rfl⟩)

/-- the rows of a table are listed once -/
theorem nodup_idsOf (p : RelationKey → Bool) (t : Table Relation.noKey) :
    (idsOf p t.rows).Nodup := by
  have hgroup : grouped t.rows = Dict.group (fun r => r.val.key) Row.id t.rows := rfl
  unfold idsOf
  rw [hgroup, List.nodup_flatMap]
  constructor
  · intro ⟨k, ids⟩ he
    obtain ⟨_, rfl⟩ := Dict.mem_entries_group.1 (List.mem_filter.1 he).1
    exact t.nodup_ids.sublist (List.filter_sublist.map _)
  · have hkeys := Dict.nodup_keys (Dict.group (fun r : Row Relation => r.val.key) Row.id t.rows)
    unfold Dict.keys at hkeys
    rw [List.Nodup, List.pairwise_map] at hkeys
    refine List.Pairwise.imp_of_mem ?_ (hkeys.filter _)
    intro ⟨k, ids⟩ ⟨j, jds⟩ he hf hne i hi hj
    -- an id under two keys would be that of one row with two keys
    obtain ⟨_, rfl⟩ := Dict.mem_entries_group.1 (List.mem_filter.1 he).1
    obtain ⟨_, rfl⟩ := Dict.mem_entries_group.1 (List.mem_filter.1 hf).1
    obtain ⟨r, hr, rfl⟩ := List.mem_map.1 hi
    obtain ⟨x, hx, hid⟩ := List.mem_map.1 hj
    obtain ⟨hr, hrk⟩ := List.mem_filter.1 hr
    obtain ⟨hx, hxk⟩ := List.mem_filter.1 hx
    have hxr : x = r := Table.eq_of_id hx hr hid
    rw [hxr] at hxk
    exact hne ((of_decide_eq_true hrk).symm.trans (of_decide_eq_true hxk))

section
variable {wanted : KeySet} {t : Table Relation.noKey}

theorem mem_refresh_iff {i : Int} : i ∈ (of wanted t.rows).refresh ↔
    ∃ r ∈ t.rows, wanted.contains r.val.key = true ∧ r.id = i :=
  mem_idsOf (p := fun k => wanted.contains k)

theorem mem_delete_iff {i : Int} : i ∈ (of wanted t.rows).delete ↔
    ∃ r ∈ t.rows, wanted.contains r.val.key = false ∧ r.id = i := by
  refine (mem_idsOf (p := fun k => !wanted.contains k)).trans ?_
  simp only [Bool.not_eq_true']

theorem contains_grouped {rows : List (Row Relation)} {k : RelationKey} :
    (grouped rows).contains k = true ↔ ∃ r ∈ rows, r.val.key = k := by
  have hgroup : grouped rows = Dict.group (fun r => r.val.key) Row.id rows := rfl
  rw [hgroup, Dict.contains_group, List.mem_map]

theorem mem_add_iff {k : RelationKey} : k ∈ (of wanted t.rows).add ↔
    k ∈ wanted.keys ∧ ∀ r ∈ t.rows, r.val.key ≠ k := by
  show k ∈ wanted.keys.filter (fun k => !(grouped t.rows).contains k) ↔ _
  rw [List.mem_filter, Bool.not_eq_true', ← Bool.not_eq_true, contains_grouped]
  simp only [not_exists, not_and]

theorem nodup_refresh : (of wanted t.rows).refresh.Nodup :=
  nodup_idsOf (fun k => wanted.contains k) t

theorem nodup_add : (of wanted t.rows).add.Nodup := (Dict.nodup_keys wanted).filter _

/-- a stored row is refreshed when its key is wanted, and deleted when it is not -/
theorem hasId_refresh {r : Row Relation} (hr : r ∈ t.rows) :
    hasId (of wanted t.rows).refresh r = wanted.contains r.val.key := by
  rw [Bool.eq_iff_iff, hasId_iff, mem_refresh_iff]
  constructor
  · intro ⟨x, hx, hk, hid⟩
    rwa [← Table.eq_of_id hx hr hid]
  · intro hk
    exact ⟨r, hr, hk, rfl⟩

theorem hasId_delete {r : Row Relation} (hr : r ∈ t.rows) :
    hasId (of wanted t.rows).delete r = !wanted.contains r.val.key := by
  rw [Bool.eq_iff_iff, hasId_iff, mem_delete_iff, Bool.not_eq_true']
  constructor
  · intro ⟨x, hx, hk, hid⟩
    rwa [← Table.eq_of_id hx hr hid]
  · intro hk
    exact ⟨r, hr, hk, rfl⟩

end

end Difference

/-! ## the three changes -/

/-- The table after the changes, and how many rows each of them touched. -/
def Table.apply (d : Difference) (now : Int) (t : Table Relation.noKey) :
    Query.Counts × Table Relation.noKey :=
  let refreshed := t.modify (hasId d.refresh) (Query.checkedAt now) (Query.key_checkedAt now)
  (⟨d.add.length, t.count (hasId d.refresh), refreshed.count (hasId d.delete)⟩,
    (refreshed.remove (hasId d.delete)).extend Query.relation_keyless
      (d.add.map fun k => ⟨k, now⟩))

namespace Query

def refreshStep (d : Difference) (now : Int) : Query Nat :=
  skipIf (d.refresh = []) 0 (transaction (refreshRelations d.refresh now))

def deleteStep (d : Difference) : Query Nat :=
  skipIf (d.delete = []) 0 (transaction (deleteRelations d.delete))

def insertStep (d : Difference) (now : Int) : Query Nat :=
  skipIf (d.add = []) 0 (transaction (insertRelations d.add now))

variable {d : Difference}

theorem Means.refreshStep (h : d.refresh.Nodup) (now : Int) : Means (refreshStep d now) fun s =>
    (s.relations.count (hasId d.refresh), setRelations s
      (s.relations.modify (hasId d.refresh) (checkedAt now) (key_checkedAt now))) := by
  have hmeans := Means.refreshRelations d.refresh now
  simp only [sum_count_batches _ h] at hmeans
  refine hmeans.transaction.skipIf fun hn s => ?_
  rw [of_decide_eq_true hn, Table.modify_of_none fun r _ => hasId_nil r,
    Table.count_of_none fun r _ => hasId_nil r]
  rfl

theorem Means.deleteStep (d : Difference) : Means (deleteStep d) fun s =>
    (s.relations.count (hasId d.delete), setRelations s
      (s.relations.remove (hasId d.delete))) := by
  refine (Means.deleteRelations d.delete).transaction.skipIf fun hn s => ?_
  rw [of_decide_eq_true hn, Table.remove_of_none fun r _ => hasId_nil r,
    Table.count_of_none fun r _ => hasId_nil r]
  rfl

theorem Means.insertStep (d : Difference) (now : Int) : Means (insertStep d now) fun s =>
    (d.add.length, setRelations s
      (s.relations.extend relation_keyless (d.add.map fun k => ⟨k, now⟩))) := by
  refine (Means.insertRelations d.add now).transaction.skipIf fun hn s => ?_
  rw [of_decide_eq_true hn]
  rfl

theorem Means.applyDifference (hr : d.refresh.Nodup) (now : Int) : Means (applyDifference d now) fun s =>
      ((s.relations.apply d now).1, setRelations s (s.relations.apply d now).2) :=
  (Means.refreshStep hr now).bind fun refreshed =>
    (Means.deleteStep d).bind fun deleted =>
      (Means.insertStep d now).bind fun added =>
        Means.pure (⟨added, refreshed, deleted⟩ : Counts)

/-- the table is read and then changed by what it lacks and has too much -/
theorem Means.converge (wanted : KeySet) (now : Int) : Means (converge wanted now) fun s =>
    ((s.relations.apply (.of wanted s.relations.rows) now).1,
      setRelations s (s.relations.apply (.of wanted s.relations.rows) now).2) :=
  (Observes.read fun s : Store => s.relations.rows).transaction.means.bind_of fun _ =>
    ⟨_, Means.applyDifference Difference.nodup_refresh now, rfl⟩

end Query
end Linkage
