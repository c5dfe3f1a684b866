import Mathlib.Data.String.Basic
import Linkage.Proofs.Dict.ByKey
import Linkage.Proofs.Reconcile.Declared

/-!
# The businesses of a cluster

The businesses that are listed for a cluster are those of its relations, each of them once, and they
rise by their numbers.

* `businessOrder_eq_lt_iff`   the order of businesses is by number, and then by text;
* `Store.businessIds`         the businesses of a cluster;
* `Store.mem_businessIds`, `Store.rising_businessIds`   which they are, and in which order;
* `businesses_listed`         what is listed for a cluster, also when a pass has just ended.
-/

namespace Linkage

/-! ## the order of businesses -/

namespace Query

instance : Std.TransCmp businessOrder :=
  inferInstanceAs (Std.TransCmp (compareLex (compareOn fun s : String =>
    Text.Decimal.leadingInt64 s.toList) compare))

theorem businessOrder_eq_lt_iff {a b : String} : businessOrder a b = .lt ↔
    Text.Decimal.leadingInt64 a.toList < Text.Decimal.leadingInt64 b.toList ∨
      Text.Decimal.leadingInt64 a.toList = Text.Decimal.leadingInt64 b.toList ∧ a < b := by
  unfold businessOrder compareLex compareOn
  rw [Ordering.then_eq_lt, compare_lt_iff_lt, compare_eq_iff_eq, compare_lt_iff_lt]

theorem eq_of_businessOrder {a b : String} (h : businessOrder a b = .eq) : a = b := by
  unfold businessOrder compareLex at h
  exact compare_eq_iff_eq.1 (Ordering.then_eq_eq.1 h).2

/-- texts that are numbers are ordered by these, and then by themselves -/
theorem lt_of_businessOrder {a b : String} (h : businessOrder a b = .lt) {i j : Int}
    (hi : Text.Decimal.int64? a.toList = some i) (hj : Text.Decimal.int64? b.toList = some j) :
    i < j ∨ i = j ∧ a < b := by
  rw [businessOrder_eq_lt_iff, Text.Decimal.leadingInt64_of_int64? hi,
    Text.Decimal.leadingInt64_of_int64? hj] at h
  exact h

example : businessOrder "-12" "9" = .lt ∧ businessOrder "9" "10" = .lt ∧
    businessOrder "07" "7" = .lt := by decide +kernel

end Query

/-! ## the businesses of a cluster -/

namespace Store

/-- The businesses of the relations of a cluster, each once and in order. -/
def businessIds (s : Store) (cluster : String) : List String :=
  let rows := s.relations.select fun r => r.val.key.cluster = cluster
  (rows.map fun r => r.val.key.business).eraseDups.mergeSort
    fun a b => Query.businessOrder a b ≠ .gt

variable {s : Store} {cluster : String}

theorem mem_businessIds {b : String} : b ∈ s.businessIds cluster ↔
    ∃ r ∈ s.relations.rows, r.val.key.cluster = cluster ∧ r.val.key.business = b := by
  unfold businessIds
  rw [List.mem_mergeSort, List.mem_eraseDups, List.mem_map]
  refine exists_congr fun r => ?_
  rw [Table.mem_select, decide_eq_true_iff, and_assoc]

theorem nodup_businessIds : (s.businessIds cluster).Nodup :=
  (List.mergeSort_perm _ _).nodup_iff.2 (nodup_eraseDups _)

theorem rising_businessIds :
    (s.businessIds cluster).Pairwise fun a b => Query.businessOrder a b = .lt := by
  have hsorted : (s.businessIds cluster).Pairwise fun a b => Query.businessOrder a b ≠ .gt := by
    refine (List.pairwise_mergeSort (fun a b c hab hbc => ?_) (fun a b => ?_) _).imp
      of_decide_eq_true
    · rw [decide_eq_true_iff] at hab hbc ⊢
      exact Ordering.isLE_iff_ne_gt.1 (Std.TransCmp.isLE_trans (Ordering.isLE_iff_ne_gt.2 hab)
        (Ordering.isLE_iff_ne_gt.2 hbc))
    · rw [Bool.or_eq_true, decide_eq_true_iff, decide_eq_true_iff]
      by_contra hboth
      rw [not_or, not_not, not_not] at hboth
      have hswap : Query.businessOrder a b = (Query.businessOrder b a).swap :=
        Std.OrientedCmp.eq_swap
      rw [hboth.1, hboth.2] at hswap
      cases hswap
  refine hsorted.imp₂ (fun a b hle hne => ?_) nodup_businessIds
  cases horder : Query.businessOrder a b with
  | lt => rfl
  | eq => exact absurd (Query.eq_of_businessOrder horder) hne
  | gt => exact absurd horder hle

end Store

theorem Query.Observes.businessIds (cluster : String) :
    Observes (businessIds cluster) fun s => s.businessIds cluster := Observes.read _

/-- The businesses listed for a cluster are those of its relations, and none of them is listed twice.
Those that are numbers rise, and of several texts of one number the lesser comes first.  When a pass
has just ended with a report, they are those of the keys that should be stored. -/
theorem businesses_listed (cluster : String) (db : Db) :
    let listed := (Query.transaction (Query.businessIds cluster) db).1
    (db.Reliable → ∃ ids, listed = .ok ids) ∧
    (∀ ids, listed = .ok ids → ids.Nodup ∧
      (∀ b, b ∈ ids ↔
        ∃ r ∈ db.store.relations.rows, r.val.key.cluster = cluster ∧ r.val.key.business = b) ∧
      (ids.Pairwise fun a b => ∀ i j, Text.Decimal.int64? a.toList = some i →
        Text.Decimal.int64? b.toList = some j → i < j ∨ i = j ∧ a < b)) ∧
    ∀ overrides lookup clock before report,
      (reconcile overrides lookup clock before).1.result = .ok report →
      db.store = (reconcile overrides lookup clock before).2.store →
      ∀ ids, listed = .ok ids → ∀ b, b ∈ ids ↔
        ∃ k ∈ (before.store.desired overrides lookup).keys, k.cluster = cluster ∧ k.business = b := by
  have hobserves := (Query.Observes.businessIds cluster).transaction
  refine ⟨hobserves.total db, fun ids hids => ?_, fun overrides lookup clock before report h hdb ids
    hids b => ?_⟩
  · obtain rfl := hobserves.sound db ids hids
    exact ⟨Store.nodup_businessIds, fun b => Store.mem_businessIds,
      Store.rising_businessIds.imp fun horder i j hi hj => Query.lt_of_businessOrder horder hi hj⟩
  · obtain rfl := hobserves.sound db ids hids
    rw [Store.mem_businessIds, hdb]
    have hkeys := (reconcile_converges overrides lookup clock before h).keys
    constructor
    · intro ⟨r, hr, hcluster, hbusiness⟩
      exact ⟨r.val.key, (hkeys _).1 ⟨r, hr, rfl⟩, hcluster, hbusiness⟩
    · intro ⟨k, hk, hcluster, hbusiness⟩
      obtain ⟨r, hr, rfl⟩ := (hkeys k).2 hk
      exact ⟨r, hr, hcluster, hbusiness⟩

end Linkage
