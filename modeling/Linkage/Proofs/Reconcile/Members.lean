import Linkage.Proofs.Config.Overrides
import Linkage.Proofs.Reconcile.Interrupted
import Linkage.Proofs.Reconcile.Asked

/-!
# The members of a relation are not empty, its project apart

Overrides, bound businesses and named clusters are never empty.  The code of a space can be, and then
stands in the relations of its project.

* `Config.overrides_ne_empty`    no configuration overrides by an empty text;
* `Relates.members_ne_empty`     three members of a relation are not empty;
* `Relates.project_iff`          the fourth is the code of the project's space;
* `Store.mem_stoppedAt`          a pass that fails adds no row;
* `relation_members`             the relations that are derived, and the rows that a pass adds;
* `codeless_project_related`     a relation with an empty project.
-/

namespace Linkage

theorem Overrides.IsPair.ne_empty {cluster business : String} {s : List Char}
    (h : IsPair cluster s business) : business ≠ "" := by
  obtain ⟨-, -, -, -, -, -, -, -, hne⟩ := h
  exact hne

theorem Config.overrides_ne_empty {c : Config} {cluster business : String}
    (h : c.overrides.get? cluster = some business) : business ≠ "" := by
  rcases get?_overrides_iff.1 h with
    ⟨raw, -, before, x, after, -, hx, -⟩ | ⟨-, before, x, after, -, hx, -⟩
  · exact hx.ne_empty
  · exact hx.2.2.2

theorem Text.Decimal.text_ne_empty (i : Int) : text i ≠ "" := by
  unfold text
  rw [Overrides.ofList_ne_empty_iff]
  cases i with
  | ofNat n => exact nat_ne_nil n
  | negSucc n => exact List.cons_ne_nil _ _

namespace Store.Relates

variable {s : Store} {overrides : Overrides} {project : String} {k : RelationKey}
  (h : s.Relates overrides project k)
include h

theorem members_ne_empty (hoverrides : ∀ c b, overrides.get? c = some b → b ≠ "") :
    k.related ≠ "" ∧ k.cluster ≠ "" := by
  constructor
  · rcases h.related with hforced | ⟨-, -, -, -, -, hne, -⟩
    · exact hoverrides _ _ hforced
    · exact hne
  · obtain ⟨-, -, -, -, -, -, -, -, hne⟩ := h.named
    exact hne

theorem project_iff {code : String} : k.project = code ↔ ∃ x ∈ s.spaces.rows,
    x.val.type = SpaceKind.project.text ∧ x.val.id = project ∧ x.val.code = code := by
  have hcode := projectIds_iff.2 h.space
  rw [← projectIds_iff, hcode, Option.some.injEq]

end Store.Relates

/-- a derived relation has an empty project when the space of some project has an empty code and the
project has relations -/
theorem Store.exists_projectless_iff {s : Store} {overrides : Overrides} {lookup : Lookup} :
    (∃ k ∈ (s.desired overrides lookup).keys, k.project = "") ↔
      ∃ x ∈ s.spaces.rows, x.val.type = SpaceKind.project.text ∧ x.val.code = "" ∧
        ∃ k, s.Relates overrides x.val.id k := by
  constructor
  · rintro ⟨k, hk, hempty⟩
    obtain ⟨project, hdeclares⟩ := mem_desired_iff.1 hk
    obtain ⟨first, hfirst, -⟩ := declares_iff.1 hdeclares
    obtain ⟨x, hx, htype, rfl, hcode⟩ := hdeclares.space
    exact ⟨x, hx, htype, hcode.trans hempty, first, hfirst⟩
  · rintro ⟨x, hx, htype, hcode, k, hk⟩
    exact ⟨k, mem_desired_iff.2 ⟨_, declares_iff.2 ⟨k, hk, .inl rfl⟩⟩,
      hk.project_iff.2 ⟨x, hx, htype, rfl, hcode⟩⟩

/-! ## the rows that a pass adds -/

theorem Store.mem_stoppedAt {s : Store} {wanted : KeySet} {now : Int} {n : Nat} {x : Row Relation}
    (h : x ∈ (s.stoppedAt wanted now n).relations.rows) : ∃ r ∈ s.relations.rows, r.id = x.id := by
  have hrefreshed : ∀ y ∈ (s.relations.refreshed wanted now).rows,
      ∃ r ∈ s.relations.rows, r.id = y.id := by
    intro y hy
    obtain ⟨r, hr, rfl⟩ := Table.mem_rows_modify.1 hy
    exact ⟨r, hr, (Table.change_id _ _ r).symm⟩
  unfold Store.stoppedAt at h
  simp only at h
  split at h
  · exact ⟨x, h, rfl⟩
  · split at h
    · exact hrefreshed x h
    · exact hrefreshed x (Table.mem_rows_remove.1 h).1

/-- whatever becomes of a pass, a row that was not there has a derived key -/
theorem added_key {overrides : Overrides} {lookup : Lookup} {clock : Clock} {db : Db}
    {x : Row Relation} (hx : x ∈ (reconcile overrides lookup clock db).2.store.relations.rows)
    (hnew : ∀ r ∈ db.store.relations.rows, r.id ≠ x.id) :
    x.val.key ∈ (db.store.desired overrides lookup).keys := by
  cases hresult : (reconcile overrides lookup clock db).1.result with
  | error e =>
    obtain ⟨n, -, -, hleft⟩ := (Query.Runs.pass overrides lookup clock.now).stops db e
      (reconcile_error hresult)
    rw [reconcile_snd, hleft] at hx
    obtain ⟨r, hr, hid⟩ := Store.mem_stoppedAt hx
    exact absurd hid (hnew r hr)
  | ok report =>
    rw [(reconcile_ok hresult).1] at hx
    exact (Table.keys_apply _).1 ⟨x, hx, rfl⟩

/-- With the overrides of any configuration, on any store and whatever the lookup answers: the related
business, the business and the cluster of a derived relation are not empty.  Its project is, when the
space of a project with relations has an empty code, and in no other case.  The rows that a pass adds,
whether it ends with a report or fails, have derived keys. -/
theorem relation_members (c : Config) (lookup : Lookup) (clock : Clock) (db : Db) :
    let wanted := db.store.desired c.overrides lookup
    (∀ k ∈ wanted.keys, k.related ≠ "" ∧ k.business ≠ "" ∧ k.cluster ≠ "") ∧
    ((∃ k ∈ wanted.keys, k.project = "") ↔
      ∃ x ∈ db.store.spaces.rows, x.val.type = SpaceKind.project.text ∧ x.val.code = "" ∧
        ∃ k, db.store.Relates c.overrides x.val.id k) ∧
    ∀ x ∈ (reconcile c.overrides lookup clock db).2.store.relations.rows,
      (∀ r ∈ db.store.relations.rows, r.id ≠ x.id) → x.val.key ∈ wanted.keys := by
  refine ⟨fun k hk => ?_, Store.exists_projectless_iff, fun x hx hnew => added_key hx hnew⟩
  obtain ⟨project, hdeclares⟩ := Store.mem_desired_iff.1 hk
  obtain ⟨first, hfirst, hk⟩ := Store.declares_iff.1 hdeclares
  obtain ⟨hrelated, hcluster⟩ := hfirst.members_ne_empty fun _ _ => Config.overrides_ne_empty
  rcases hk with rfl | ⟨a, -, -, rfl⟩
  · exact ⟨hrelated, hfirst.business ▸ hrelated, hcluster⟩
  · exact ⟨hrelated, Text.Decimal.text_ne_empty _, hcluster⟩

/-- A store where the space of a project has no code. -/
def Store.codeless : Store :=
  { Store.empty with
    spaces := .ofList [⟨"bkci", "p", "", "p"⟩] (by decide)
    resources := .ofList [⟨"bkci", "p", "bkcc", some "2", "[]"⟩,
      ⟨"bkci", "p", "bcs", none, "[\x7b\"cluster_id\": \"c\"\x7d]"⟩] (by decide) }

theorem codeless_project_related : ⟨"2", "2", "", "c"⟩ ∈
    (Store.codeless.desired Config.initial.overrides (.ofList [])).keys := by decide +kernel

end Linkage
