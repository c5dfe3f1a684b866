import Linkage.Proofs.Lookup.SpaceUids
import Linkage.Proofs.Reconcile.Declared
import Linkage.Proofs.Reconcile.Pass

/-!
# The lookup in the table of spaces loses no relation

A cluster adds a relation only when its project has a space.  The container space of a project is
looked up in the table in which the space of the project was found, so the lookup finds it.

* `Lookup.answer_ofStore`      the answer for a project that has a space is the negated id of its row;
* `Derivation.failures_run`    a derivation whose lookups are answered counts no failure;
* `containers_derived`         each relation to the business of a project comes with one to the
                               project's container space.
-/

namespace Linkage

namespace Lookup

/-- the uid of a project names its row -/
theorem answer_ofStore {s : Store} {x : Row Space} (hx : x ∈ s.spaces.rows)
    (htype : x.val.type = SpaceKind.project.text) :
    (ofStore s).answer (spaceUid .project x.val.id)
      = .ok ⟨spaceUid .project x.val.id, -x.id⟩ :=
  answer_of_row ⟨hx, htype, rfl⟩ (by decide)

/-- the id of a row is positive, so the business of a container space is not -/
theorem neg_id_lt_zero {s : Store} {x : Row Space} (hx : x ∈ s.spaces.rows) : -x.id < 0 := by
  have := s.spaces.bounded x hx
  omega

theorem text_neg_id_ne {x y : Row Space} {s : Store} (hx : x ∈ s.spaces.rows)
    (hy : y ∈ s.spaces.rows) (hne : x.val.id ≠ y.val.id) :
    Text.Decimal.text (-x.id) ≠ Text.Decimal.text (-y.id) := by
  intro htext
  have hid : x.id = y.id := Int.neg_inj.1 (Text.Decimal.text_injective htext)
  rw [Table.eq_of_id hx hy hid] at hne
  exact hne rfl

end Lookup

/-! ## no failure is counted -/

namespace Derivation

variable {w : Registry} {overrides : Overrides} {lookup : Lookup} {project : String}

theorem failures_container {a : SpaceDetail}
    (h : lookup.answer (spaceUid .project project) = .ok a) (d : Derivation) :
    (d.container lookup project).1.failures = d.failures := by
  unfold container
  split
  · rfl
  · exact (ask_of_ok h d).2

/-- The lookup answers for each project that has an id. -/
def Answered (w : Registry) (lookup : Lookup) : Prop :=
  ∀ p id, w.projectIds.get? p = some id → ∃ a, lookup.answer (spaceUid .project p) = .ok a

theorem failures_mention (h : Answered w lookup) (d : Derivation) (cluster : String) :
    (mention w overrides lookup project d cluster).failures = d.failures := by
  unfold mention
  split
  · rename_i id related hid _
    obtain ⟨a, ha⟩ := h project id hid
    have hcontainer := failures_container ha (d.add ⟨related, related, id, cluster⟩)
    split <;> rename_i hd <;> rw [hd] at hcontainer <;> exact hcontainer
  · rfl

theorem failures_foldl {α : Type} {step : Derivation → α → Derivation}
    (h : ∀ d a, (step d a).failures = d.failures) (xs : List α) (d : Derivation) :
    (xs.foldl step d).failures = d.failures := by
  induction xs generalizing d with
  | nil => rfl
  | cons x xs ih => rw [List.foldl_cons, ih, h]

theorem failures_row (h : Answered w lookup) (d : Derivation) (r : Row Resource) :
    (row w overrides lookup d r).failures = d.failures := by
  unfold row
  split
  · exact failures_foldl (failures_mention h) _ d
  · rfl

theorem failures_run (h : Answered w lookup) : (run w overrides lookup).failures = 0 :=
  failures_foldl (failures_row h) w.clusters start

theorem answered_ofStore (s : Store) : Answered s.registry.1 (Lookup.ofStore s) := by
  intro p id hp
  obtain ⟨x, hx, htype, rfl, _⟩ := Store.projectIds_iff.1 hp
  exact ⟨_, Lookup.answer_ofStore hx htype⟩

end Derivation

/-- With the lookup in the store itself, a pass reports no failed lookup, and whenever a project
declares the relation of a cluster to a business, it declares the one to its container space as well,
whose business is the negated id of the row of the project; both are stored after the pass.  Different
projects have different businesses of this kind. -/
theorem containers_derived (overrides : Overrides) (clock : Clock) (db : Db) :
    let lookup := Lookup.ofStore db.store
    let run := reconcile overrides lookup clock db
    (db.Reliable → ∃ report, run.1.result = .ok report) ∧
    (∀ report, run.1.result = .ok report → report.lookupFailures = 0 ∧
      ∀ p r P C, db.store.Declares overrides lookup p ⟨r, r, P, C⟩ →
        ∃ x ∈ db.store.spaces.rows, x.val.type = SpaceKind.project.text ∧ x.val.id = p ∧ -x.id < 0 ∧
          db.store.Declares overrides lookup p ⟨r, Text.Decimal.text (-x.id), P, C⟩ ∧
          ∀ k, k = ⟨r, r, P, C⟩ ∨ k = ⟨r, Text.Decimal.text (-x.id), P, C⟩ →
            ∃ y ∈ run.2.store.relations.rows, y.val.key = k) ∧
    ∀ x ∈ db.store.spaces.rows, ∀ y ∈ db.store.spaces.rows, x.val.id ≠ y.val.id →
      Text.Decimal.text (-x.id) ≠ Text.Decimal.text (-y.id) := by
  intro lookup run
  refine ⟨reconcile_reliable, fun report hrun => ⟨?_, fun p r P C hdeclared => ?_⟩,
    fun x hx y hy => Lookup.text_neg_id_ne hx hy⟩
  · obtain ⟨c, _, rfl⟩ := reconcile_report hrun
    exact Derivation.failures_run (Derivation.answered_ofStore db.store)
  · obtain ⟨x, hx, htype, rfl, hcode⟩ := hdeclared.space
    have hsecond : db.store.Declares overrides lookup x.val.id
        ⟨r, Text.Decimal.text (-x.id), P, C⟩ :=
      { named := hdeclared.named
        space := hdeclared.space
        related := hdeclared.related
        business := .inr ⟨_, Lookup.answer_ofStore hx htype,
          Int.ne_of_lt (Lookup.neg_id_lt_zero hx), rfl⟩ }
    refine ⟨x, hx, htype, rfl, Lookup.neg_id_lt_zero hx, hsecond, fun k hk => ?_⟩
    have hwanted : k ∈ (db.store.desired overrides lookup).keys := by
      rcases hk with rfl | rfl
      · exact Store.mem_desired_iff.2 ⟨_, hdeclared⟩
      · exact Store.mem_desired_iff.2 ⟨_, hsecond⟩
    show ∃ y ∈ (reconcile overrides lookup clock db).2.store.relations.rows, _
    rw [(reconcile_ok hrun).1]
    exact (Table.keys_apply k).2 hwanted

end Linkage
