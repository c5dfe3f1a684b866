import Linkage.Proofs.Reconcile.Declared
import Linkage.Proofs.Reconcile.Interrupted

/-!
# A lookup and an override have effect on their own relations only

The relations that a project declares depend on the lookup only by its answer for this project, and on
the overrides only by that of the cluster.

* `Store.count_relationKeys`   how many rows a key has after a pass, by the wanted keys;
* `Completed.differ`           two passes differ in keys that one of them wants;
* `Store.ContainerKey`         a relation of a project to a business that the lookup answers for it;
* `containerKey_of_desired`, `mem_desired_congr`   what another answer, and another override, change;
* `Lookup.forgiving`           a lookup that never fails, with which a pass does the same;
* `faults_stay_local`          what this means for two passes on one store.
-/

namespace Linkage

namespace Store

/-- The keys of the stored relations, one for each row. -/
def relationKeys (s : Store) : List RelationKey := s.relations.rows.map fun r => r.val.key

theorem mem_relationKeys {s : Store} {k : RelationKey} :
    k ∈ s.relationKeys ↔ ∃ r ∈ s.relations.rows, r.val.key = k := List.mem_map

theorem relationKeys_apply (s : Store) (wanted : KeySet) (now : Int) :
    (Query.setRelations s (s.relations.apply (.of wanted s.relations.rows) now).2).relationKeys
      = s.relationKeys.filter wanted.contains ++ (Difference.of wanted s.relations.rows).add := by
  have hadded : (s.relations.added wanted now).map (fun r => r.val.key)
      = (Difference.of wanted s.relations.rows).add := by
    have hvals : ((s.relations.added wanted now).map Row.val).map Relation.key
        = ((Difference.of wanted s.relations.rows).add.map fun k => ⟨k, now⟩).map Relation.key := by
      rw [Table.map_val_added]
    rw [List.map_map, List.map_map] at hvals
    exact hvals.trans (List.map_id _)
  show ((s.relations.apply _ now).2.rows.map _) = _
  rw [Table.rows_apply, List.map_append, List.map_map, hadded]
  congr 1
  unfold relationKeys
  rw [List.filter_map]
  rfl

/-- a wanted key keeps its rows, or gets one if it had none; another key has none -/
theorem count_relationKeys (s : Store) (wanted : KeySet) (now : Int) (k : RelationKey) :
    (Query.setRelations s
        (s.relations.apply (.of wanted s.relations.rows) now).2).relationKeys.count k
      = if k ∈ wanted.keys then max 1 (s.relationKeys.count k) else 0 := by
  rw [relationKeys_apply, List.count_append]
  by_cases hk : k ∈ wanted.keys
  · have hkept : (s.relationKeys.filter wanted.contains).count k = s.relationKeys.count k :=
      List.count_filter (Dict.contains_iff.2 hk)
    rw [if_pos hk, hkept]
    by_cases hrow : k ∈ s.relationKeys
    · have hno : k ∉ (Difference.of wanted s.relations.rows).add := by
        intro hadd
        obtain ⟨r, hr, hrk⟩ := mem_relationKeys.1 hrow
        exact (Difference.mem_add_iff.1 hadd).2 r hr hrk
      rw [List.count_eq_zero_of_not_mem hno, Nat.add_zero,
        Nat.max_eq_right (List.one_le_count_iff.2 hrow)]
    · have hadd : k ∈ (Difference.of wanted s.relations.rows).add :=
        Difference.mem_add_iff.2 ⟨hk, fun r hr he => hrow (mem_relationKeys.2 ⟨r, hr, he⟩)⟩
      rw [List.count_eq_zero_of_not_mem hrow, Nat.zero_add,
        List.count_eq_one_of_mem Difference.nodup_add hadd]
      rfl
  · have hkept : k ∉ s.relationKeys.filter wanted.contains := by
      intro hmem
      exact hk (Dict.contains_iff.1 (List.mem_filter.1 hmem).2)
    have hno : k ∉ (Difference.of wanted s.relations.rows).add := by
      intro hadd
      exact hk (Difference.mem_add_iff.1 hadd).1
    rw [if_neg hk, List.count_eq_zero_of_not_mem hkept, List.count_eq_zero_of_not_mem hno]

end Store

theorem Completed.count {overrides : Overrides} {lookup : Lookup} {s u : Store}
    (h : Completed overrides lookup s u) (k : RelationKey) : u.relationKeys.count k
      = if k ∈ (s.desired overrides lookup).keys then max 1 (s.relationKeys.count k) else 0 := by
  obtain ⟨clock, db, report, rfl, hok, rfl⟩ := h
  rw [(reconcile_ok hok).1, Store.count_relationKeys]

/-- a key of which two passes have left more or less is wanted by one of them only -/
theorem Completed.differ {o₁ o₂ : Overrides} {l₁ l₂ : Lookup} {s u₁ u₂ : Store}
    (h₁ : Completed o₁ l₁ s u₁) (h₂ : Completed o₂ l₂ s u₂) {k : RelationKey}
    (hk : u₁.relationKeys.count k ≠ u₂.relationKeys.count k) :
    (k ∈ (s.desired o₁ l₁).keys ∧ k ∉ (s.desired o₂ l₂).keys) ∨
      (k ∈ (s.desired o₂ l₂).keys ∧ k ∉ (s.desired o₁ l₁).keys) := by
  rw [h₁.count, h₂.count] at hk
  by_cases hfirst : k ∈ (s.desired o₁ l₁).keys
  · refine .inl ⟨hfirst, fun hsecond => hk ?_⟩
    rw [if_pos hfirst, if_pos hsecond]
  · refine .inr ⟨?_, hfirst⟩
    by_contra hsecond
    rw [if_neg hfirst, if_neg hsecond] at hk
    exact hk rfl

theorem Completed.mem_iff {overrides : Overrides} {lookup : Lookup} {s u : Store}
    (h : Completed overrides lookup s u) (k : RelationKey) :
    k ∈ u.relationKeys ↔ k ∈ (s.desired overrides lookup).keys := by
  rw [← List.one_le_count_iff, h.count]
  split
  · rename_i hk
    exact ⟨fun _ => hk, fun _ => Nat.le_max_left _ _⟩
  · rename_i hk
    exact ⟨nofun, fun hmem => absurd hmem hk⟩

/-! ## another answer of the lookup -/

theorem spaceUid_injective {k : SpaceKind} {p q : String} (h : spaceUid k p = spaceUid k q) :
    p = q := by
  have hsplit := splitUid?_spaceUid k p
  rw [h, splitUid?_spaceUid] at hsplit
  cases hsplit
  rfl

/-- A relation of a cluster of the project to a business that the lookup answers for it. -/
structure Store.ContainerKey (s : Store) (lookup : Lookup) (project : String) (k : RelationKey) :
    Prop where
  /-- a container row of the project names the cluster -/
  named : ∃ x ∈ s.resources.rows, x.val.Binds project .container ∧ x.val.Names k.cluster
  /-- the project has a space, whose code stands in the relation -/
  space : ∃ x ∈ s.spaces.rows, x.val.type = SpaceKind.project.text ∧ x.val.id = project ∧
    x.val.code = k.project
  business : ∃ a, lookup.answer (spaceUid .project project) = .ok a ∧ a.business ≠ 0 ∧
    k.business = Text.Decimal.text a.business

section
variable {s : Store} {overrides : Overrides} {l₁ l₂ : Lookup} {project : String} {k : RelationKey}

theorem containerKey_of_desired
    (h : ∀ uid, uid ≠ spaceUid .project project → l₁.answer uid = l₂.answer uid)
    (hk : k ∈ (s.desired overrides l₁).keys) (hno : k ∉ (s.desired overrides l₂).keys) :
    s.ContainerKey l₁ project k := by
  obtain ⟨q, hdeclares⟩ := Store.mem_desired_iff.1 hk
  -- a relation to the related business, and one of another project, does not depend on the answer
  rcases hdeclares.business with hrelated | hcontainer
  · refine absurd (Store.mem_desired_iff.2 ⟨q, ?_⟩) hno
    exact { hdeclares with business := .inl hrelated }
  · by_cases hq : q = project
    · subst hq
      exact ⟨hdeclares.named, hdeclares.space, hcontainer⟩
    · rw [h _ fun huid => hq (spaceUid_injective huid)] at hcontainer
      refine absurd (Store.mem_desired_iff.2 ⟨q, ?_⟩) hno
      exact { hdeclares with business := .inr hcontainer }

end

/-! ## another override -/

theorem mem_desired_congr {s : Store} {o₁ o₂ : Overrides} {lookup : Lookup} {k : RelationKey}
    (h : o₁.get? k.cluster = o₂.get? k.cluster) :
    k ∈ (s.desired o₁ lookup).keys ↔ k ∈ (s.desired o₂ lookup).keys := by
  rw [Store.mem_desired_iff, Store.mem_desired_iff]
  refine exists_congr fun q => ⟨fun hd => ?_, fun hd => ?_⟩
  · exact ⟨hd.named, hd.space, h ▸ hd.related, hd.business⟩
  · exact ⟨hd.named, hd.space, h ▸ hd.related, hd.business⟩

/-! ## a lookup that fails -/

namespace Lookup

/-- An answer, or no business instead of a failure. -/
def forgiven (uid : String) : Except Error SpaceDetail → SpaceDetail
  | .ok a => a
  | .error _ => ⟨uid, 0⟩

/-- The lookup that answers no business, instead of a failure. -/
def forgiving (lookup : Lookup) : Lookup where
  answer uid := .ok (forgiven uid (lookup.answer uid))
  notes := lookup.notes

theorem businessOf_forgiving (lookup : Lookup) (uid : String) :
    Derivation.businessOf (lookup.forgiving.answer uid)
      = Derivation.businessOf (lookup.answer uid) := by
  show Derivation.businessOf (.ok (forgiven uid (lookup.answer uid))) = _
  cases lookup.answer uid <;> rfl

end Lookup

theorem Derivation.keys_run_forgiving (w : Registry) (overrides : Overrides) (lookup : Lookup) :
    (run w overrides lookup.forgiving).keys = (run w overrides lookup).keys := by
  have hrelations : w.relationsOf overrides lookup.forgiving = w.relationsOf overrides lookup := by
    funext project cluster
    unfold Registry.relationsOf
    rw [Lookup.businessOf_forgiving]
  have hrows : w.rowRelations overrides lookup.forgiving = w.rowRelations overrides lookup := by
    funext r
    unfold Registry.rowRelations
    rw [hrelations]
  rw [keys_run, keys_run]
  unfold Registry.uncached
  rw [hrows]

theorem Query.pass_forgiving (overrides : Overrides) (lookup : Lookup) (now : Int) :
    pass overrides lookup.forgiving now = pass overrides lookup now := by
  unfold pass
  simp only [Derivation.keys_run_forgiving]

theorem reconcile_error_forgiving (overrides : Overrides) (lookup : Lookup) (clock : Clock) (db : Db)
    (e : Error) : (reconcile overrides lookup clock db).1.result = .error e ↔
      (reconcile overrides lookup.forgiving clock db).1.result = .error e := by
  rw [reconcile_result, reconcile_result, Query.pass_forgiving]
  cases (Query.pass overrides lookup clock.now db).1 with
  | error x => exact Iff.rfl
  | ok c => exact ⟨nofun, nofun⟩

/-- A pass that ends with a report has stored the keys that are declared.  For two such passes on one
store: if their lookups differ only in the answer for one project, the stored keys differ only in
relations of clusters of this project to a business that was answered for it; and if their overrides
differ only at one cluster, the stored keys differ only in relations of this cluster.  Keys are counted
with their rows.  No pass fails because of its lookup: it does, and fails as, the same with a lookup
that answers no business instead of failing. -/
theorem faults_stay_local (s : Store) :
    (∀ overrides lookup u, Completed overrides lookup s u →
      ∀ k, k ∈ u.relationKeys ↔ ∃ project, s.Declares overrides lookup project k) ∧
    (∀ overrides l₁ l₂ project,
      (∀ uid, uid ≠ spaceUid .project project → l₁.answer uid = l₂.answer uid) →
      ∀ u₁ u₂, Completed overrides l₁ s u₁ → Completed overrides l₂ s u₂ →
      ∀ k, u₁.relationKeys.count k ≠ u₂.relationKeys.count k →
        (s.ContainerKey l₁ project k ∧ k ∉ u₂.relationKeys) ∨
          (s.ContainerKey l₂ project k ∧ k ∉ u₁.relationKeys)) ∧
    (∀ lookup o₁ o₂ cluster, (∀ c, c ≠ cluster → o₁.get? c = o₂.get? c) →
      ∀ u₁ u₂, Completed o₁ lookup s u₁ → Completed o₂ lookup s u₂ →
      ∀ k, u₁.relationKeys.count k ≠ u₂.relationKeys.count k → k.cluster = cluster) ∧
    ∀ overrides lookup clock db,
      let run := reconcile overrides lookup clock db
      let calm := reconcile overrides lookup.forgiving clock db
      (∀ uid, ∃ a, lookup.forgiving.answer uid = .ok a) ∧
      (db.Reliable → ∃ report, run.1.result = .ok report) ∧
      run.2 = calm.2 ∧ ∀ e, run.1.result = .error e ↔ calm.1.result = .error e := by
  refine ⟨fun overrides lookup u h k => (h.mem_iff k).trans Store.mem_desired_iff,
    fun overrides l₁ l₂ project hsame u₁ u₂ h₁ h₂ k hk => ?_,
    fun lookup o₁ o₂ cluster hsame u₁ u₂ h₁ h₂ k hk => ?_,
    fun overrides lookup clock db => ⟨fun _ => ⟨_, rfl⟩, reconcile_reliable, ?_, fun e => ?_⟩⟩
  · rcases h₁.differ h₂ hk with ⟨hin, hout⟩ | ⟨hin, hout⟩
    · exact .inl ⟨containerKey_of_desired hsame hin hout, mt (h₂.mem_iff k).1 hout⟩
    · refine .inr ⟨containerKey_of_desired (fun uid hu => (hsame uid hu).symm) hin hout, ?_⟩
      exact mt (h₁.mem_iff k).1 hout
  · by_contra hne
    have hiff : k ∈ (s.desired o₁ lookup).keys ↔ k ∈ (s.desired o₂ lookup).keys :=
      mem_desired_congr (hsame k.cluster hne)
    rcases h₁.differ h₂ hk with ⟨hin, hout⟩ | ⟨hin, hout⟩
    · exact hout (hiff.1 hin)
    · exact hout (hiff.2 hin)
  · rw [reconcile_snd, reconcile_snd, Query.pass_forgiving]
  · exact reconcile_error_forgiving overrides lookup clock db e

end Linkage
