import Linkage.Proofs.Rebuild.Writing

/-!
# Which owners a data-bus that is linked replaces

A data-bus can be handed over by its record, whatever link owns it and however long ago it was read.
The checks look at its sinks and result tables, but not at the data-bus itself.

* `rebuildBus_stamping`   whatever statements fail, the store is as it was or the rows are stamped;
* `owner_replaced_iff`    sinks and result tables keep their owners; a data-bus loses its own when it
                          is linked;
* `owned_bus_replaced`    so a data-bus that a link owns is given to another one.
-/

namespace Linkage

/-- A record of a data-bus that is looked at leaves the store as it was, or is linked: then the link
is given to what it resolves to, and to the row of its id. -/
theorem rebuildBus_stamping (dryRun : Bool) (now : Int) (b : Row Bus) (db : Db) :
    (Query.rebuildBus dryRun now b db).2.store = db.store ∨
      ∃ r, dryRun = false ∧ db.store.resolve b.val = .ok r ∧
        db.store.Stamping b r (Query.rebuildBus dryRun now b db).2.store := by
  cases hrun : (Query.rebuildBus dryRun now b db).1 with
  | error e => exact .inl (Query.atomic_rebuildBus dryRun now b db e hrun)
  | ok a =>
    have hdid := congrArg Prod.snd ((Query.Means.rebuildBus dryRun now b).sound db a hrun)
    rw [← show _ = (Query.rebuildBus dryRun now b db).2.store from hdid]
    unfold Store.rebuildBus
    cases hr : db.store.resolve b.val with
    | error e => exact .inl rfl
    | ok r =>
      cases dryRun with
      | true => exact .inl rfl
      | false =>
        exact .inr ⟨r, rfl, rfl, Store.stamping_commitLink (Store.resolved_of_resolve hr) now⟩

section
variable {δ : Type} {t u : Table (Component.key (δ := δ))} {p : Row (Component δ) → Prop}
  {owner : String}

/-- a row is gone when it was given an owner that it did not have -/
theorem Table.Marked.not_mem_iff (h : t.Marked u p owner) {x : Row (Component δ)}
    (hx : x ∈ t.rows) : x ∉ u.rows ↔ p x ∧ x.val.owner ≠ owner := by
  rw [h.mem_iff]
  constructor
  · intro hgone
    by_cases hpx : p x
    · refine ⟨hpx, fun howner => hgone ⟨x, hx, .inl ⟨hpx, ?_⟩⟩⟩
      rw [← howner, Component.own_self]
    · exact absurd ⟨x, hx, .inr ⟨hpx, rfl⟩⟩ hgone
  · rintro ⟨hpx, howner⟩ ⟨a, ha, ⟨hpa, he⟩ | ⟨hpa, he⟩⟩
    · exact howner (by rw [he]; rfl)
    · exact hpa (he ▸ hpx)

end

/-- Whatever record of a data-bus is handed over, and whatever statements fail, a sink or a result table
that a link owns stays as it is.  A row of a data-bus does not: when no statement fails, it gets
another owner exactly if the record has its id, no reason to leave the record alone applies, and the
row is not owned by this link already.  No such reason asks who owns the data-bus. -/
theorem owner_replaced_iff (now : Int) (b : Row Bus) :
    (∀ dryRun db, let u := (Query.rebuildBus dryRun now b db).2.store
      (∀ k, ∀ x ∈ (db.store.sinks.get k).rows, x.val.owner ≠ "" → x ∈ (u.sinks.get k).rows) ∧
        ∀ t ∈ db.store.resultTables.rows, t.val.owner ≠ "" → t ∈ u.resultTables.rows) ∧
    ∀ s, ∀ x ∈ s.buses.rows, x ∉ (Query.rebuildBus false now b (.of s)).2.store.buses.rows ↔
      x.id = b.id ∧ x.val.owner ≠ b.val.scope.linkName b.val.name ∧ ∀ r, ¬s.Applies b.val r := by
  refine ⟨fun dryRun db => ?_, fun s x hx => ?_⟩
  · rcases rebuildBus_stamping dryRun now b db with hsame | ⟨r, -, hr, hstamps⟩
    · rw [hsame]
      exact ⟨fun _ _ hx _ => hx, fun _ ht _ => ht⟩
    · have hres := Store.resolved_of_resolve hr
      refine ⟨fun k x hx ho => ?_, fun t ht ho => ?_⟩
      · by_contra hgone
        exact ho (hres.sink_unowned _ (((hstamps.sinks k).not_mem_iff hx).1 hgone).1)
      · by_contra hgone
        exact ho (hres.table_unowned _ ((hstamps.resultTables.not_mem_iff ht).1 hgone).1)
  · obtain ⟨a, hrun⟩ := (Query.Means.rebuildBus false now b).total (.of s) (Db.reliable_of s)
    have hdid := congrArg Prod.snd ((Query.Means.rebuildBus false now b).sound (.of s) a hrun)
    rw [← show _ = (Query.rebuildBus false now b (.of s)).2.store from hdid,
      ← (Store.decides_resolve s b.val).ok_iff]
    show x ∉ (s.rebuildBus false now b).2.buses.rows ↔ _
    unfold Store.rebuildBus
    cases hr : s.resolve b.val with
    | error e => exact ⟨fun hgone => absurd hx hgone, fun ⟨_, _, _, h⟩ => nomatch h⟩
    | ok r =>
      have hres := Store.resolved_of_resolve hr
      have hstamps := Store.stamping_commitLink hres now
      show x ∉ (s.commitLink (r.commit b) now).2.buses.rows ↔ _
      rw [hstamps.buses.not_mem_iff hx, hres.link]
      exact and_congr_right fun _ => (and_iff_left ⟨r, rfl⟩).symm

/-- A store in which a link owns a data-bus, but neither its sink nor its result table. -/
def Store.owned : Store :=
  { Store.pipeline with
    buses := .single ⟨⟨"t", "n"⟩, "bus", "other_link",
      ⟨7, "[\"ElasticSearchBinding:sink\"]"⟩⟩ }

/-- the link of a stored data-bus is replaced by another one -/
theorem owned_bus_replaced : ∃ b ∈ Store.owned.buses.rows, b.val.owner = "other_link" ∧
    ∃ x ∈ (Query.rebuildBus false 9 b (.of .owned)).2.store.buses.rows,
      x.id = b.id ∧ x.val.owner = "rebuilt__t__n__bus" := by
  let b : Row Bus :=
    ⟨1, ⟨⟨"t", "n"⟩, "bus", "other_link", ⟨7, "[\"ElasticSearchBinding:sink\"]"⟩⟩⟩
  obtain ⟨a, hrun⟩ := (Query.Means.rebuildBus false 9 b).total (.of .owned) (Db.reliable_of _)
  have hdid := congrArg Prod.snd ((Query.Means.rebuildBus false 9 b).sound (.of .owned) a hrun)
  refine ⟨b, List.mem_cons_self, rfl, ⟨1, b.val.own "rebuilt__t__n__bus"⟩, ?_, rfl, rfl⟩
  rw [← show _ = (Query.rebuildBus false 9 b (.of .owned)).2.store from hdid]
  decide +kernel

end Linkage
