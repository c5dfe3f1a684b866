import Linkage.Proofs.Rebuild.Batch

/-!
# What a link owns it keeps

Batches over any scopes are tried one after the other, dry or not, and statements may fail in each
of them.

* `Attempt`          a batch with the failures it meets;
* `Store.history`    the stores that batches pass through, one after each data-bus;
* `owned_forever`    a component that has an owner in one of them has it in all later ones.
-/

namespace Linkage

/-- each store of a batch keeps what the ones before it have, and the last one what any has -/
theorem Batch.pairwise_keeps {scope : Scope} {dryRun : Bool} {now : Int} {s : Store}
    {vs : List Visit} (h : Batch scope dryRun now s vs) :
    (s :: vs.map Visit.after).Pairwise Store.Keeps ∧
      ∀ u ∈ s :: vs.map Visit.after, u.Keeps (Visit.storeAfter s vs) := by
  induction h with
  | nil s =>
    refine ⟨List.pairwise_singleton _ s, fun u hu => ?_⟩
    rw [List.mem_singleton.1 hu]
    exact .refl s
  | @cons v vs hv hvs ih =>
    obtain ⟨hafter, hlast⟩ := (Batch.cons hv hvs).keeps
    refine ⟨List.pairwise_cons.2 ⟨fun u hu => ?_, ih.1⟩, fun u hu => ?_⟩
    · obtain ⟨w, hw, rfl⟩ := List.mem_map.1 hu
      exact hafter w hw
    · rcases List.mem_cons.1 hu with rfl | hu
      · exact hlast
      · exact ih.2 u hu

/-- A batch as it is tried: which row operations are refused during it, and at which of its
statements the database is out of reach. -/
structure Attempt where
  scope : Scope
  dryRun : Bool
  clock : Clock
  guards : List (TableName × RowEvent)
  outage : Nat → Bool

namespace Attempt

/-- The database that the batch runs on. -/
def db (a : Attempt) (s : Store) : Db := ⟨s, a.guards, a.outage, 0⟩

def visits (a : Attempt) (s : Store) : List Visit :=
  Linkage.visits a.scope a.dryRun a.clock (a.db s)

/-- The store that the batch leaves, whether it fails or not. -/
def store (a : Attempt) (s : Store) : Store :=
  (rebuild a.scope a.dryRun a.clock (a.db s)).2.store

theorem store_eq (a : Attempt) (s : Store) : a.store s = Visit.storeAfter s (a.visits s) :=
  rebuild_store a.scope a.dryRun a.clock (a.db s)

theorem batch (a : Attempt) (s : Store) : Batch a.scope a.dryRun a.clock.now s (a.visits s) :=
  batch_visits a.scope a.dryRun a.clock (a.db s)

end Attempt

namespace Store

/-- The stores that batches pass through: the first one, one after each data-bus, and the one that
each batch ends with. -/
def history (s : Store) : List Attempt → List Store
  | [] => [s]
  | a :: as => s :: ((a.visits s).map Visit.after ++ history (a.store s) as)

/-- all stores keep what the first one has -/
theorem keeps_of_mem_history {s u : Store} {as : List Attempt} (h : u ∈ s.history as) :
    s.Keeps u := by
  induction as generalizing s with
  | nil =>
    rw [List.mem_singleton.1 h]
    exact .refl s
  | cons a as ih =>
    obtain ⟨hafter, hlast⟩ := (a.batch s).keeps
    rcases List.mem_cons.1 h with rfl | h
    · exact .refl u
    · rcases List.mem_append.1 h with h | h
      · obtain ⟨v, hv, rfl⟩ := List.mem_map.1 h
        exact hafter v hv
      · rw [← a.store_eq] at hlast
        exact hlast.trans (ih h)

theorem pairwise_history (s : Store) (as : List Attempt) : (s.history as).Pairwise Keeps := by
  induction as generalizing s with
  | nil => exact List.pairwise_singleton _ s
  | cons a as ih =>
    obtain ⟨hwithin, hlast⟩ := (a.batch s).pairwise_keeps
    rw [← a.store_eq] at hlast
    show (s :: (a.visits s).map Visit.after ++ (a.store s).history as).Pairwise Keeps
    rw [List.pairwise_append]
    exact ⟨hwithin, ih _, fun u hu w hw => (hlast u hu).trans (keeps_of_mem_history hw)⟩

end Store

/-- A data-bus, sink or result table that a link owns is the same in every later store. -/
theorem owned_forever (s : Store) (as : List Attempt) : (s.history as).Pairwise fun u v =>
    (∀ b ∈ u.buses.rows, b.val.owner ≠ "" → b ∈ v.buses.rows) ∧
      (∀ k, ∀ x ∈ (u.sinks.get k).rows, x.val.owner ≠ "" → x ∈ (v.sinks.get k).rows) ∧
      ∀ t ∈ u.resultTables.rows, t.val.owner ≠ "" → t ∈ v.resultTables.rows := by
  refine (s.pairwise_history as).imp fun h => ⟨fun b hb ho => ?_, fun k x hx ho => ?_,
    fun t ht ho => ?_⟩
  · exact h.buses.mem_of_owned hb ho
  · exact (h.sinks k).mem_of_owned hx ho
  · exact h.resultTables.mem_of_owned ht ho

end Linkage
