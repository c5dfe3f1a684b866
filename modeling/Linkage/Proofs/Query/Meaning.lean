import Linkage.Store.Query

/-!
# What a query means when no statement fails

A query runs on a database that may fail at any statement.  Its meaning is a function of the store
alone, and says what a run does that does not fail:

* `Db.Reliable`          a database on which no statement fails;
* `Query.Means q f`      a run of `q` that answers does what `f` says, and on a reliable database
                         every run answers;
* `Query.Observes q f`   the same for a query that changes nothing, whether it answers or fails;
* `Query.Atomic q`       a run that fails changes nothing.

`Means.bind` and its siblings put the meaning of a query together from those of its statements.
-/

namespace Linkage

/-- No row operation is refused, and the database is always in reach. -/
structure Db.Reliable (db : Db) : Prop where
  guards : db.guards = []
  outage : ∀ n, db.outage n = false

/-- A database with the rows of a store, on which no statement fails. -/
def Db.of (s : Store) : Db := ⟨s, [], fun _ => false, 0⟩

theorem Db.reliable_of (s : Store) : (Db.of s).Reliable := ⟨rfl, fun _ => rfl⟩

theorem Db.Reliable.congr {a b : Db} (h : a.Reliable) (hg : b.guards = a.guards)
    (ho : b.outage = a.outage) : b.Reliable :=
  ⟨hg.trans h.guards, fun n => by rw [ho]; exact h.outage n⟩

namespace Query

section
variable {α β : Type}

/-- `f` says what `q` answers and what store it leaves, whenever no statement fails. -/
structure Means (q : Query α) (f : Store → α × Store) : Prop where
  guards : ∀ db, (q db).2.guards = db.guards
  outage : ∀ db, (q db).2.outage = db.outage
  sound : ∀ db a, (q db).1 = .ok a → f db.store = (a, (q db).2.store)
  total : ∀ db, db.Reliable → ∃ a, (q db).1 = .ok a

/-- `f` says what `q` answers, and `q` never changes the store. -/
structure Observes (q : Query α) (f : Store → α) : Prop where
  guards : ∀ db, (q db).2.guards = db.guards
  outage : ∀ db, (q db).2.outage = db.outage
  store : ∀ db, (q db).2.store = db.store
  sound : ∀ db a, (q db).1 = .ok a → a = f db.store
  total : ∀ db, db.Reliable → ∃ a, (q db).1 = .ok a

/-- A run that fails leaves the store as it was. -/
def Atomic (q : Query α) : Prop := ∀ db e, (q db).1 = .error e → (q db).2.store = db.store

theorem eq_mk_of_fst {q : Query α} {db : Db} {r : Except Error α} (h : (q db).1 = r) :
    q db = (r, (q db).2) := by rw [← h]

/-- a query that follows another one runs on what that one has left, unless it has failed -/
theorem bind_cases (q : Query α) (g : α → Query β) (db : Db) :
    (∃ e, (q db).1 = .error e ∧ (q.bind g) db = (.error e, (q db).2)) ∨
      ∃ a, (q db).1 = .ok a ∧ (q.bind g) db = g a (q db).2 := by
  unfold bind
  cases h : q db with
  | mk r db' =>
    cases r with
    | error e => exact .inl ⟨e, rfl, rfl⟩
    | ok a => exact .inr ⟨a, rfl, rfl⟩

/-! ## one statement -/

theorem statement_frame (f : List (TableName × RowEvent) → Store → Except Error (α × Store))
    (db : Db) : (statement f db).2.guards = db.guards ∧ (statement f db).2.outage = db.outage := by
  unfold statement
  simp only
  split
  · exact ⟨rfl, rfl⟩
  · split <;> exact ⟨rfl, rfl⟩

theorem atomic_statement (f : List (TableName × RowEvent) → Store → Except Error (α × Store)) :
    Atomic (statement f) :=
  fun _ _ h => statement_error (eq_mk_of_fst h)

/-- a write that answers was let through by the guards -/
theorem write_ok {touches : Store → List (TableName × RowEvent)}
    {f : Store → Except Error (α × Store)} {db : Db} {a : α} (h : (write touches f db).1 = .ok a) :
    f db.store = .ok (a, (write touches f db).2.store) := by
  cases hr : write touches f db with
  | mk r after =>
    rw [hr] at h
    cases h
    unfold write statement at hr
    simp only at hr
    split at hr
    · cases hr
    · split at hr
      · rename_i hb
        cases hr
        split at hb
        · cases hb
        · exact hb
      · cases hr

theorem write_reliable {touches : Store → List (TableName × RowEvent)}
    {f : Store → Except Error (α × Store)} {db : Db} {a : α} {s : Store} (h : db.Reliable)
    (hf : f db.store = .ok (a, s)) : (write touches f db).1 = .ok a := by
  have hg : (touches db.store).any db.guards.contains = false := by
    rw [h.guards]
    simp
  unfold write statement
  simp only [h.outage, hg, hf]
  rfl

theorem Means.write {touches : Store → List (TableName × RowEvent)}
    {f : Store → Except Error (α × Store)} {g : Store → α × Store} (h : ∀ s, f s = .ok (g s)) :
    Means (write touches f) g where
  guards db := (statement_frame _ db).1
  outage db := (statement_frame _ db).2
  sound db a ha := by
    have h1 := write_ok ha
    rw [h db.store] at h1
    exact Except.ok.inj h1
  total db hdb := ⟨(g db.store).1, write_reliable hdb (h db.store)⟩

theorem Observes.read (f : Store → α) : Observes (read f) f where
  guards db := (statement_frame _ db).1
  outage db := (statement_frame _ db).2
  store := read_store f
  sound db a ha := by
    unfold Query.read statement at ha
    simp only at ha
    split at ha
    · cases ha
    · exact (Except.ok.inj ha).symm
  total db hdb := ⟨f db.store, by
    unfold Query.read statement
    simp only [hdb.outage]
    rfl⟩

/-! ## queries put together -/

theorem Observes.means {q : Query α} {f : Store → α} (h : Observes q f) :
    Means q fun s => (f s, s) where
  guards := h.guards
  outage := h.outage
  sound db a ha := by rw [h.store, h.sound db a ha]
  total := h.total

theorem Observes.atomic {q : Query α} {f : Store → α} (h : Observes q f) : Atomic q :=
  fun db _ _ => h.store db

theorem Observes.congr {q : Query α} {f g : Store → α} (h : Observes q f) (e : ∀ s, f s = g s) :
    Observes q g := by
  rwa [← funext e]

theorem Means.congr {q : Query α} {f g : Store → α × Store} (h : Means q f) (e : ∀ s, f s = g s) :
    Means q g := by
  rwa [← funext e]

theorem Observes.pure (a : α) : Observes (pure a) fun _ => a where
  guards _ := rfl
  outage _ := rfl
  store _ := rfl
  sound _ _ h := (Except.ok.inj h).symm
  total _ _ := ⟨a, rfl⟩

theorem Means.pure (a : α) : Means (pure a) fun s => (a, s) := (Observes.pure a).means

/-- the second query need only have a meaning for what the first one answers -/
theorem Means.bind_of {q : Query α} {f : Store → α × Store} {g : α → Query β}
    {k : Store → β × Store} (hq : Means q f)
    (hg : ∀ s, ∃ k', Means (g (f s).1) k' ∧ k' (f s).2 = k s) : Means (q.bind g) k := by
  have hok : ∀ db a, (q db).1 = .ok a → a = (f db.store).1 ∧ (q db).2.store = (f db.store).2 := by
    intro db a h
    rw [hq.sound db a h]
    exact ⟨rfl, rfl⟩
  refine ⟨fun db => ?_, fun db => ?_, fun db b hb => ?_, fun db hdb => ?_⟩
  · obtain ⟨k', hk, _⟩ := hg db.store
    rcases bind_cases q g db with ⟨e, _, h⟩ | ⟨a, ha, h⟩
    · rw [h]
      exact hq.guards db
    · rw [h, (hok db a ha).1, hk.guards]
      exact hq.guards db
  · obtain ⟨k', hk, _⟩ := hg db.store
    rcases bind_cases q g db with ⟨e, _, h⟩ | ⟨a, ha, h⟩
    · rw [h]
      exact hq.outage db
    · rw [h, (hok db a ha).1, hk.outage]
      exact hq.outage db
  · obtain ⟨k', hk, hs⟩ := hg db.store
    rcases bind_cases q g db with ⟨e, _, h⟩ | ⟨a, ha, h⟩
    · rw [h] at hb
      cases hb
    · obtain ⟨rfl, hstore⟩ := hok db a ha
      rw [h] at hb ⊢
      rw [← hs, ← hstore]
      exact hk.sound _ b hb
  · obtain ⟨k', hk, _⟩ := hg db.store
    have hafter : (q db).2.Reliable := hdb.congr (hq.guards db) (hq.outage db)
    obtain ⟨b, hb⟩ := hk.total _ hafter
    rcases bind_cases q g db with ⟨e, he, _⟩ | ⟨a, ha, h⟩
    · obtain ⟨a, ha⟩ := hq.total db hdb
      rw [he] at ha
      cases ha
    · rw [h, (hok db a ha).1]
      exact ⟨b, hb⟩

theorem Means.bind {q : Query α} {f : Store → α × Store} {g : α → Query β}
    {k : α → Store → β × Store} (hq : Means q f) (hg : ∀ a, Means (g a) (k a)) :
    Means (q.bind g) fun s => k (f s).1 (f s).2 :=
  hq.bind_of fun s => ⟨k (f s).1, hg _, rfl⟩

theorem Observes.bind {q : Query α} {f : Store → α} {g : α → Query β} {k : α → Store → β}
    (hq : Observes q f) (hg : ∀ a, Observes (g a) (k a)) :
    Observes (q.bind g) fun s => k (f s) s where
  guards := (hq.means.bind fun a => (hg a).means).guards
  outage := (hq.means.bind fun a => (hg a).means).outage
  store db := by
    rcases bind_cases q g db with ⟨e, _, h⟩ | ⟨a, _, h⟩
    · rw [h]
      exact hq.store db
    · rw [h, (hg a).store]
      exact hq.store db
  sound db b hb := (congrArg Prod.fst ((hq.means.bind fun a => (hg a).means).sound db b hb)).symm
  total := (hq.means.bind fun a => (hg a).means).total

theorem Observes.bind_atomic {q : Query α} {f : Store → α} {g : α → Query β} (hq : Observes q f)
    (hg : ∀ a, Atomic (g a)) : Atomic (q.bind g) := by
  intro db e he
  rcases bind_cases q g db with ⟨_, _, h⟩ | ⟨a, _, h⟩
  · rw [h]
    exact hq.store db
  · rw [h] at he ⊢
    rw [hg a _ e he]
    exact hq.store db

theorem Atomic.bind_pure {q : Query α} (hq : Atomic q) (g : α → β) :
    Atomic (q.bind fun a => Query.pure (g a)) := by
  intro db e he
  rcases bind_cases q (fun a => Query.pure (g a)) db with ⟨e', hfail, h⟩ | ⟨a, _, h⟩
  · rw [h]
    exact hq db e' hfail
  · rw [h] at he
    cases he

/-! ## transactions -/

theorem atomic_transaction (q : Query α) : Atomic (transaction q) :=
  fun _ _ h => transaction_error (eq_mk_of_fst h)

/-- a transaction runs the query between its two marks, and takes a failure back -/
theorem transaction_cases (q : Query α) (db : Db) :
    transaction q db = (mark.bind fun _ => q.bind fun a => mark.bind fun _ => pure a) db ∨
      ∃ e after, (mark.bind fun _ => q.bind fun a => mark.bind fun _ => pure a) db
          = (.error e, after) ∧
        transaction q db = (.error e, { after with store := db.store }) := by
  unfold transaction
  split
  · rename_i h
    exact .inl h.symm
  · rename_i e after h
    exact .inr ⟨e, after, h, rfl⟩

theorem Means.transaction {q : Query α} {f : Store → α × Store} (h : Means q f) :
    Means (transaction q) f := by
  have h1 : Means (mark.bind fun _ => q.bind fun a => mark.bind fun _ => Query.pure a) f :=
    (Observes.read fun _ => ()).means.bind fun _ =>
      h.bind fun a => (Observes.read fun _ => ()).means.bind fun _ => Means.pure a
  refine ⟨fun db => ?_, fun db => ?_, fun db a ha => ?_, fun db hdb => ?_⟩
  · have hguards := h1.guards db
    rcases transaction_cases q db with h' | ⟨e, after, he, h'⟩
    · rwa [h']
    · rw [he] at hguards
      rwa [h']
  · have houtage := h1.outage db
    rcases transaction_cases q db with h' | ⟨e, after, he, h'⟩
    · rwa [h']
    · rw [he] at houtage
      rwa [h']
  · rcases transaction_cases q db with h' | ⟨e, after, _, h'⟩
    · rw [h'] at ha ⊢
      exact h1.sound db a ha
    · rw [h'] at ha
      cases ha
  · obtain ⟨a, ha⟩ := h1.total db hdb
    rcases transaction_cases q db with h' | ⟨e, after, he, _⟩
    · rw [h']
      exact ⟨a, ha⟩
    · rw [he] at ha
      cases ha

theorem Observes.transaction {q : Query α} {f : Store → α} (h : Observes q f) :
    Observes (transaction q) f where
  guards := h.means.transaction.guards
  outage := h.means.transaction.outage
  store db := by
    cases hr : (Query.transaction q db).1 with
    | error e => exact atomic_transaction q db e hr
    | ok a => exact (congrArg Prod.snd (h.means.transaction.sound db a hr)).symm
  sound db a ha := (congrArg Prod.fst (h.means.transaction.sound db a ha)).symm
  total := h.means.transaction.total

theorem Means.skipIf {q : Query α} {f : Store → α × Store} {nothing : Bool} {a : α}
    (h : Means q f) (hn : nothing = true → ∀ s, f s = (a, s)) : Means (skipIf nothing a q) f := by
  unfold Query.skipIf
  cases nothing with
  | true => exact (Means.pure a).congr fun s => (hn rfl s).symm
  | false => exact h

theorem Observes.skipIf {q : Query α} {f : Store → α} {nothing : Bool} {a : α}
    (h : Observes q f) (hn : nothing = true → ∀ s, f s = a) : Observes (skipIf nothing a q) f := by
  unfold Query.skipIf
  cases nothing with
  | true => exact (Observes.pure a).congr fun s => (hn rfl s).symm
  | false => exact h

end

end Query
end Linkage
