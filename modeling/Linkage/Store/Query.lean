import Linkage.Store.Basic

/-!
# Statements and transactions

A query runs statements against the store.  A statement can fail: the database can be out of reach
at any one of them, it refuses a taken key, and it refuses row operations that are guarded.  A
failed statement changes nothing.

* `Query.read`, `Query.write`   one statement;
* `Query.transaction`           all effects of a query, or none if it fails;
* `Query.trial`                 a query whose effects are undone;
* `transaction_error`           a failed transaction leaves the store as it was.
-/

namespace Linkage

/-- A store that answers statements. -/
structure Db where
  store : Store
  /-- the row operations that are refused -/
  guards : List (TableName × RowEvent)
  /-- the statements, by number, at which the database is out of reach -/
  outage : Nat → Bool
  /-- the number of statements run so far -/
  clock : Nat

/-- The store without rows, always in reach. -/
def Db.empty : Db := ⟨.empty, [], fun _ => false, 0⟩

/-- A computation over a store that may fail. -/
def Query (α : Type) : Type := Db → Except Error α × Db

namespace Query

section
variable {α β : Type}

/-- The query that runs no statement. -/
def pure (a : α) : Query α := fun db => (.ok a, db)

/-- One query after the other, the second only if the first succeeds. -/
def bind (q : Query α) (f : α → Query β) : Query β := fun db =>
  match q db with
  | (.ok a, db) => f a db
  | (.error e, db) => (.error e, db)

instance : Monad Query where
  pure := Query.pure
  bind := Query.bind

def fail (e : Error) : Query α := fun db => (.error e, db)

/-- The error of a statement that the database does not run. -/
def unreachable : Error := .store (.database "the database is out of reach")

/-- The error of a taken key. -/
def taken : Error := .store (.database "the key is taken")

/-- The error of a guarded row operation. -/
def refused : Error := .store (.database "the row operation is refused")

/-- One statement; it sees the guards, and it fails where the database is out of reach. -/
def statement (f : List (TableName × RowEvent) → Store → Except Error (α × Store)) : Query α :=
  fun db =>
    let after := { db with clock := db.clock + 1 }
    if db.outage db.clock then (.error unreachable, after)
    else match f db.guards db.store with
      | .ok (a, s) => (.ok a, { after with store := s })
      | .error e => (.error e, after)

def read (f : Store → α) : Query α := statement fun _ s => .ok (f s, s)

/-- A statement that writes; `touches` are the row operations it does. -/
def write (touches : Store → List (TableName × RowEvent))
    (f : Store → Except Error (α × Store)) : Query α :=
  statement fun guards s =>
    if (touches s).any guards.contains then .error refused else f s

/-- A statement without an effect, as at the two ends of a transaction. -/
def mark : Query Unit := read fun _ => ()

/-- All effects of a query, or none if it fails. -/
def transaction (q : Query α) : Query α := fun db =>
  match (mark.bind fun _ => q.bind fun a => mark.bind fun _ => pure a) db with
  | (.ok a, after) => (.ok a, after)
  | (.error e, after) => (.error e, { after with store := db.store })

/-- A query whose effects are undone. -/
def trial (q : Query α) : Query α := fun db =>
  match q db with
  | (r, after) => (r, { after with store := db.store })

/-- The outcome of a query as a value; what it did before it failed stays done. -/
def attempt (q : Query α) : Query (Except Error α) := fun db =>
  match q db with
  | (r, after) => (.ok r, after)

/-- A query that is not run when there is nothing to do. -/
def skipIf (nothing : Bool) (a : α) (q : Query α) : Query α := if nothing then pure a else q

/-- a failed statement changes nothing -/
theorem statement_error {f : List (TableName × RowEvent) → Store → Except Error (α × Store)}
    {db after : Db} {e : Error} (h : statement f db = (.error e, after)) :
    after.store = db.store := by
  unfold statement at h
  simp only at h
  split at h
  · cases h; rfl
  · split at h
    · cases h
    · cases h; rfl

/-- a statement that only reads changes nothing -/
theorem read_store (f : Store → α) (db : Db) : (read f db).2.store = db.store := by
  unfold read statement
  simp only
  split <;> rfl

/-- a failed transaction leaves the store as it was -/
theorem transaction_error {q : Query α} {db after : Db} {e : Error}
    (h : transaction q db = (.error e, after)) : after.store = db.store := by
  unfold transaction at h
  split at h
  · cases h
  · cases h; rfl

end

end Query

section
variable {α β : Type}

/-- The number of rows that one statement takes. -/
def batchSize : Nat := 500

/-- The list in parts of `batchSize`, the last one shorter. -/
def batches (xs : List α) : List (List α) :=
  if xs = [] then [] else xs.take batchSize :: batches (xs.drop batchSize)
termination_by xs.length
decreasing_by
  rename_i h
  have : xs.length ≠ 0 := fun h0 => h (List.eq_nil_of_length_eq_zero h0)
  simp only [List.length_drop, batchSize]
  omega

theorem flatten_batches (xs : List α) : (batches xs).flatten = xs := by
  fun_induction batches xs with
  | case1 => rfl
  | case2 xs _ ih => rw [List.flatten_cons, ih, List.take_append_drop]

/-- The results of a query on each part, one after the other. -/
def Query.each (q : List α → Query (List β)) : List (List α) → Query (List β)
  | [] => Query.pure []
  | xs :: rest => (q xs).bind fun ys => (each q rest).bind fun zs => Query.pure (ys ++ zs)

/-- The sum of the counts of a query on each part. -/
def Query.total (q : List α → Query Nat) : List (List α) → Query Nat
  | [] => Query.pure 0
  | xs :: rest => (q xs).bind fun n => (total q rest).bind fun m => Query.pure (n + m)

end
end Linkage
