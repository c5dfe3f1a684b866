import Linkage.Proofs.Query.Bulk
import Linkage.Proofs.Query.Calm

/-!
# The statements of a query, one by one

The statements that a query runs are counted from zero.  How many there are depends on the store it
finds; a run that fails ends with the statement that has failed.

* `Query.Runs q c left`   `q` runs `c s` statements on the store `s`, and when the statement `n` of
                          them fails, `q` fails and leaves the store `left s n`;
* `Runs.fails`            when the database is out of reach at one of them, `q` fails there or before;
* `Runs.bind`, `Runs.transaction`, `Runs.total`   the statements of a query from those of its parts.
-/

namespace Linkage.Query

section
variable {α β : Type}

/-- On the store `s` the query runs `c s` statements; if it fails at the statement `n`, it leaves the
store `left s n`. -/
structure Runs (q : Query α) (c : Store → Nat) (left : Store → Nat → Store) : Prop where
  outage : ∀ db, (q db).2.outage = db.outage
  answers : ∀ db a, (q db).1 = .ok a → (q db).2.clock = db.clock + c db.store
  stops : ∀ db e, (q db).1 = .error e → ∃ n, n < c db.store ∧
    (q db).2.clock = db.clock + n + 1 ∧ (q db).2.store = left db.store n
  /-- no statement is run after one at which the database is out of reach -/
  reach : ∀ db n, db.clock ≤ n → n < (q db).2.clock → db.outage n = true →
    ∃ e, (q db).1 = .error e ∧ (q db).2.clock = n + 1

variable {q : Query α} {c : Store → Nat} {left : Store → Nat → Store}

theorem Runs.congr {c' : Store → Nat} {left' : Store → Nat → Store} (h : Runs q c left)
    (hc : ∀ s, c s = c' s) (hl : ∀ s n, n < c s → left s n = left' s n) : Runs q c' left' where
  outage := h.outage
  answers db a ha := by
    rw [← hc]
    exact h.answers db a ha
  stops db e he := by
    obtain ⟨n, hn, hclock, hstore⟩ := h.stops db e he
    rw [← hc]
    exact ⟨n, hn, hclock, hstore.trans (hl db.store n hn)⟩
  reach := h.reach

/-- out of reach at one of its statements, a query fails there or before -/
theorem Runs.fails (h : Runs q c left) {db : Db} {n : Nat} (hn : n < c db.store)
    (ho : db.outage (db.clock + n) = true) :
    ∃ e, (q db).1 = .error e ∧ (q db).2.clock ≤ db.clock + n + 1 := by
  by_cases hrun : db.clock + n < (q db).2.clock
  · obtain ⟨e, he, hclock⟩ := h.reach db _ (Nat.le_add_right _ _) hrun ho
    exact ⟨e, he, Nat.le_of_eq hclock⟩
  · cases hr : (q db).1 with
    | error e => exact ⟨e, rfl, by omega⟩
    | ok a =>
      have hclock := h.answers db a hr
      omega

/-! ## one statement -/

theorem Runs.statement (f : List (TableName × RowEvent) → Store → Except Error (α × Store)) :
    Runs (statement f) (fun _ => 1) fun s _ => s := by
  refine ⟨fun db => (statement_frame f db).2, fun db _ _ => clock_statement f db, fun db e he => ?_,
    fun db n hn hlt ho => ?_⟩
  · exact ⟨0, Nat.one_pos, clock_statement f db, atomic_statement f db e he⟩
  · rw [clock_statement] at hlt
    have hsame : n = db.clock := by omega
    rw [hsame] at ho
    refine ⟨unreachable, ?_, by rw [clock_statement, hsame]⟩
    unfold Query.statement
    simp only [ho]
    rfl

theorem Runs.read (f : Store → α) : Runs (read f) (fun _ => 1) fun s _ => s := Runs.statement _

theorem Runs.write (touches : Store → List (TableName × RowEvent))
    (f : Store → Except Error (α × Store)) : Runs (write touches f) (fun _ => 1) fun s _ => s :=
  Runs.statement _

/-! ## queries put together -/

theorem Runs.pure (a : α) (left : Store → Nat → Store) : Runs (pure a) (fun _ => 0) left where
  outage _ := rfl
  answers _ _ _ := rfl
  stops _ _ h := by cases h
  reach db n hn hlt _ := by
    have hsame : (Query.pure a db).2.clock = db.clock := rfl
    omega

/-- the statements of the second query, and what it leaves, may depend on the store before the first -/
theorem Runs.bind {f : Store → α × Store} {g : α → Query β} {d : Store → Store → Nat}
    {left' : Store → Store → Nat → Store} (hq : Runs q c left) (hm : Means q f)
    (hg : ∀ s, Runs (g (f s).1) (d s) (left' s)) :
    Runs (q.bind g) (fun s => c s + d s (f s).2) fun s n =>
      if n < c s then left s n else left' s (f s).2 (n - c s) := by
  have hok : ∀ db a, (q db).1 = .ok a → a = (f db.store).1 ∧ (q db).2.store = (f db.store).2 := by
    intro db a ha
    rw [hm.sound db a ha]
    exact ⟨rfl, rfl⟩
  refine ⟨fun db => ?_, fun db b hb => ?_, fun db e he => ?_, fun db n hn hlt ho => ?_⟩
  · rcases bind_cases q g db with ⟨_, _, h⟩ | ⟨a, ha, h⟩
    · rw [h]
      exact hq.outage db
    · obtain ⟨rfl, _⟩ := hok db a ha
      rw [h, (hg db.store).outage, hq.outage]
  · rcases bind_cases q g db with ⟨_, _, h⟩ | ⟨a, ha, h⟩
    · rw [h] at hb
      cases hb
    · obtain ⟨rfl, hstore⟩ := hok db a ha
      rw [h] at hb ⊢
      rw [(hg db.store).answers _ b hb, hq.answers db _ ha, hstore, Nat.add_assoc]
  · rcases bind_cases q g db with ⟨e', hfail, h⟩ | ⟨a, ha, h⟩
    · obtain ⟨n, hn, hclock, hstore⟩ := hq.stops db e' hfail
      rw [h]
      refine ⟨n, by omega, hclock, ?_⟩
      rw [if_pos hn]
      exact hstore
    · obtain ⟨rfl, hstore⟩ := hok db a ha
      rw [h] at he ⊢
      obtain ⟨n, hn, hclock, hleft⟩ := (hg db.store).stops _ e he
      rw [hq.answers db _ ha] at hclock
      rw [hstore] at hn hleft
      have hlate : ¬c db.store + n < c db.store := by omega
      refine ⟨c db.store + n, by omega, by omega, ?_⟩
      rw [if_neg hlate, Nat.add_sub_cancel_left]
      exact hleft
  · rcases bind_cases q g db with ⟨e, hfail, h⟩ | ⟨a, ha, h⟩
    · rw [h] at hlt ⊢
      obtain ⟨_, _, hclock⟩ := hq.reach db n hn hlt ho
      exact ⟨e, rfl, hclock⟩
    · obtain ⟨rfl, _⟩ := hok db a ha
      rw [h] at hlt ⊢
      by_cases hfirst : n < (q db).2.clock
      · obtain ⟨e, he, _⟩ := hq.reach db n hn hfirst ho
        rw [ha] at he
        cases he
      · rw [← hq.outage] at ho
        exact (hg db.store).reach _ n (Nat.le_of_not_lt hfirst) hlt ho

theorem Runs.bind_observes {f : Store → α} {g : α → Query β} {k m : Nat}
    (hq : Runs q (fun _ => k) fun s _ => s) (ho : Observes q f)
    (hg : ∀ a, Runs (g a) (fun _ => m) fun s _ => s) :
    Runs (q.bind g) (fun _ => k + m) fun s _ => s :=
  (hq.bind ho.means fun s => hg (f s)).congr (fun _ => rfl) fun _ _ _ => ite_self _

/-- an answer made from that of a query takes no statement -/
theorem Runs.bind_pure (h : Runs q c left) (g : α → β) :
    Runs (q.bind fun a => Query.pure (g a)) c left := by
  have hrun : ∀ db, (q.bind (fun a => Query.pure (g a)) db).2 = (q db).2 ∧
      ((∃ b, (q.bind (fun a => Query.pure (g a)) db).1 = .ok b) → ∃ a, (q db).1 = .ok a) ∧
      ∀ e, (q.bind (fun a => Query.pure (g a)) db).1 = .error e ↔ (q db).1 = .error e := by
    intro db
    unfold Query.bind Query.pure
    cases hq : q db with
    | mk r after => cases r <;> simp
  refine ⟨fun db => ?_, fun db b hb => ?_, fun db e he => ?_, fun db n hn hlt ho => ?_⟩
  · rw [(hrun db).1]
    exact h.outage db
  · obtain ⟨a, ha⟩ := (hrun db).2.1 ⟨b, hb⟩
    rw [(hrun db).1]
    exact h.answers db a ha
  · rw [(hrun db).1]
    exact h.stops db e (((hrun db).2.2 e).1 he)
  · rw [(hrun db).1] at hlt ⊢
    obtain ⟨e, he, hclock⟩ := h.reach db n hn hlt ho
    exact ⟨e, ((hrun db).2.2 e).2 he, hclock⟩

/-- a transaction has two more statements, and leaves nothing behind when one of them fails -/
theorem Runs.transaction {f : Store → α × Store} (h : Runs q c left) (hm : Means q f) :
    Runs (transaction q) (fun s => c s + 2) fun s _ => s := by
  have hmark : Runs mark (fun _ => 1) fun s _ => s := Runs.read _
  have hmeans : Means mark fun s => ((), s) := (Observes.read _).means
  have hbody := h.bind (g := fun a => mark.bind fun _ => Query.pure a) (d := fun _ _ => 1) hm
    fun s => hmark.bind_pure fun _ => (f s).1
  -- between its two ends it runs as the query does; what that would leave is put back
  obtain ⟨left', hmarked⟩ : ∃ left', Runs
      (mark.bind fun _ => q.bind fun a => mark.bind fun _ => Query.pure a) (fun s => c s + 2) left' := by
    refine ⟨_, (hmark.bind (d := fun _ s => c s + 1) hmeans fun _ => hbody).congr (fun s => ?_)
      fun _ _ _ => rfl⟩
    show 1 + (c s + 1) = c s + 2
    omega
  have hrun : ∀ db, (Query.transaction q db).1
        = ((mark.bind fun _ => q.bind fun a => mark.bind fun _ => Query.pure a) db).1 ∧
      (Query.transaction q db).2.clock
        = ((mark.bind fun _ => q.bind fun a => mark.bind fun _ => Query.pure a) db).2.clock ∧
      (Query.transaction q db).2.outage
        = ((mark.bind fun _ => q.bind fun a => mark.bind fun _ => Query.pure a) db).2.outage := by
    intro db
    rcases transaction_cases q db with h' | ⟨e, after, he, h'⟩
    · rw [h']
      exact ⟨rfl, rfl, rfl⟩
    · rw [h', he]
      exact ⟨rfl, rfl, rfl⟩
  refine ⟨fun db => ?_, fun db a ha => ?_, fun db e he => ?_, fun db n hn hlt ho => ?_⟩
  · rw [(hrun db).2.2]
    exact hmarked.outage db
  · rw [(hrun db).1] at ha
    rw [(hrun db).2.1]
    exact hmarked.answers db a ha
  · have hatomic := atomic_transaction q db e he
    rw [(hrun db).1] at he
    obtain ⟨n, hn, hclock, _⟩ := hmarked.stops db e he
    rw [(hrun db).2.1]
    exact ⟨n, hn, hclock, hatomic⟩
  · rw [(hrun db).2.1] at hlt ⊢
    rw [(hrun db).1]
    exact hmarked.reach db n hn hlt ho

theorem Runs.total {q : List α → Query Nat} {f : List α → Store → Nat × Store}
    (hq : ∀ xs, Runs (q xs) (fun _ => 1) fun s _ => s) (hm : ∀ xs, Means (q xs) (f xs))
    (parts : List (List α)) : ∃ left, Runs (total q parts) (fun _ => parts.length) left := by
  induction parts with
  | nil => exact ⟨fun s _ => s, Runs.pure 0 _⟩
  | cons xs rest ih =>
    obtain ⟨left, ih⟩ := ih
    refine ⟨_, ((hq xs).bind (d := fun _ _ => rest.length) (hm xs) fun s =>
      ih.bind_pure fun m => (f xs s).1 + m).congr (fun s => ?_) fun _ _ _ => rfl⟩
    rw [List.length_cons]
    omega

theorem Runs.readTransaction (f : Store → α) :
    Runs (Query.transaction (Query.read f)) (fun _ => 3) fun s _ => s :=
  (Runs.read f).transaction (Observes.read f).means

theorem Runs.skipIf (h : Runs q c left) (nothing : Bool) (a : α) :
    Runs (skipIf nothing a q) (fun s => if nothing then 0 else c s) left := by
  unfold Query.skipIf
  cases nothing with
  | true => exact Runs.pure a left
  | false => exact h

/-- The statements of a transaction over a list: its two ends and one for each batch, and none when
there is nothing to do. -/
def changeLength (xs : List α) : Nat := if xs = [] then 0 else (batches xs).length + 2

/-- a change in batches that is skipped when there is nothing to do -/
theorem Runs.change {q : List α → Query Nat} {f : List α → Store → Nat × Store}
    (hq : ∀ xs, Runs (q xs) (fun _ => 1) fun s _ => s) (hm : ∀ xs, Means (q xs) (f xs))
    (xs : List α) [Decidable (xs = [])] :
    Runs (Query.skipIf (xs = []) 0 (Query.transaction (Query.total q (batches xs))))
      (fun _ => changeLength xs) fun s _ => s := by
  obtain ⟨left, htotal⟩ := Runs.total hq hm (batches xs)
  refine ((htotal.transaction (Means.totalOf hm (batches xs))).skipIf _ 0).congr (fun _ => ?_)
    fun _ _ _ => rfl
  unfold changeLength
  by_cases h : xs = [] <;> simp [h]

end

end Linkage.Query
