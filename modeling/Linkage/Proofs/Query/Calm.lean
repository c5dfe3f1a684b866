import Linkage.Proofs.Query.Meaning

/-!
# A run that answers has met no failure

* `Db.calm`           the same database when none of its statements fails;
* `Query.Steady q`    a run of `q` that answers is the run on the calm database, and the database was
                      in reach at each of its statements;
* `Steady.bind` and its siblings put this together for a query from its statements.
-/

namespace Linkage

/-- The database with the same rows and as many statements behind it, on which none fails. -/
def Db.calm (db : Db) : Db := { db with guards := [], outage := fun _ => false }

theorem Db.reliable_calm (db : Db) : db.calm.Reliable := ⟨rfl, fun _ => rfl⟩

namespace Query

section
variable {α β : Type}

/-- A run that answers does so as on the calm database, and has met no outage. -/
structure Steady (q : Query α) : Prop where
  outage : ∀ db, (q db).2.outage = db.outage
  forward : ∀ db, db.clock ≤ (q db).2.clock
  calm : ∀ db a, (q db).1 = .ok a → q db.calm = (.ok a, (q db).2.calm)
  reach : ∀ db a, (q db).1 = .ok a →
    ∀ n, db.clock ≤ n → n < (q db).2.clock → db.outage n = false

/-! ## one statement -/

theorem clock_statement (f : List (TableName × RowEvent) → Store → Except Error (α × Store))
    (db : Db) : (statement f db).2.clock = db.clock + 1 := by
  unfold statement
  simp only
  split
  · rfl
  · split <;> rfl

/-- a statement that answers was in reach, and did what the function says -/
theorem statement_ok {f : List (TableName × RowEvent) → Store → Except Error (α × Store)} {db : Db}
    {a : α} (h : (statement f db).1 = .ok a) : db.outage db.clock = false ∧
      ∃ s, f db.guards db.store = .ok (a, s) ∧
        (statement f db).2 = { db with clock := db.clock + 1, store := s } := by
  unfold statement at h ⊢
  simp only at h ⊢
  cases ho : db.outage db.clock with
  | true =>
    rw [ho, if_pos rfl] at h
    cases h
  | false =>
    rw [ho, if_neg Bool.false_ne_true] at h
    rw [if_neg Bool.false_ne_true]
    cases hf : f db.guards db.store with
    | error e =>
      rw [hf] at h
      cases h
    | ok p =>
      rw [hf] at h
      cases h
      exact ⟨rfl, p.2, rfl, rfl⟩

/-- it is enough that a statement that passes its guards passes when there are none -/
theorem Steady.statement
    {f : List (TableName × RowEvent) → Store → Except Error (α × Store)}
    (hf : ∀ guards s r, f guards s = .ok r → f [] s = .ok r) : Steady (statement f) where
  outage db := (statement_frame f db).2
  forward db := by
    rw [clock_statement]
    omega
  calm db a h := by
    obtain ⟨_, s, hs, hafter⟩ := statement_ok h
    have hcalm : f [] db.store = .ok (a, s) := hf _ _ _ hs
    rw [hafter]
    unfold Query.statement Db.calm
    simp only [hcalm]
    rfl
  reach db a h n hn hlt := by
    obtain ⟨ho, _⟩ := statement_ok h
    rw [clock_statement] at hlt
    have : n = db.clock := by omega
    rw [this]
    exact ho

theorem Steady.read (f : Store → α) : Steady (read f) :=
  Steady.statement fun _ _ _ h => h

theorem Steady.write (touches : Store → List (TableName × RowEvent))
    (f : Store → Except Error (α × Store)) : Steady (write touches f) := by
  refine Steady.statement fun guards s r h => ?_
  have hnone : (touches s).any [].contains = false := by simp
  rw [hnone, if_neg Bool.false_ne_true]
  split at h
  · cases h
  · exact h

/-! ## queries put together -/

theorem Steady.pure (a : α) : Steady (pure a) where
  outage _ := rfl
  forward _ := Nat.le_refl _
  calm _ _ h := by
    cases h
    rfl
  reach db b h n hn hlt := by
    have hsame : (Query.pure a db).2.clock = db.clock := rfl
    omega

theorem bind_of_ok {q : Query α} {g : α → Query β} {db after : Db} {a : α}
    (h : q db = (.ok a, after)) : q.bind g db = g a after := by
  unfold bind
  rw [h]

theorem Steady.bind {q : Query α} {g : α → Query β} (hq : Steady q) (hg : ∀ a, Steady (g a)) :
    Steady (q.bind g) where
  outage db := by
    rcases bind_cases q g db with ⟨e, _, h⟩ | ⟨a, _, h⟩
    · rw [h]
      exact hq.outage db
    · rw [h, (hg a).outage, hq.outage]
  forward db := by
    rcases bind_cases q g db with ⟨e, _, h⟩ | ⟨a, _, h⟩
    · rw [h]
      exact hq.forward db
    · rw [h]
      exact Nat.le_trans (hq.forward db) ((hg a).forward _)
  calm db b hb := by
    rcases bind_cases q g db with ⟨e, _, h⟩ | ⟨a, ha, h⟩
    · rw [h] at hb
      cases hb
    · rw [h] at hb ⊢
      rw [bind_of_ok (hq.calm db a ha)]
      exact (hg a).calm _ b hb
  reach db b hb n hn hlt := by
    rcases bind_cases q g db with ⟨e, _, h⟩ | ⟨a, ha, h⟩
    · rw [h] at hb
      cases hb
    · rw [h] at hb hlt
      by_cases hfirst : n < (q db).2.clock
      · exact hq.reach db a ha n hn hfirst
      · rw [← hq.outage db]
        exact (hg a).reach _ b hb n (Nat.le_of_not_lt hfirst) hlt

theorem Steady.marked {q : Query α} (h : Steady q) :
    Steady (mark.bind fun _ => q.bind fun a => mark.bind fun _ => Query.pure a) :=
  (Steady.read _).bind fun _ => h.bind fun a => (Steady.read _).bind fun _ => Steady.pure a

theorem Steady.transaction {q : Query α} (hq : Steady q) : Steady (transaction q) where
  outage db := by
    have houtage := hq.marked.outage db
    rcases transaction_cases q db with h | ⟨e, after, he, h⟩
    · rwa [h]
    · rw [he] at houtage
      rwa [h]
  forward db := by
    have hforward := hq.marked.forward db
    rcases transaction_cases q db with h | ⟨e, after, he, h⟩
    · rwa [h]
    · rw [he] at hforward
      rwa [h]
  calm db a ha := by
    rcases transaction_cases q db with h | ⟨e, after, _, h⟩
    · rw [h] at ha ⊢
      have hcalm := hq.marked.calm db a ha
      unfold Query.transaction
      rw [hcalm]
    · rw [h] at ha
      cases ha
  reach db a ha := by
    rcases transaction_cases q db with h | ⟨e, after, _, h⟩
    · rw [h] at ha ⊢
      exact hq.marked.reach db a ha
    · rw [h] at ha
      cases ha

theorem Steady.skipIf {q : Query α} (h : Steady q) (nothing : Bool) (a : α) :
    Steady (skipIf nothing a q) := by
  unfold Query.skipIf
  cases nothing with
  | true => exact Steady.pure a
  | false => exact h

theorem Steady.each {q : List α → Query (List β)} (h : ∀ xs, Steady (q xs))
    (parts : List (List α)) : Steady (each q parts) := by
  induction parts with
  | nil => exact Steady.pure []
  | cons xs rest ih => exact (h xs).bind fun ys => ih.bind fun zs => Steady.pure (ys ++ zs)

theorem Steady.total {q : List α → Query Nat} (h : ∀ xs, Steady (q xs))
    (parts : List (List α)) : Steady (total q parts) := by
  induction parts with
  | nil => exact Steady.pure 0
  | cons xs rest ih => exact (h xs).bind fun n => ih.bind fun m => Steady.pure (n + m)

end

end Query
end Linkage
