/-!
# Tables

A table holds rows under ids that rise from 1 and are never used twice.  Rows may have a key, and no
two rows have the same one.

* `Table.insert?`   a row under the next id, unless its key is taken;
* `Table.modify`    a change of the rows that satisfy a condition, which leaves keys as they are;
* `Table.advance`   the same rows when an id was given to none;
* `Table.remove`    without the rows that satisfy a condition;
* `insert?_eq_none_iff`, `rows_insert?`, `mem_rows_modify`, `mem_rows_remove`   what each does to the
  rows.
-/

set_option linter.unusedSectionVars false

namespace Linkage

/-- A value under its id. -/
structure Row (α : Type) where
  id : Int
  val : α
  deriving DecidableEq

/-- Rows in the order of their ids, with distinct keys. -/
structure Table {α κ : Type} (key : α → Option κ) where
  rows : List (Row α)
  /-- the last id that was given -/
  last : Int
  last_nonneg : 0 ≤ last
  rising : rows.Pairwise fun a b => a.id < b.id
  bounded : ∀ r ∈ rows, 1 ≤ r.id ∧ r.id ≤ last
  distinct : rows.Pairwise fun a b => key a.val = none ∨ key a.val ≠ key b.val

namespace Table

section
variable {α κ : Type} {key : α → Option κ}

theorem ext {s t : Table key} (h : s.rows = t.rows) (hl : s.last = t.last) : s = t := by
  cases s; cases t; cases h; cases hl; rfl

def empty : Table key := ⟨[], 0, Int.le_refl 0, .nil, by simp, .nil⟩

instance : Inhabited (Table key) := ⟨empty⟩

/-- The rows that satisfy a condition, in the order of their ids. -/
def select (t : Table key) (p : Row α → Bool) : List (Row α) := t.rows.filter p

/-- The first row that satisfies a condition. -/
def find? (t : Table key) (p : Row α → Bool) : Option (Row α) := t.rows.find? p

/-- The number of rows that satisfy a condition. -/
def count (t : Table key) (p : Row α → Bool) : Nat := t.rows.countP p

/-- The rows with `f` applied to those that satisfy `p`. -/
def change (p : Row α → Bool) (f : α → α) (r : Row α) : Row α :=
  if p r then ⟨r.id, f r.val⟩ else r

theorem change_id (p : Row α → Bool) (f : α → α) (r : Row α) : (change p f r).id = r.id := by
  unfold change
  split <;> rfl

theorem key_change {p : Row α → Bool} {f : α → α} (h : ∀ a, key (f a) = key a) (r : Row α) :
    key (change p f r).val = key r.val := by
  unfold change
  split
  · exact h r.val
  · rfl

/-- The table with `f` applied to the rows that satisfy `p`; `f` keeps the key. -/
def modify (t : Table key) (p : Row α → Bool) (f : α → α) (h : ∀ a, key (f a) = key a) :
    Table key where
  rows := t.rows.map (change p f)
  last := t.last
  last_nonneg := t.last_nonneg
  rising := by
    rw [List.pairwise_map]
    exact t.rising.imp fun hab => by rwa [change_id, change_id]
  bounded := by
    intro r hr
    obtain ⟨a, ha, rfl⟩ := List.mem_map.1 hr
    rw [change_id]
    exact t.bounded a ha
  distinct := by
    rw [List.pairwise_map]
    exact t.distinct.imp fun hab => by rwa [key_change h, key_change h]

/-- The table without the rows that satisfy `p`. -/
def remove (t : Table key) (p : Row α → Bool) : Table key where
  rows := t.rows.filter fun r => !p r
  last := t.last
  last_nonneg := t.last_nonneg
  rising := t.rising.filter _
  bounded := fun r hr => t.bounded r (List.mem_filter.1 hr).1
  distinct := t.distinct.filter _

/-- The table with the same rows that has given one more id. -/
def advance (t : Table key) : Table key where
  rows := t.rows
  last := t.last + 1
  last_nonneg := by have := t.last_nonneg; omega
  rising := t.rising
  bounded := fun r hr => by have := t.bounded r hr; omega
  distinct := t.distinct

@[simp] theorem rows_advance (t : Table key) : t.advance.rows = t.rows := rfl

theorem mem_rows_modify {t : Table key} {p : Row α → Bool} {f : α → α}
    {h : ∀ a, key (f a) = key a} {r : Row α} :
    r ∈ (t.modify p f h).rows ↔ ∃ a ∈ t.rows, change p f a = r := by
  simp [modify]

theorem mem_rows_remove {t : Table key} {p : Row α → Bool} {r : Row α} :
    r ∈ (t.remove p).rows ↔ r ∈ t.rows ∧ p r = false := by
  simp [remove]

/-- an id belongs to one row -/
theorem eq_of_id {t : Table key} {a b : Row α} (ha : a ∈ t.rows) (hb : b ∈ t.rows)
    (h : a.id = b.id) : a = b := by
  have := t.rising
  generalize t.rows = rs at ha hb this
  induction rs with
  | nil => simp at ha
  | cons r rs ih =>
    obtain ⟨hr, hrs⟩ := List.pairwise_cons.1 this
    rcases List.mem_cons.1 ha with rfl | ha'
    · rcases List.mem_cons.1 hb with rfl | hb'
      · rfl
      · have := hr b hb'; omega
    · rcases List.mem_cons.1 hb with rfl | hb'
      · have := hr a ha'; omega
      · exact ih ha' hb' hrs

/-- a key belongs to one row -/
theorem eq_of_key {t : Table key} {a b : Row α} {k : κ} (ha : a ∈ t.rows) (hb : b ∈ t.rows)
    (hka : key a.val = some k) (hkb : key b.val = some k) : a = b := by
  have := t.distinct
  generalize t.rows = rs at ha hb this
  induction rs with
  | nil => simp at ha
  | cons r rs ih =>
    obtain ⟨hr, hrs⟩ := List.pairwise_cons.1 this
    rcases List.mem_cons.1 ha with rfl | ha'
    · rcases List.mem_cons.1 hb with rfl | hb'
      · rfl
      · rcases hr b hb' with h | h
        · simp [hka] at h
        · exact absurd (hka.trans hkb.symm) h
    · rcases List.mem_cons.1 hb with rfl | hb'
      · rcases hr a ha' with h | h
        · simp [hkb] at h
        · exact absurd (hkb.trans hka.symm) h
      · exact ih ha' hb' hrs

variable [DecidableEq κ]

/-- Whether the key of a value is free. -/
def isFree (t : Table key) (a : α) : Bool :=
  t.rows.all fun r => key r.val = none ∨ key r.val ≠ key a

/-- The table with one more row at its end. -/
def append (t : Table key) (a : α) (h : t.isFree a = true) : Table key where
  rows := t.rows ++ [⟨t.last + 1, a⟩]
  last := t.last + 1
  last_nonneg := by have := t.last_nonneg; omega
  rising := by
    rw [List.pairwise_append]
    refine ⟨t.rising, by simp, fun r hr s hs => ?_⟩
    have := (t.bounded r hr).2
    simp only [List.mem_singleton] at hs
    subst hs
    simp only
    omega
  bounded := by
    intro r hr
    rcases List.mem_append.1 hr with hr | hr
    · have := t.bounded r hr
      omega
    · simp only [List.mem_singleton] at hr
      subst hr
      have := t.last_nonneg
      simp only
      omega
  distinct := by
    rw [List.pairwise_append]
    refine ⟨t.distinct, by simp, fun r hr s hs => ?_⟩
    simp only [List.mem_singleton] at hs
    subst hs
    simpa using (List.all_eq_true.1 h) r hr

/-- The table with one more row under the next id, and this id; none if the key is taken. -/
def insert? (t : Table key) (a : α) : Option (Table key × Int) :=
  if h : t.isFree a = true then some (t.append a h, t.last + 1) else none

theorem isFree_eq_false_iff {t : Table key} {a : α} :
    t.isFree a = false ↔ ∃ r ∈ t.rows, key r.val ≠ none ∧ key r.val = key a := by
  simp [isFree]

/-- an insert is refused when a row has the key -/
theorem insert?_eq_none_iff {t : Table key} {a : α} :
    t.insert? a = none ↔ ∃ r ∈ t.rows, key r.val ≠ none ∧ key r.val = key a := by
  rw [← isFree_eq_false_iff]
  unfold insert?
  split <;> simp_all

theorem rows_insert? {t u : Table key} {a : α} {i : Int} (h : t.insert? a = some (u, i)) :
    u.rows = t.rows ++ [⟨i, a⟩] ∧ i = t.last + 1 := by
  unfold insert? at h
  split at h
  · simp only [Option.some.injEq, Prod.mk.injEq] at h
    obtain ⟨rfl, rfl⟩ := h
    exact ⟨rfl, rfl⟩
  · simp at h

/-- The table with the given rows and last id, if they can stand in one. -/
def ofRows? (rows : List (Row α)) (last : Int) : Option (Table key) :=
  if h : 0 ≤ last ∧ (rows.Pairwise fun a b => a.id < b.id) ∧
      (∀ r ∈ rows, 1 ≤ r.id ∧ r.id ≤ last) ∧
      (rows.Pairwise fun a b => key a.val = none ∨ key a.val ≠ key b.val) then
    some ⟨rows, last, h.1, h.2.1, h.2.2.1, h.2.2.2⟩
  else none

end

end Table
end Linkage
