/-!
# Finite maps in key order

A `Dict` is a list of pairs whose keys rise, so it has one form for each map and lists its keys in
order.

* `Dict.put`, `Dict.get?`   write and read one key;
* `Dict.ofList`             all pairs of a list put one after the other, so the last of a key wins;
* `Dict.layer`              one map on top of another;
* `Dict.get?_put`           what a read sees after a write;
* `Dict.ext_get?`           two maps that read alike are equal.
-/

set_option linter.unusedSectionVars false

namespace Linkage

open Std

/-- A finite map, kept as a list of pairs with rising keys. -/
structure Dict (κ : Type) (α : Type) [Ord κ] where
  entries : List (κ × α)
  rising : entries.Pairwise fun a b => compare a.1 b.1 = .lt

namespace Dict

section
variable {κ α : Type} [Ord κ]

/-- The value of the first pair with the key `k`. -/
def find? (k : κ) : List (κ × α) → Option α
  | [] => none
  | (j, a) :: es => if compare k j = .eq then some a else find? k es

/-- The pairs with `(k, a)` at its place, instead of a pair that had this key. -/
def insertEntry (k : κ) (a : α) : List (κ × α) → List (κ × α)
  | [] => [(k, a)]
  | (j, b) :: es =>
    match compare k j with
    | .lt => (k, a) :: (j, b) :: es
    | .eq => (k, a) :: es
    | .gt => (j, b) :: insertEntry k a es

theorem mem_insertEntry {k : κ} {a : α} {e : κ × α} {es : List (κ × α)}
    (h : e ∈ insertEntry k a es) : e = (k, a) ∨ e ∈ es := by
  induction es with
  | nil => simpa [insertEntry] using h
  | cons d es ih =>
    obtain ⟨j, b⟩ := d
    simp only [insertEntry] at h
    split at h
    · simpa using h
    · rcases List.mem_cons.1 h with h | h
      · exact .inl h
      · exact .inr (by simp [h])
    · rcases List.mem_cons.1 h with h | h
      · exact .inr (by simp [h])
      · rcases ih h with h | h
        · exact .inl h
        · exact .inr (by simp [h])

end

section
variable {κ α : Type} [Ord κ] [TransOrd κ] [LawfulEqOrd κ]

theorem rising_insertEntry (k : κ) (a : α) {es : List (κ × α)}
    (h : es.Pairwise fun a b => compare a.1 b.1 = .lt) :
    (insertEntry k a es).Pairwise fun a b => compare a.1 b.1 = .lt := by
  induction es with
  | nil => simp [insertEntry]
  | cons d es ih =>
    obtain ⟨j, b⟩ := d
    obtain ⟨hj, hes⟩ := List.pairwise_cons.1 h
    simp only [insertEntry]
    split
    · rename_i hk
      refine List.pairwise_cons.2 ⟨fun e he => ?_, h⟩
      rcases List.mem_cons.1 he with rfl | he
      · exact hk
      · exact TransCmp.lt_trans hk (hj e he)
    · rename_i hk
      have : k = j := LawfulEqCmp.eq_of_compare hk
      subst this
      exact List.pairwise_cons.2 ⟨hj, hes⟩
    · rename_i hk
      refine List.pairwise_cons.2 ⟨fun e he => ?_, ih hes⟩
      rcases mem_insertEntry he with rfl | he
      · exact OrientedCmp.lt_of_gt hk
      · exact hj e he

end

section
variable {κ α : Type} [Ord κ]

def empty : Dict κ α := ⟨[], .nil⟩

instance : Inhabited (Dict κ α) := ⟨empty⟩

/-- The value of `k`, if it has one. -/
def get? (d : Dict κ α) (k : κ) : Option α := find? k d.entries

def keys (d : Dict κ α) : List κ := d.entries.map Prod.fst

/-- The values in the order of their keys. -/
def values (d : Dict κ α) : List α := d.entries.map Prod.snd

def size (d : Dict κ α) : Nat := d.entries.length

def contains (d : Dict κ α) (k : κ) : Bool := (d.get? k).isSome

theorem ext {d e : Dict κ α} (h : d.entries = e.entries) : d = e := by
  cases d; cases e; cases h; rfl

instance [DecidableEq κ] [DecidableEq α] : DecidableEq (Dict κ α) := fun d e =>
  if h : d.entries = e.entries then isTrue (ext h) else isFalse fun he => h (he ▸ rfl)

variable [TransOrd κ] [LawfulEqOrd κ]

/-- The map in which `k` has the value `a`. -/
def put (d : Dict κ α) (k : κ) (a : α) : Dict κ α :=
  ⟨insertEntry k a d.entries, rising_insertEntry k a d.rising⟩

/-- The map after the pairs of `es` are put one after the other. -/
def putAll (d : Dict κ α) (es : List (κ × α)) : Dict κ α :=
  es.foldl (fun d e => d.put e.1 e.2) d

/-- The map of the pairs of `es`; of several with one key the last counts. -/
def ofList (es : List (κ × α)) : Dict κ α := empty.putAll es

/-- `e` on top of `d`: where both have a key the value in `e` counts. -/
def layer (d e : Dict κ α) : Dict κ α := d.putAll e.entries

/-- The map in which the value of `k` is changed by `f`, from `a` if it had none. -/
def update (d : Dict κ α) (k : κ) (a : α) (f : α → α) : Dict κ α :=
  d.put k (f ((d.get? k).getD a))

end

section
variable {κ α : Type} [Ord κ] [TransOrd κ] [LawfulEqOrd κ]

theorem find?_insertEntry (k j : κ) (a : α) (es : List (κ × α)) :
    find? j (insertEntry k a es) = if compare j k = .eq then some a else find? j es := by
  induction es with
  | nil => simp [insertEntry, find?]
  | cons d es ih =>
    obtain ⟨i, b⟩ := d
    simp only [insertEntry]
    split
    · simp [find?]
    · rename_i hk
      have : k = i := LawfulEqCmp.eq_of_compare hk
      subst this
      simp only [find?]
      split <;> rfl
    · rename_i hk
      simp only [find?, ih]
      by_cases hi : compare j i = .eq
      · have : j = i := LawfulEqCmp.eq_of_compare hi
        subst this
        have : compare j k ≠ .eq := fun h => by
          have : j = k := LawfulEqCmp.eq_of_compare h
          subst this
          simp at hk
        simp [this]
      · simp [hi]

/-- a read after a write -/
theorem get?_put [DecidableEq κ] (d : Dict κ α) (k j : κ) (a : α) :
    (d.put k a).get? j = if j = k then some a else d.get? j := by
  simp only [get?, put, find?_insertEntry]
  by_cases h : j = k
  · simp [h]
  · have : compare j k ≠ .eq := fun hc => h (LawfulEqCmp.eq_of_compare hc)
    rw [if_neg this, if_neg h]

theorem find?_eq_none_of_lt {k : κ} {es : List (κ × α)} (h : ∀ e ∈ es, compare k e.1 = .lt) :
    find? k es = none := by
  induction es with
  | nil => rfl
  | cons d es ih =>
    have : compare k d.1 ≠ .eq := by rw [h d (by simp)]; decide
    simp only [find?, this, if_false]
    exact ih fun e he => h e (by simp [he])

theorem get?_eq_some_iff {d : Dict κ α} {k : κ} {a : α} :
    d.get? k = some a ↔ (k, a) ∈ d.entries := by
  obtain ⟨es, h⟩ := d
  simp only [get?]
  induction es with
  | nil => simp [find?]
  | cons e es ih =>
    obtain ⟨j, b⟩ := e
    obtain ⟨hj, hes⟩ := List.pairwise_cons.1 h
    simp only [find?, List.mem_cons, Prod.mk.injEq]
    by_cases hk : compare k j = .eq
    · have : k = j := LawfulEqCmp.eq_of_compare hk
      subst this
      have hn : (k, a) ∉ es := fun hm => by
        have := hj _ hm
        simp at this
      simp [hn, eq_comm]
    · have : k ≠ j := fun h => hk (by simp [h])
      simp [hk, this, ih hes]

/-- maps that read alike are equal -/
theorem ext_get? {d e : Dict κ α} (h : ∀ k, d.get? k = e.get? k) : d = e := by
  obtain ⟨es, hd⟩ := d
  obtain ⟨fs, he⟩ := e
  apply ext
  simp only [get?] at h ⊢
  induction es generalizing fs with
  | nil =>
    cases fs with
    | nil => rfl
    | cons f fs => have := h f.1; simp [find?] at this
  | cons x es ih =>
    cases fs with
    | nil => have := h x.1; simp [find?] at this
    | cons y fs =>
      obtain ⟨i, a⟩ := x
      obtain ⟨j, b⟩ := y
      obtain ⟨hi, hes⟩ := List.pairwise_cons.1 hd
      obtain ⟨hj, hfs⟩ := List.pairwise_cons.1 he
      have hij : i = j := by
        cases hc : compare i j with
        | eq => exact LawfulEqCmp.eq_of_compare hc
        | lt =>
          have := h i
          rw [find?, if_pos (by simp)] at this
          rw [find?_eq_none_of_lt (α := α) (k := i)] at this
          · simp at this
          · intro e he
            rcases List.mem_cons.1 he with rfl | he
            · exact hc
            · exact TransCmp.lt_trans hc (hj e he)
        | gt =>
          have hc' : compare j i = .lt := OrientedCmp.lt_of_gt hc
          have := h j
          rw [find?_eq_none_of_lt (α := α) (k := j)] at this
          · rw [find?, if_pos (by simp)] at this; simp at this
          · intro e he
            rcases List.mem_cons.1 he with rfl | he
            · exact hc'
            · exact TransCmp.lt_trans hc' (hi e he)
      subst hij
      have hab : a = b := by
        have := h i
        simpa [find?] using this
      subst hab
      have : es = fs := by
        refine ih hes fs hfs fun k => ?_
        by_cases hk : compare k i = .eq
        · have hki : k = i := LawfulEqCmp.eq_of_compare hk
          subst hki
          rw [find?_eq_none_of_lt hi, find?_eq_none_of_lt hj]
        · have := h k
          simpa [find?, hk] using this
      rw [this]

theorem contains_iff {d : Dict κ α} {k : κ} : d.contains k = true ↔ k ∈ d.keys := by
  simp only [contains, keys, Option.isSome_iff_exists, List.mem_map]
  constructor
  · rintro ⟨a, h⟩
    exact ⟨(k, a), get?_eq_some_iff.1 h, rfl⟩
  · rintro ⟨⟨j, a⟩, h, rfl⟩
    exact ⟨a, get?_eq_some_iff.2 h⟩

@[simp] theorem get?_empty (k : κ) : (empty : Dict κ α).get? k = none := rfl

end

end Dict
end Linkage
