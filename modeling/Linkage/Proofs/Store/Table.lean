import Mathlib.Algebra.GroupWithZero.Nat
import Mathlib.Data.List.Nodup
import Linkage.Store.Spaces

/-!
# Several changes of a table as one

A list of ids is worked off in parts.  The parts change a table as the whole list does:

* `Table.modify_modify`, `Table.remove_remove`   two changes of one kind are one;
* `Table.sum_count`     rows that the parts name, counted part by part, when no id is repeated;
* `Table.extend`        rows added to a table without keys, each under the next id;
* `Table.ofList`        the table of given values.
-/

set_option linter.unusedSectionVars false

namespace Linkage

/-- Whether a row has one of the ids. -/
def hasId {α : Type} (ids : List Int) (r : Row α) : Bool := ids.contains r.id

theorem hasId_iff {α : Type} {ids : List Int} {r : Row α} : hasId ids r = true ↔ r.id ∈ ids := by
  unfold hasId
  rw [List.contains_iff_mem]

theorem hasId_nil {α : Type} (r : Row α) : hasId [] r = false := rfl

theorem hasId_append {α : Type} (xs ys : List Int) (r : Row α) :
    hasId (xs ++ ys) r = (hasId xs r || hasId ys r) := by
  rw [Bool.eq_iff_iff, Bool.or_eq_true, hasId_iff, hasId_iff, hasId_iff, List.mem_append]

namespace Table

section
variable {α κ : Type} {key : α → Option κ}

theorem rows_modify (t : Table key) (p : Row α → Bool) (f : α → α) (h : ∀ a, key (f a) = key a) :
    (t.modify p f h).rows = t.rows.map (change p f) := rfl

theorem rows_remove (t : Table key) (p : Row α → Bool) :
    (t.remove p).rows = t.rows.filter fun r => !p r := rfl

/-- no id is given twice -/
theorem nodup_ids (t : Table key) : (t.rows.map Row.id).Nodup := by
  rw [List.Nodup, List.pairwise_map]
  refine t.rising.imp fun {a b} hlt he => ?_
  rw [he] at hlt
  exact Int.lt_irrefl _ hlt

theorem of_find? {t : Table key} {p : Row α → Bool} {r : Row α} (h : t.find? p = some r) :
    r ∈ t.rows ∧ p r = true := ⟨List.mem_of_find?_eq_some h, List.find?_some h⟩

theorem find?_eq_none_iff {t : Table key} {p : Row α → Bool} :
    t.find? p = none ↔ ∀ r ∈ t.rows, ¬p r = true := List.find?_eq_none

theorem change_of_pos {p : Row α → Bool} {f : α → α} {r : Row α} (h : p r = true) :
    change p f r = ⟨r.id, f r.val⟩ := if_pos h

theorem change_of_neg {p : Row α → Bool} {f : α → α} {r : Row α} (h : ¬p r = true) :
    change p f r = r := if_neg h

theorem hasId_change (ids : List Int) (p : Row α → Bool) (f : α → α) (r : Row α) :
    hasId ids (change p f r) = hasId ids r := by
  unfold hasId
  rw [change_id]

theorem change_congr {p q : Row α → Bool} (f : α → α) {r : Row α} (h : p r = q r) :
    change p f r = change q f r := by
  unfold change
  rw [h]

theorem change_change {p q : Row α → Bool} {f : α → α} (hf : ∀ a, f (f a) = f a) {r : Row α}
    (hq : q (change p f r) = q r) :
    change q f (change p f r) = change (fun r => p r || q r) f r := by
  unfold change at hq ⊢
  cases hp : p r <;> cases h : q r <;> simp_all

theorem modify_modify {t : Table key} {p q : Row α → Bool} {f : α → α}
    {h : ∀ a, key (f a) = key a} (hf : ∀ a, f (f a) = f a)
    (hq : ∀ r, q (change p f r) = q r) :
    (t.modify p f h).modify q f h = t.modify (fun r => p r || q r) f h := by
  apply ext
  · rw [rows_modify, rows_modify, rows_modify, List.map_map]
    apply List.map_congr_left
    intro r _
    exact change_change hf (hq r)
  · rfl

theorem modify_congr {t : Table key} {p q : Row α → Bool} {f : α → α}
    {h : ∀ a, key (f a) = key a} (hpq : ∀ r ∈ t.rows, p r = q r) :
    t.modify p f h = t.modify q f h := by
  apply ext
  · apply List.map_congr_left
    intro r hr
    exact change_congr f (hpq r hr)
  · rfl

theorem modify_of_none {t : Table key} {p : Row α → Bool} {f : α → α}
    {h : ∀ a, key (f a) = key a} (hp : ∀ r ∈ t.rows, p r = false) : t.modify p f h = t := by
  apply ext
  · rw [rows_modify]
    refine (List.map_congr_left fun r hr => ?_).trans (List.map_id t.rows)
    unfold change
    rw [hp r hr]
    rfl
  · rfl

theorem remove_of_none {t : Table key} {p : Row α → Bool} (hp : ∀ r ∈ t.rows, p r = false) :
    t.remove p = t := by
  apply ext
  · rw [rows_remove, List.filter_eq_self]
    intro r hr
    rw [hp r hr]
    rfl
  · rfl

theorem count_of_none {t : Table key} {p : Row α → Bool} (hp : ∀ r ∈ t.rows, p r = false) :
    t.count p = 0 := by
  refine List.countP_eq_zero.2 fun r hr => ?_
  rw [hp r hr]
  exact Bool.false_ne_true

theorem count_modify {t : Table key} {p q : Row α → Bool} {f : α → α}
    {h : ∀ a, key (f a) = key a} (hq : ∀ r, q (change p f r) = q r) :
    (t.modify p f h).count q = t.count q := by
  show (t.rows.map (change p f)).countP q = t.rows.countP q
  rw [List.countP_map]
  exact List.countP_congr fun r _ => by rw [Function.comp, hq r]

theorem remove_remove (t : Table key) (p q : Row α → Bool) :
    (t.remove p).remove q = t.remove fun r => p r || q r := by
  apply ext
  · rw [rows_remove, rows_remove, rows_remove, List.filter_filter]
    apply List.filter_congr
    intro r _
    cases p r <;> cases q r <;> rfl
  · rfl

/-- rows are counted before a removal, or among what it leaves -/
theorem count_remove (t : Table key) (p q : Row α → Bool) :
    t.count p + (t.remove p).count q = t.count fun r => p r || q r := by
  show t.rows.countP p + (t.rows.filter fun r => !p r).countP q = t.rows.countP _
  rw [List.countP_filter]
  induction t.rows with
  | nil => rfl
  | cons r rs ih =>
    rw [List.countP_cons, List.countP_cons, List.countP_cons, ← ih]
    cases p r <;> cases q r <;> simp <;> omega

/-- ids that are not repeated are counted in their parts -/
theorem sum_count (t : Table key) {parts : List (List Int)} (h : parts.flatten.Nodup) :
    (parts.map fun ids => t.count (hasId ids)).sum = t.count (hasId parts.flatten) := by
  induction parts with
  | nil => exact (count_of_none fun r _ => hasId_nil r).symm
  | cons ids rest ih =>
    rw [List.flatten_cons, List.nodup_append] at h
    obtain ⟨_, hrest, hne⟩ := h
    rw [List.map_cons, List.sum_cons, ih hrest, List.flatten_cons]
    show t.rows.countP (hasId ids) + t.rows.countP (hasId rest.flatten) = t.rows.countP _
    induction t.rows with
    | nil => rfl
    | cons r rs ihr =>
      rw [List.countP_cons, List.countP_cons, List.countP_cons, ← ihr, hasId_append]
      have : ¬(hasId ids r = true ∧ hasId rest.flatten r = true) := fun hb =>
        hne r.id (hasId_iff.1 hb.1) r.id (hasId_iff.1 hb.2) rfl
      cases h1 : hasId ids r <;> cases h2 : hasId rest.flatten r <;> simp_all <;> omega

end

theorem last_insert? {α κ : Type} [DecidableEq κ] {key : α → Option κ} {t u : Table key} {a : α}
    {i : Int} (h : t.insert? a = some (u, i)) : u.last = i := by
  unfold insert? at h
  split at h
  · cases h
    rfl
  · cases h

/-! ## rows without keys -/

section
variable {α κ : Type} [DecidableEq κ] {key : α → Option κ} (keyless : ∀ a, key a = none)

/-- The values as rows under the ids that follow `last`. -/
def numbered (last : Int) : List α → List (Row α)
  | [] => []
  | a :: as => ⟨last + 1, a⟩ :: numbered (last + 1) as

theorem map_val_numbered (last : Int) (as : List α) : (numbered last as).map Row.val = as := by
  induction as generalizing last with
  | nil => rfl
  | cons a as ih => rw [numbered, List.map_cons, ih]

theorem lt_of_mem_numbered {last : Int} {as : List α} {r : Row α} (h : r ∈ numbered last as) :
    last < r.id := by
  induction as generalizing last with
  | nil => cases h
  | cons a as ih =>
    rcases List.mem_cons.1 h with rfl | h
    · show last < last + 1
      omega
    · have := ih h
      omega

include keyless

theorem isFree_of_keyless (t : Table key) (a : α) : t.isFree a = true := by
  unfold isFree
  rw [List.all_eq_true]
  intro r _
  simp [keyless]

/-- The table with more rows at its end, one for each value. -/
def extend (t : Table key) : List α → Table key
  | [] => t
  | a :: as => extend (t.append a (isFree_of_keyless keyless t a)) as

theorem addRows_eq_extend (t : Table key) (as : List α) :
    Query.addRows t as = .ok (t.extend keyless as) := by
  induction as generalizing t with
  | nil => rfl
  | cons a as ih =>
    rw [Query.addRows, insert?, dif_pos (isFree_of_keyless keyless t a)]
    exact ih _

theorem rows_extend (t : Table key) (as : List α) :
    (t.extend keyless as).rows = t.rows ++ numbered t.last as := by
  induction as generalizing t with
  | nil => exact (List.append_nil _).symm
  | cons a as ih =>
    rw [extend, ih]
    show (t.rows ++ [⟨t.last + 1, a⟩]) ++ numbered (t.last + 1) as = _
    rw [List.append_assoc]
    rfl

theorem extend_append (t : Table key) (as bs : List α) :
    t.extend keyless (as ++ bs) = (t.extend keyless as).extend keyless bs := by
  induction as generalizing t with
  | nil => rfl
  | cons a as ih => exact ih _

end

/-! ## a table of given values -/

section
variable {α κ : Type} {key : α → Option κ}

theorem le_of_mem_numbered {last : Int} {as : List α} {r : Row α} (h : r ∈ numbered last as) :
    r.id ≤ last + as.length := by
  induction as generalizing last with
  | nil => cases h
  | cons a as ih =>
    rw [List.length_cons]
    rcases List.mem_cons.1 h with rfl | h
    · show last + 1 ≤ _
      omega
    · have := ih h
      omega

theorem rising_numbered (last : Int) (as : List α) :
    (numbered last as).Pairwise fun a b => a.id < b.id := by
  induction as generalizing last with
  | nil => exact .nil
  | cons a as ih => exact .cons (fun _ hr => lt_of_mem_numbered hr) (ih (last + 1))

/-- The table of the values, numbered from one. -/
def ofList (as : List α) (h : as.Pairwise fun a b => key a = none ∨ key a ≠ key b) : Table key where
  rows := numbered 0 as
  last := as.length
  last_nonneg := Int.natCast_nonneg _
  rising := rising_numbered 0 as
  bounded r hr := by
    have hlow := lt_of_mem_numbered hr
    have hhigh := le_of_mem_numbered hr
    omega
  distinct := by
    have hvals := h
    rw [← map_val_numbered 0 as, List.pairwise_map] at hvals
    exact hvals

end

end Table
end Linkage
