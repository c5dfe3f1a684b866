import Mathlib.Algebra.GroupWithZero.Nat
import Linkage.Proofs.Dict.Last

/-!
# Values listed under keys

* `Dict.group key val xs`   the map from each key of `xs` to the values that have it, in their order;
* `Dict.mem_entries_group`  its pairs;
* `Dict.sum_values_update`  the sum of counts after one of them is raised.
-/

set_option linter.unusedSectionVars false

namespace Linkage.Dict

open Std

section
variable {κ α β : Type} [Ord κ] [TransOrd κ] [LawfulEqOrd κ] [DecidableEq κ]

theorem get?_update (d : Dict κ α) (k j : κ) (a : α) (f : α → α) :
    (d.update k a f).get? j = if j = k then some (f ((d.get? k).getD a)) else d.get? j :=
  get?_put d k j _

/-- The values of a list, listed under their keys. -/
def group (key : α → κ) (val : α → β) (xs : List α) : Dict κ (List β) :=
  xs.foldl (fun d x => d.update (key x) [] (· ++ [val x])) .empty

theorem get?_foldl_update (key : α → κ) (val : α → β) (xs : List α) (d : Dict κ (List β)) (k : κ) :
    (xs.foldl (fun d x => d.update (key x) [] (· ++ [val x])) d).get? k
      = if k ∈ xs.map key then
          some ((d.get? k).getD [] ++ (xs.filter fun x => key x = k).map val)
        else d.get? k := by
  induction xs generalizing d with
  | nil => rfl
  | cons x xs ih =>
    rw [List.foldl_cons, ih, get?_update, List.map_cons]
    by_cases hk : k = key x
    · subst hk
      have hx : (x :: xs).filter (fun y => key y = key x)
          = x :: xs.filter fun y => key y = key x := List.filter_cons_of_pos (by simp)
      rw [if_pos rfl, if_pos List.mem_cons_self, hx, List.map_cons]
      split
      · rw [Option.getD_some, List.append_assoc]
        rfl
      · rename_i hm
        have : xs.filter (fun y => key y = key x) = [] := by
          rw [List.filter_eq_nil_iff]
          intro y hy he
          exact hm (of_decide_eq_true he ▸ List.mem_map_of_mem hy)
        rw [this, List.map_nil]
    · rw [if_neg hk, List.filter_cons_of_neg (by simpa using Ne.symm hk)]
      simp only [List.mem_cons, hk, false_or]

theorem get?_group (key : α → κ) (val : α → β) (xs : List α) (k : κ) :
    (group key val xs).get? k = if k ∈ xs.map key then
      some ((xs.filter fun x => key x = k).map val) else none :=
  get?_foldl_update key val xs .empty k

theorem mem_entries_group {key : α → κ} {val : α → β} {xs : List α} {k : κ} {vs : List β} :
    (k, vs) ∈ (group key val xs).entries ↔
      k ∈ xs.map key ∧ vs = (xs.filter fun x => key x = k).map val := by
  rw [← get?_eq_some_iff, get?_group]
  split
  · rename_i h
    rw [Option.some.injEq]
    exact ⟨fun e => ⟨h, e.symm⟩, fun e => e.2.symm⟩
  · rename_i h
    constructor
    · intro e
      cases e
    · intro e
      exact absurd e.1 h

theorem contains_group {key : α → κ} {val : α → β} {xs : List α} {k : κ} :
    (group key val xs).contains k = true ↔ k ∈ xs.map key := by
  unfold contains
  rw [get?_group]
  split
  · rename_i h
    exact ⟨fun _ => h, fun _ => rfl⟩
  · rename_i h
    exact ⟨fun e => (by cases e), fun e => absurd e h⟩

/-- a number written under a key takes the place of the one that was there -/
theorem sum_insertEntry (k : κ) (n : Nat) {es : List (κ × Nat)}
    (h : es.Pairwise fun a b => compare a.1 b.1 = .lt) :
    ((insertEntry k n es).map Prod.snd).sum + (find? k es).getD 0 = (es.map Prod.snd).sum + n := by
  induction es with
  | nil => exact Nat.add_comm n 0
  | cons e es ih =>
    obtain ⟨j, m⟩ := e
    obtain ⟨hj, hes⟩ := List.pairwise_cons.1 h
    unfold insertEntry find?
    cases hk : compare k j with
    | lt =>
      have hnone : find? k es = none := find?_eq_none_of_lt fun e he => TransCmp.lt_trans hk (hj e he)
      simp [hnone]
      omega
    | eq =>
      simp
      omega
    | gt =>
      have := ih hes
      simp
      omega

theorem sum_values_update (d : Dict κ Nat) (k : κ) :
    (d.update k 0 (· + 1)).values.sum = d.values.sum + 1 := by
  have h := sum_insertEntry k ((d.get? k).getD 0 + 1) d.rising
  have hput : (d.update k 0 (· + 1)).values
      = (insertEntry k ((d.get? k).getD 0 + 1) d.entries).map Prod.snd := rfl
  have hval : d.values = d.entries.map Prod.snd := rfl
  have hfind : d.get? k = find? k d.entries := rfl
  rw [hput, hval]
  rw [← hfind] at h
  omega

end

end Linkage.Dict
