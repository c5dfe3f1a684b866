import Mathlib.Data.List.Basic
import Mathlib.Data.List.Induction

/-!
# A list by the keys of its items

* `byKey key xs`         the items of `xs` with those of a key next to each other: the keys in the order
                         of their first item, the items of a key in the order of the list;
* `perm_byKey`           they are the items of the list;
* `Unbroken key xs`      no key comes back after another one;
* `byKey_eq_self_iff`    then, and only then, the items stand as in the list;
* `nodup_eraseDups`, `eraseDups_concat`, `eraseDups_map`, `eq_eraseDups`   the keys in the order of
                         their first item, each of them once.
-/

namespace Linkage

theorem nodup_eraseDups {α : Type} [BEq α] [LawfulBEq α] (xs : List α) : xs.eraseDups.Nodup := by
  match xs with
  | [] => exact .nil
  | x :: xs =>
    rw [List.eraseDups_cons, List.nodup_cons]
    exact ⟨by simp, nodup_eraseDups _⟩
termination_by xs.length
decreasing_by exact Nat.lt_succ_of_le (List.length_filter_le _ _)

theorem eraseDups_concat {α : Type} [BEq α] [LawfulBEq α] (xs : List α) (x : α) [Decidable (x ∈ xs)] :
    (xs ++ [x]).eraseDups = if x ∈ xs then xs.eraseDups else xs.eraseDups ++ [x] := by
  rw [List.eraseDups_append]
  unfold List.removeAll
  by_cases hx : x ∈ xs
  · rw [if_pos hx, List.filter_cons_of_neg (by simpa using hx)]
    exact List.append_nil _
  · rw [if_neg hx, List.filter_cons_of_pos (by simpa using hx)]
    rfl

theorem eraseDups_map {α β : Type} [DecidableEq α] [DecidableEq β] {f : α → β}
    (hf : Function.Injective f) (xs : List α) : (xs.map f).eraseDups = xs.eraseDups.map f := by
  induction xs using List.reverseRecOn with
  | nil => rfl
  | append_singleton xs x ih =>
    rw [List.map_append, List.map_singleton, eraseDups_concat, eraseDups_concat, ih,
      apply_ite (List.map f), List.map_append]
    have hmem : f x ∈ xs.map f ↔ x ∈ xs := List.mem_map.trans
      ⟨fun ⟨_, hy, he⟩ => hf he ▸ hy, fun hx => ⟨x, hx, rfl⟩⟩
    exact if_congr hmem rfl rfl

/-- the first occurrences stand in the order of the list -/
theorem pairwise_idxOf_eraseDups {α : Type} [DecidableEq α] (xs : List α) :
    xs.eraseDups.Pairwise fun a b => xs.idxOf a < xs.idxOf b := by
  induction xs using List.reverseRecOn with
  | nil => exact .nil
  | append_singleton xs x ih =>
    have hplace {a : α} (ha : a ∈ xs.eraseDups) : (xs ++ [x]).idxOf a = xs.idxOf a :=
      List.idxOf_append_of_mem (List.mem_eraseDups.1 ha)
    have hkept : xs.eraseDups.Pairwise fun a b => (xs ++ [x]).idxOf a < (xs ++ [x]).idxOf b :=
      ih.imp_of_mem fun ha hb hab => by rwa [hplace ha, hplace hb]
    rw [eraseDups_concat]
    by_cases hx : x ∈ xs
    · rwa [if_pos hx]
    · rw [if_neg hx]
      refine List.pairwise_append.2 ⟨hkept, List.pairwise_singleton _ _, fun a ha b hb => ?_⟩
      rw [List.mem_singleton.1 hb, hplace ha, List.idxOf_append_of_notMem hx]
      exact Nat.lt_add_right _ (List.idxOf_lt_length_of_mem (List.mem_eraseDups.1 ha))

/-- a list without repetitions of the items of `xs`, in the order in which these first occur -/
theorem eq_eraseDups {α : Type} [DecidableEq α] {xs ys : List α} (hnodup : ys.Nodup)
    (hmem : ∀ a, a ∈ ys ↔ a ∈ xs) (horder : ys.Pairwise fun a b => xs.idxOf a < xs.idxOf b) :
    ys = xs.eraseDups := by
  have hperm : ys.Perm xs.eraseDups := (List.perm_ext_iff_of_nodup hnodup (nodup_eraseDups xs)).2
    fun a => (hmem a).trans List.mem_eraseDups.symm
  exact hperm.eq_of_pairwise (fun _ _ _ _ hab hba => absurd hba (Nat.lt_asymm hab)) horder
    (pairwise_idxOf_eraseDups xs)

/-- what satisfies a condition comes first when nothing that does comes after something that does not -/
theorem filter_append_filter_not {α : Type} {p : α → Bool} {xs : List α}
    (h : ∀ a b, [a, b].Sublist xs → p b = true → p a = true) :
    xs.filter p ++ xs.filter (fun x => !p x) = xs := by
  induction xs with
  | nil => rfl
  | cons x xs ih =>
    by_cases hx : p x = true
    · rw [List.filter_cons_of_pos hx, List.filter_cons_of_neg (by simpa using hx), List.cons_append,
        ih fun a b hab => h a b (hab.cons x)]
    · have hrest : ∀ y ∈ xs, ¬p y = true := fun y hy hp =>
        hx (h x y (List.cons_sublist_cons.2 (List.singleton_sublist.2 hy)) hp)
      have hnone : xs.filter p = [] := List.filter_eq_nil_iff.2 hrest
      have hall : xs.filter (fun x => !p x) = xs :=
        List.filter_eq_self.2 fun y hy => by simpa using hrest y hy
      rw [List.filter_cons_of_neg hx, List.filter_cons_of_pos (by simpa using hx), hnone, hall]
      rfl

section
variable {α κ : Type} {key : α → κ}

/-- No key comes back after another one. -/
def Unbroken (key : α → κ) (xs : List α) : Prop :=
  ∀ j k, [j, k, j].Sublist (xs.map key) → j = k

theorem Unbroken.sublist {xs ys : List α} (h : Unbroken key xs) (hys : ys.Sublist xs) :
    Unbroken key ys := fun j k hjk => h j k (hjk.trans (hys.map key))

/-- items of one key before items of other keys -/
theorem Unbroken.append {k : κ} {ys zs : List α} (hys : ∀ y ∈ ys, key y = k)
    (hzs : ∀ z ∈ zs, key z ≠ k) (h : Unbroken key zs) : Unbroken key (ys ++ zs) := by
  intro i j hsub
  have hfirst : ∀ l : List κ, l.Sublist (ys.map key) → ∀ m ∈ l, m = k := by
    intro l hl m hm
    obtain ⟨y, hy, rfl⟩ := List.mem_map.1 (hl.subset hm)
    exact hys y hy
  have hsecond : ∀ l : List κ, l.Sublist (zs.map key) → ∀ m ∈ l, m ≠ k := by
    intro l hl m hm
    obtain ⟨z, hz, rfl⟩ := List.mem_map.1 (hl.subset hm)
    exact hzs z hz
  rw [List.map_append, List.sublist_append_iff] at hsub
  obtain ⟨l, l', hl, hsub, hsub'⟩ := hsub
  match l with
  | [] =>
    rw [List.nil_append] at hl
    exact h i j (hl ▸ hsub')
  | [m] =>
    -- the last one would be of the first part and of the second
    obtain ⟨him, hl⟩ : i = m ∧ [j, i] = l' := List.cons.inj hl
    have hi : i ∈ l' := hl ▸ List.mem_cons_of_mem _ List.mem_cons_self
    exact absurd (him ▸ hfirst _ hsub m List.mem_cons_self) (hsecond _ hsub' i hi)
  | m :: n :: l =>
    obtain ⟨him, hl⟩ := List.cons.inj hl
    obtain ⟨hjn, -⟩ := List.cons.inj hl
    rw [him, hjn, hfirst _ hsub m List.mem_cons_self,
      hfirst _ hsub n (List.mem_cons_of_mem _ List.mem_cons_self)]

end

section
variable {α κ : Type} [DecidableEq κ] {key : α → κ}

/-- The items of a list with those of a key next to each other. -/
def byKey (key : α → κ) (xs : List α) : List α :=
  (xs.map key).eraseDups.flatMap fun k => xs.filter fun x => key x = k

theorem byKey_cons (key : α → κ) (x : α) (xs : List α) : byKey key (x :: xs)
    = (x :: xs.filter fun y => key y = key x) ++
      byKey key (xs.filter fun y => !decide (key y = key x)) := by
  unfold byKey
  rw [List.map_cons, List.eraseDups_cons, List.flatMap_cons, List.filter_cons_of_pos (by simp),
    List.filter_map]
  refine congrArg _ (List.flatMap_congr fun k hk => ?_)
  obtain ⟨y, hy, rfl⟩ := List.mem_map.1 (List.mem_eraseDups.1 hk)
  have hne : key y ≠ key x := by simpa using (List.mem_filter.1 hy).2
  rw [List.filter_cons_of_neg (by simpa using hne.symm), List.filter_filter]
  refine List.filter_congr fun z _ => ?_
  by_cases hz : key z = key y
  · simp [hz, hne]
  · simp [hz]

theorem perm_byKey (key : α → κ) (xs : List α) : (byKey key xs).Perm xs := by
  match xs with
  | [] => exact .nil
  | x :: xs =>
    rw [byKey_cons, List.cons_append]
    have hrest := perm_byKey key (xs.filter fun y => !decide (key y = key x))
    exact ((hrest.append_left _).trans (List.filter_append_perm _ xs)).cons x
termination_by xs.length
decreasing_by exact Nat.lt_succ_of_le (List.length_filter_le _ _)

theorem byKey_eq_self_iff {xs : List α} : byKey key xs = xs ↔ Unbroken key xs := by
  match xs with
  | [] =>
    refine ⟨fun _ j k h => ?_, fun _ => rfl⟩
    cases h
  | x :: xs =>
    let same := xs.filter fun y => key y = key x
    let rest := xs.filter fun y => !decide (key y = key x)
    have hrest : ∀ y ∈ rest, key y ≠ key x := fun y hy => by simpa using (List.mem_filter.1 hy).2
    have hsame : ∀ y ∈ x :: same, key y = key x :=
      List.forall_mem_cons.2 ⟨rfl, fun y hy => by simpa using (List.mem_filter.1 hy).2⟩
    have ih : byKey key rest = rest ↔ Unbroken key rest := byKey_eq_self_iff
    rw [byKey_cons]
    constructor
    · intro h
      -- the items with other keys stand in `xs` as they do by their keys
      have hxs : same ++ byKey key rest = xs := (List.cons.inj h).2
      have hback : byKey key rest = rest := by
        have hkeep : (byKey key rest).filter (fun y => !decide (key y = key x)) = byKey key rest :=
          List.filter_eq_self.2 fun y hy => by
            simpa using hrest y ((perm_byKey key rest).mem_iff.1 hy)
        have hdrop : same.filter (fun y => !decide (key y = key x)) = [] :=
          List.filter_eq_nil_iff.2 fun y hy => by
            simpa using hsame y (List.mem_cons_of_mem _ hy)
        calc byKey key rest
          _ = (same ++ byKey key rest).filter fun y => !decide (key y = key x) := by
              rw [List.filter_append, hdrop, hkeep, List.nil_append]
          _ = rest := by rw [hxs]
      rw [← h, hback]
      exact .append hsame hrest (ih.1 hback)
    · intro h
      have hxs : same ++ rest = xs := filter_append_filter_not fun a b hab hb => by
        have hkeys : [key x, key a, key b].Sublist ((x :: xs).map key) :=
          (List.cons_sublist_cons.2 hab).map key
        rw [of_decide_eq_true hb] at hkeys
        exact decide_eq_true (h _ _ hkeys).symm
      have hback : byKey key rest = rest :=
        ih.2 (h.sublist ((List.filter_sublist).cons x))
      show x :: (same ++ byKey key rest) = x :: xs
      rw [hback, hxs]
termination_by xs.length
decreasing_by exact Nat.lt_succ_of_le (List.length_filter_le _ _)

end
end Linkage
