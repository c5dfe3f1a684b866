import Mathlib.Data.List.Induction
import Mathlib.Data.List.Nodup
import Linkage.Dict

/-!
# The last value of a key

When the pairs of a list are put one after the other, the last one of a key counts.

* `Dict.mem_keys_putAll`        the keys of the map: those that were there and those of the pairs;
* `Dict.Last`                   what the last of several things that give anything gives;
* `Dict.last_iff_exists`        any of them will do where all give the same;
* `Dict.get?_ofList_iff_last`   this is the value in the map of the pairs that things give;
* `Dict.ofList_of_perm`         a map is that of its pairs, however they are put in order;
* `Dict.perm_ofList`            pairs of different keys are those of their map;
* `Dict.get?_layer`             a read where one map is on top of another;
* `Dict.Highest`                the value that the highest of several things gives a key;
* `Dict.get?_ofList_filterMap`  this is the value in the map, when the things come in their order.
-/

set_option linter.unusedSectionVars false

namespace Linkage.Dict

open Std

section
variable {κ α β : Type} [Ord κ] [TransOrd κ] [LawfulEqOrd κ] [DecidableEq κ]

theorem putAll_nil (d : Dict κ α) : d.putAll [] = d := rfl

theorem putAll_cons (d : Dict κ α) (e : κ × α) (es : List (κ × α)) :
    d.putAll (e :: es) = (d.put e.1 e.2).putAll es := rfl

theorem putAll_append (d : Dict κ α) (es fs : List (κ × α)) :
    d.putAll (es ++ fs) = (d.putAll es).putAll fs := List.foldl_append

theorem nodup_keys (d : Dict κ α) : d.keys.Nodup := by
  unfold keys
  rw [List.Nodup, List.pairwise_map]
  refine d.rising.imp fun hlt he => ?_
  rw [he, compare_self] at hlt
  cases hlt

theorem mem_keys_put {d : Dict κ α} {j k : κ} {a : α} :
    j ∈ (d.put k a).keys ↔ j = k ∨ j ∈ d.keys := by
  rw [← contains_iff, ← contains_iff]
  unfold contains
  rw [get?_put]
  by_cases h : j = k
  · rw [if_pos h]
    exact ⟨fun _ => .inl h, fun _ => rfl⟩
  · rw [if_neg h]
    exact ⟨.inr, fun hj => hj.resolve_left h⟩

theorem mem_keys_putAll {d : Dict κ α} {es : List (κ × α)} {j : κ} :
    j ∈ (d.putAll es).keys ↔ j ∈ d.keys ∨ j ∈ es.map Prod.fst := by
  induction es generalizing d with
  | nil =>
    rw [putAll_nil, List.map_nil]
    exact ⟨.inl, fun h => h.resolve_right List.not_mem_nil⟩
  | cons e es ih =>
    rw [putAll_cons, ih, mem_keys_put, List.map_cons, List.mem_cons, or_assoc]
    exact or_left_comm

theorem mem_of_mem_putAll {d : Dict κ α} {es : List (κ × α)} {e : κ × α}
    (h : e ∈ (d.putAll es).entries) : e ∈ d.entries ∨ e ∈ es := by
  induction es generalizing d with
  | nil => exact .inl h
  | cons a es ih =>
    rcases ih h with hput | hmem
    · rcases mem_insertEntry hput with rfl | hmem
      · exact .inr List.mem_cons_self
      · exact .inl hmem
    · exact .inr (List.mem_cons_of_mem a hmem)

/-- the pairs of a map are among those of the list -/
theorem mem_of_mem_ofList {es : List (κ × α)} {e : κ × α} (h : e ∈ (ofList es).entries) : e ∈ es :=
  (mem_of_mem_putAll h).resolve_left List.not_mem_nil

theorem get?_ofList_concat (es : List (κ × α)) (e : κ × α) (k : κ) :
    (ofList (es ++ [e])).get? k = if k = e.1 then some e.2 else (ofList es).get? k := by
  unfold ofList
  rw [putAll_append]
  exact get?_put _ _ _ _

end

section
variable {α β : Type} {gives : β → α → Prop} {xs : List β} {x : β} {a : α}

/-- Of the things that give anything, the last one gives `a`. -/
def Last (gives : β → α → Prop) (xs : List β) (a : α) : Prop :=
  ∃ before x after, xs = before ++ x :: after ∧ gives x a ∧ ∀ y ∈ after, ∀ b, ¬gives y b

theorem not_last_nil : ¬Last gives [] a := by
  intro ⟨before, x, after, h, _⟩
  cases List.nil_eq_append_iff.1 h |>.2

theorem last_concat :
    Last gives (xs ++ [x]) a ↔ gives x a ∨ (∀ b, ¬gives x b) ∧ Last gives xs a := by
  constructor
  · intro ⟨before, y, after, h, hy, hafter⟩
    rcases List.eq_nil_or_concat after with rfl | ⟨after, z, rfl⟩
    · obtain ⟨-, hxy⟩ := List.append_inj' h rfl
      cases hxy
      exact .inl hy
    · rw [List.concat_eq_append, ← List.cons_append, ← List.append_assoc] at h
      obtain ⟨hxs, hxz⟩ := List.append_inj' h rfl
      cases hxz
      have hmem {w : β} (hw : w ∈ after ++ [x]) : w ∈ after.concat x := by
        rwa [List.concat_eq_append]
      refine .inr ⟨hafter x (hmem (by simp)), before, y, after, hxs, hy, fun w hw => ?_⟩
      exact hafter w (hmem (List.mem_append_left _ hw))
  · rintro (hx | ⟨hx, before, y, after, rfl, hy, hafter⟩)
    · exact ⟨xs, x, [], rfl, hx, nofun⟩
    · refine ⟨before, y, after ++ [x], by rw [List.append_assoc, List.cons_append], hy, ?_⟩
      intro w hw
      rcases List.mem_append.1 hw with hw | hw
      · exact hafter w hw
      · cases List.mem_singleton.1 hw
        exact hx

theorem Last.exists_mem (h : Last gives xs a) : ∃ x ∈ xs, gives x a := by
  obtain ⟨before, x, after, rfl, hx, -⟩ := h
  exact ⟨x, List.mem_append_right _ List.mem_cons_self, hx⟩

/-- where all things give the same, it does not matter which is the last -/
theorem last_iff_exists
    (h : ∀ x ∈ xs, ∀ y ∈ xs, ∀ a b, gives x a → gives y b → a = b) :
    Last gives xs a ↔ ∃ x ∈ xs, gives x a := by
  refine ⟨Last.exists_mem, fun hmem => ?_⟩
  obtain ⟨x, hx, hgives⟩ := hmem
  induction xs using List.reverseRecOn with
  | nil => cases hx
  | append_singleton xs y ih =>
    rw [last_concat]
    by_cases hy : ∃ b, gives y b
    · obtain ⟨b, hb⟩ := hy
      rw [h x hx y (List.mem_append_right _ List.mem_cons_self) a b hgives hb]
      exact .inl hb
    · rw [not_exists] at hy
      refine .inr ⟨hy, ih (fun u hu v hv => ?_) ?_⟩
      · exact h u (List.mem_append_left _ hu) v (List.mem_append_left _ hv)
      · rcases List.mem_append.1 hx with hx | hx
        · exact hx
        · cases List.mem_singleton.1 hx
          exact absurd hgives (hy a)

end

section
variable {κ α β : Type} [Ord κ] [TransOrd κ] [LawfulEqOrd κ] [DecidableEq κ] {d e : Dict κ α}
  {f : β → Option (κ × α)} {xs : List β} {k : κ} {a : α}

/-- of the things that give a key a value, the last one decides -/
theorem get?_ofList_iff_last :
    (ofList (xs.filterMap f)).get? k = some a ↔ Last (fun x a => f x = some (k, a)) xs a := by
  induction xs using List.reverseRecOn with
  | nil => exact ⟨nofun, fun h => absurd h not_last_nil⟩
  | append_singleton xs x ih =>
    rw [List.filterMap_append, last_concat, ← ih]
    cases hfx : f x with
    | none =>
      have hnone : [x].filterMap f = [] := List.filterMap_cons_none hfx
      rw [hnone, List.append_nil]
      exact ⟨fun h => .inr ⟨fun _ => nofun, h⟩, fun h => h.elim nofun And.right⟩
    | some e =>
      have hsome : [x].filterMap f = [e] := List.filterMap_cons_some hfx
      rw [hsome, get?_ofList_concat]
      by_cases hk : k = e.1
      · subst hk
        rw [if_pos rfl, Option.some.injEq, Option.some.injEq, Prod.ext_iff]
        refine ⟨fun h => .inl ⟨rfl, h⟩, fun h => h.elim And.right fun h => ?_⟩
        exact absurd rfl (h.1 e.2)
      · rw [if_neg hk]
        have hno (b : α) : ¬some e = some (k, b) := by
          rw [Option.some.injEq]
          exact fun h => hk (congrArg Prod.fst h).symm
        exact ⟨fun h => .inr ⟨hno, h⟩, fun h => h.elim (absurd · (hno a)) And.right⟩

theorem get?_putAll (d : Dict κ α) (es : List (κ × α)) (k : κ) :
    (d.putAll es).get? k = ((ofList es).get? k).or (d.get? k) := by
  induction es using List.reverseRecOn with
  | nil => rfl
  | append_singleton es e ih =>
    rw [get?_ofList_concat, putAll_append, putAll_cons, putAll_nil, get?_put]
    by_cases hk : k = e.1
    · rw [if_pos hk, if_pos hk]
      rfl
    · rw [if_neg hk, if_neg hk, ih]

/-- a map is that of its pairs, in any order -/
theorem ofList_of_perm {es : List (κ × α)} (h : es.Perm d.entries) : ofList es = d := by
  refine ext_get? fun k => Option.ext fun a => ?_
  have hlast := @get?_ofList_iff_last κ α (κ × α) _ _ _ _ some es k a
  rw [List.filterMap_some] at hlast
  -- a key has one value in the map, so it does not matter which of its pairs comes last
  have hone : ∀ x ∈ es, ∀ y ∈ es, ∀ b c, some x = some (k, b) → some y = some (k, c) → b = c := by
    intro x hx y hy b c hxb hyc
    cases hxb
    cases hyc
    have hb := get?_eq_some_iff.2 (h.mem_iff.1 hx)
    rw [get?_eq_some_iff.2 (h.mem_iff.1 hy), Option.some.injEq] at hb
    exact hb.symm
  rw [hlast, last_iff_exists hone, get?_eq_some_iff, ← h.mem_iff]
  constructor
  · rintro ⟨x, hx, hxa⟩
    cases hxa
    exact hx
  · intro hmem
    exact ⟨(k, a), hmem, rfl⟩

theorem ofList_entries (d : Dict κ α) : ofList d.entries = d := ofList_of_perm (.refl _)

/-- pairs of different keys are those of their map -/
theorem perm_ofList {es : List (κ × α)} (h : (es.map Prod.fst).Nodup) :
    es.Perm (ofList es).entries := by
  refine (List.perm_ext_iff_of_nodup (List.Nodup.of_map _ h)
    (List.Nodup.of_map _ (nodup_keys (ofList es)))).2 fun e => ⟨fun he => ?_, mem_of_mem_ofList⟩
  obtain ⟨⟨k, a⟩, hmem, hk⟩ : ∃ x ∈ (ofList es).entries, x.1 = e.1 :=
    List.mem_map.1 (mem_keys_putAll.2 (.inr (List.mem_map_of_mem he)))
  rwa [List.inj_on_of_nodup_map h he (mem_of_mem_ofList hmem) hk.symm]

theorem get?_layer (d e : Dict κ α) (k : κ) : (d.layer e).get? k = (e.get? k).or (d.get? k) := by
  rw [layer, get?_putAll, ofList_entries]

end

section
variable {κ α β : Type} {place : β → Int} {f : β → Option (κ × α)} {xs : List β} {k : κ} {a : α}

/-- Of the things that give `k` a value, the one in the highest place gives it `a`. -/
def Highest (place : β → Int) (f : β → Option (κ × α)) (xs : List β) (k : κ) (a : α) : Prop :=
  ∃ x ∈ xs, f x = some (k, a) ∧ ∀ y ∈ xs, ∀ b, f y = some (k, b) → place y ≤ place x

/-- when the places rise the highest is the last -/
theorem last_iff_highest (h : xs.Pairwise fun x y => place x < place y) :
    Last (fun x a => f x = some (k, a)) xs a ↔ Highest place f xs k a := by
  constructor
  · rintro ⟨before, x, after, rfl, hx, hafter⟩
    refine ⟨x, List.mem_append_right _ List.mem_cons_self, hx, fun y hy b hb => ?_⟩
    rcases List.mem_append.1 hy with hy | hy
    · exact Int.le_of_lt ((List.pairwise_append.1 h).2.2 y hy x List.mem_cons_self)
    · rcases List.mem_cons.1 hy with rfl | hy
      · exact Int.le_refl _
      · exact absurd hb (hafter y hy b)
  · intro ⟨x, hx, hfx, hmax⟩
    obtain ⟨before, after, rfl⟩ := List.append_of_mem hx
    refine ⟨before, x, after, rfl, hfx, fun y hy b hb => ?_⟩
    have hlt := (List.pairwise_cons.1 (List.pairwise_append.1 h).2.1).1 y hy
    have hle := hmax y (List.mem_append_right _ (List.mem_cons_of_mem _ hy)) b hb
    omega

variable [Ord κ] [TransOrd κ] [LawfulEqOrd κ] [DecidableEq κ]

/-- when the pairs are read off things in their order, the highest bearer of a key gives its value -/
theorem get?_ofList_filterMap (h : xs.Pairwise fun x y => place x < place y) :
    (ofList (xs.filterMap f)).get? k = some a ↔ Highest place f xs k a :=
  get?_ofList_iff_last.trans (last_iff_highest h)

end

end Linkage.Dict
