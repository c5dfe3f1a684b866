import Linkage.Proofs.Store.Commit
import Linkage.Proofs.Store.Named

/-!
# The rows of one scope

What is looked up in a scope is found among its rows, whatever rows other scopes have, and what is
written to it changes them by themselves.

* `Table.within`                      the rows of a scope, in the order of their ids;
* `named?_within`, `within_stamped`   a look-up by name, and owners given by ids;
* `within_putLink`                    a link that is written.
-/

namespace Linkage

namespace Table

section
variable {α κ : Type} {key : α → Option κ}

/-- The rows of a scope. -/
def within (scopeOf : α → Scope) (scope : Scope) (t : Table key) : List (Row α) :=
  t.rows.filter fun r => scopeOf r.val = scope

variable {scopeOf : α → Scope} {t : Table key}

theorem find?_within (scope : Scope) (p : Row α → Bool) :
    (t.within scopeOf scope).find? p = t.find? fun r => scopeOf r.val = scope ∧ p r = true := by
  unfold within find?
  rw [List.find?_filter]
  refine congrArg (fun q => t.rows.find? q) (funext fun r => ?_)
  simp only [decide_eq_true_eq]

/-- a change that keeps the scopes changes the rows of a scope by themselves -/
theorem within_modify {p : Row α → Bool} {f : α → α} {h : ∀ a, key (f a) = key a}
    (hf : ∀ a, scopeOf (f a) = scopeOf a) (scope : Scope) :
    (t.modify p f h).within scopeOf scope = (t.within scopeOf scope).map (change p f) := by
  have hchange : ∀ r, scopeOf (change p f r).val = scopeOf r.val := by
    intro r
    unfold change
    split
    · exact hf r.val
    · rfl
  unfold within
  rw [rows_modify, List.filter_map]
  refine congrArg _ (List.filter_congr fun r _ => ?_)
  rw [Function.comp, hchange]

end

section
variable {δ : Type} {t u : Table (Component.key (δ := δ))} {scope : Scope}

theorem named?_within (t : Table (Component.key (δ := δ))) (scope : Scope) (name : String) :
    t.named? scope name = (t.within Component.scope scope).find? fun r => r.val.name = name := by
  rw [find?_within]
  refine congrArg t.find? (funext fun r => ?_)
  unfold Query.isNamed
  simp only [decide_eq_true_eq]

/-- owners given by ids are given to the rows of a scope by themselves -/
theorem within_stamped (t : Table (Component.key (δ := δ))) (p : Row (Component δ) → Bool)
    (owner : String) (scope : Scope) : (Query.stamped t p owner).within Component.scope scope
      = (t.within Component.scope scope).map (change p (Component.own owner)) :=
  within_modify (f := Component.own owner) (fun _ => rfl) scope

variable (h : u.within Component.scope scope = t.within Component.scope scope)
include h

theorem within_stamped_congr (p : Row (Component δ) → Bool) (owner : String) :
    (Query.stamped u p owner).within Component.scope scope
      = (Query.stamped t p owner).within Component.scope scope := by
  rw [within_stamped, within_stamped, h]

theorem named?_congr (name : String) : u.named? scope name = t.named? scope name := by
  rw [named?_within, named?_within, h]

theorem found_congr (names : List String) : u.found scope names = t.found scope names :=
  List.filterMap_congr fun n _ => named?_congr h n

theorem lost_congr (names : List String) : u.lost scope names = t.lost scope names :=
  List.filter_congr fun n _ => by rw [named?_congr h]

end

end Table

/-! ## links -/

namespace Store

variable {d : LinkDraft} {now : Int} {s : Store}

theorem find?_isLink (s : Store) (scope : Scope) (name : String) :
    s.links.find? (Query.isLink scope name)
      = (s.links.within Link.scope scope).find? fun r => r.val.name = name := by
  rw [Table.find?_within]
  refine congrArg s.links.find? (funext fun r => ?_)
  unfold Query.isLink
  simp only [decide_eq_true_eq]

/-- a link is written to the row of its name in its scope, or to a new one -/
theorem within_putLink (d : LinkDraft) (now : Int) (s : Store) :
    (s.putLink d now).2.links.last = s.links.last + 1 ∧
    (s.putLink d now).2.links.within Link.scope d.scope =
      if ((s.links.within Link.scope d.scope).find? fun r => r.val.name = d.name).isSome then
        (s.links.within Link.scope d.scope).map
          (Table.change (Query.isLink d.scope d.name) (Query.renewed d now))
      else s.links.within Link.scope d.scope ++ [⟨s.links.last + 1, Query.newLink d now⟩] := by
  rw [← find?_isLink]
  unfold putLink
  cases hf : s.links.find? (Query.isLink d.scope d.name) with
  | some r =>
    refine ⟨rfl, ?_⟩
    simp only [Option.isSome_some, if_true]
    exact Table.within_modify (h := key_renewed d now) (fun _ => rfl) d.scope
  | none =>
    obtain ⟨t, i, ht⟩ := insert?_newLink now hf
    obtain ⟨hrows, hi⟩ := Table.rows_insert? ht
    simp only [ht, Option.isSome_none, Bool.false_eq_true, if_false]
    refine ⟨(Table.last_insert? ht).trans hi, ?_⟩
    unfold Table.within
    rw [hrows, List.filter_append, hi]
    refine congrArg _ (List.filter_cons_of_pos ?_)
    exact decide_eq_true rfl

end Store

end Linkage
