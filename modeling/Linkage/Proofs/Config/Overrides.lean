import Linkage.Config.Basic
import Linkage.Proofs.Dict.Last

/-!
# Which override a cluster has

The flat text counts more than the table, and in both of them the last one counts that is for the
cluster and not blank.

* `Overrides.IsPair`            an item of the flat text is a pair for a cluster;
* `Overrides.IsEntry`           an entry of the table is for a cluster;
* `Config.get?_overrides_iff`   the override of a cluster in these terms.
-/

namespace Linkage

namespace Overrides

/-- The item is a pair for the cluster: two parts with one colon between them, which are the cluster
and the business without the blanks around them, and neither is empty. -/
def IsPair (cluster : String) (s : List Char) (business : String) : Prop :=
  ∃ l r, s = l ++ ':' :: r ∧ ':' ∉ l ∧ ':' ∉ r ∧
    String.ofList (Text.trim l) = cluster ∧ String.ofList (Text.trim r) = business ∧
    cluster ≠ "" ∧ business ≠ ""

/-- The entry of the table is for the cluster: its key and its value are the cluster and the business
without the blanks around them, and neither is empty. -/
def IsEntry (cluster : String) (e : String × String) (business : String) : Prop :=
  Text.trimmed e.1 = cluster ∧ Text.trimmed e.2 = business ∧ cluster ≠ "" ∧ business ≠ ""

variable {cluster business : String}

theorem ofList_ne_empty_iff {s : List Char} : String.ofList s ≠ "" ↔ s ≠ [] :=
  not_congr (@String.ofList_inj s [])

theorem pair?_item (s : List Char) : (item s).pair? =
    match (Text.splitAt ':' s).map Text.trim with
    | [c, b] => if c ≠ [] ∧ b ≠ [] then some (String.ofList c, String.ofList b) else none
    | _ => none := by
  unfold item
  extract_lets other
  have hother : other.pair? = none := by
    show (if _ then Item.blank else Item.malformed _).pair? = none
    split <;> rfl
  clear_value other
  rcases (Text.splitAt ':' s).map Text.trim with _ | ⟨c, _ | ⟨b, _ | ⟨_, _⟩⟩⟩
  · exact hother
  · exact hother
  · show (if c ≠ [] ∧ b ≠ [] then Item.pair _ _ else other).pair? = if c ≠ [] ∧ b ≠ [] then _ else _
    split
    · rfl
    · exact hother
  · exact hother

theorem pair?_item_iff {s : List Char} :
    (item s).pair? = some (cluster, business) ↔ IsPair cluster s business := by
  rw [pair?_item]
  constructor
  · intro h
    split at h
    · rename_i c b hparts
      obtain ⟨l, rest, hl, rfl, hrest⟩ := List.map_eq_cons_iff.1 hparts
      obtain ⟨r, _, rfl, rfl, hnil⟩ := List.map_eq_cons_iff.1 hrest
      cases List.map_eq_nil_iff.1 hnil
      obtain ⟨hs, hnl, hnr⟩ := Text.splitAt_eq_pair_iff.1 hl
      split at h
      · rename_i hne
        cases h
        exact ⟨l, r, hs, hnl, hnr, rfl, rfl, ofList_ne_empty_iff.2 hne.1, ofList_ne_empty_iff.2 hne.2⟩
      · cases h
    · cases h
  · rintro ⟨l, r, hs, hnl, hnr, rfl, rfl, hcluster, hbusiness⟩
    rw [Text.splitAt_eq_pair_iff.2 ⟨hs, hnl, hnr⟩]
    exact if_pos ⟨ofList_ne_empty_iff.1 hcluster, ofList_ne_empty_iff.1 hbusiness⟩

theorem get?_parse_iff {raw : String} :
    (parse raw).get? cluster = some business ↔
      Dict.Last (IsPair cluster) (Text.splitAt ',' raw.toList) business := by
  have hgives : (fun s b => (item s).pair? = some (cluster, b)) = IsPair cluster := by
    funext s b
    exact propext pair?_item_iff
  unfold parse items
  rw [List.filterMap_map, Dict.get?_ofList_iff_last, ← hgives]
  rfl

/-- What an entry of the table gives, if its parts are not blank. -/
def entry? (e : String × String) : Option (String × String) :=
  if Text.trimmed e.1 ≠ "" ∧ Text.trimmed e.2 ≠ "" then some (Text.trimmed e.1, Text.trimmed e.2)
  else none

theorem entry?_iff {e : String × String} :
    entry? e = some (cluster, business) ↔ IsEntry cluster e business := by
  unfold entry?
  constructor
  · intro h
    split at h
    · rename_i hne
      cases h
      exact ⟨rfl, rfl, hne⟩
    · cases h
  · rintro ⟨rfl, rfl, hne⟩
    exact if_pos hne

theorem ofTable_eq (t : Dict String String) : ofTable t = Dict.ofList (t.entries.filterMap entry?) := by
  unfold ofTable
  rw [← List.filterMap_eq_filter, List.filterMap_map]
  refine congrArg (fun f => Dict.ofList (t.entries.filterMap f)) (funext fun e => ?_)
  simp only [Function.comp_apply, Option.guard, decide_eq_true_eq, entry?]

theorem get?_ofTable_iff {t : Dict String String} :
    (ofTable t).get? cluster = some business ↔
      Dict.Last (IsEntry cluster) t.entries business := by
  have hgives : (fun e b => entry? e = some (cluster, b)) = IsEntry cluster := by
    funext e b
    exact propext entry?_iff
  rw [ofTable_eq, Dict.get?_ofList_iff_last, hgives]

end Overrides

namespace Config

variable {cluster business : String}

/-- The flat text has an override for the cluster, of which the last is the business. -/
def RawForces (c : Config) (cluster business : String) : Prop :=
  ∃ raw, c.cluster.raw = some raw ∧
    Dict.Last (Overrides.IsPair cluster) (Text.splitAt ',' raw.toList) business

theorem get?_overrides_iff {c : Config} :
    c.overrides.get? cluster = some business ↔
      c.RawForces cluster business ∨ (¬∃ b, c.RawForces cluster b) ∧
        Dict.Last (Overrides.IsEntry cluster) c.cluster.table.entries business := by
  rw [← Overrides.get?_ofTable_iff]
  unfold overrides RawForces
  cases c.cluster.raw with
  | none => simp only [reduceCtorEq, false_and, exists_false, not_false_eq_true, true_and, false_or]
  | some raw =>
    simp only [Option.some.injEq, exists_eq_left', ← Overrides.get?_parse_iff, Dict.get?_layer]
    cases (Overrides.parse raw).get? cluster with
    | none =>
      simp only [Option.none_or, reduceCtorEq, exists_false, not_false_eq_true, true_and, false_or]
    | some b =>
      simp only [Option.some_or, Option.some.injEq, exists_eq', not_true_eq_false, false_and,
        or_false]

end Config
end Linkage
