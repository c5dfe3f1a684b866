import Mathlib.Data.List.Basic
import Mathlib.Data.List.TakeWhile
import Linkage.Proofs.Config.Overrides

/-!
# The items of an override text

What a text of overrides says is said item by item: two texts with a comma between them say what the
second says on top of the first, and an item that is no pair says nothing.

* `Overrides.IsAccepted`, `Overrides.IsBlank`   an item is a pair, or has nothing but blanks;
* `Overrides.item_cases`        each item is read as a pair, as blank, or as malformed;
* `Overrides.parse_append`      the second text is a layer on the first;
* `Overrides.parse_accepted`    only the items that are accepted count;
* `overrides_read_by_item`      all this of every text.
-/

namespace Linkage

/-- nothing is left of a text that has nothing but blanks -/
theorem Text.trim_eq_nil_iff {s : List Char} : trim s = [] ↔ ∀ c ∈ s, isBlank c = true := by
  unfold trim trimEnd
  rw [List.reverse_eq_nil_iff, List.dropWhile_eq_nil_iff]
  constructor
  · intro h
    refine List.dropWhile_eq_nil_iff.1 (show trimStart s = [] from ?_)
    -- a first character that is left would be no blank, and all that are left are blanks
    cases hs : trimStart s with
    | nil => rfl
    | cons d r =>
      have hd := head_trimStart s d (by rw [hs]; rfl)
      rw [h d (by rw [hs]; exact List.mem_reverse.2 List.mem_cons_self)] at hd
      cases hd
  · intro h c hc
    have hnil : trimStart s = [] := List.dropWhile_eq_nil_iff.2 h
    rw [hnil] at hc
    cases hc

namespace Dict

open Std

variable {κ α : Type} [Ord κ] [TransOrd κ] [LawfulEqOrd κ] [DecidableEq κ]

/-- pairs put after others are a layer on them -/
theorem ofList_append (es fs : List (κ × α)) :
    ofList (es ++ fs) = (ofList es).layer (ofList fs) := by
  refine ext_get? fun k => ?_
  rw [get?_layer, ← get?_putAll]
  exact congrArg (get? · k) (putAll_append empty es fs)

end Dict

namespace Overrides

/-- The item is a pair for some cluster. -/
def IsAccepted (s : List Char) : Prop := ∃ cluster business, IsPair cluster s business

/-- The item has nothing but blanks. -/
def IsBlank (s : List Char) : Prop := ∀ c ∈ s, Text.isBlank c = true

theorem isSome_pair?_iff {s : List Char} : (item s).pair?.isSome = true ↔ IsAccepted s := by
  rw [Option.isSome_iff_exists]
  constructor
  · rintro ⟨⟨c, b⟩, h⟩
    exact ⟨c, b, pair?_item_iff.1 h⟩
  · rintro ⟨c, b, h⟩
    exact ⟨(c, b), pair?_item_iff.2 h⟩

instance (s : List Char) : Decidable (IsAccepted s) := decidable_of_iff _ isSome_pair?_iff

instance (s : List Char) : Decidable (IsBlank s) :=
  inferInstanceAs (Decidable (∀ c ∈ s, Text.isBlank c = true))

/-- an item that is accepted has a part that is not blank -/
theorem IsAccepted.not_blank {s : List Char} (h : IsAccepted s) : ¬IsBlank s := by
  rintro hblank
  obtain ⟨cluster, _, l, r, rfl, -, -, hl, -, hcluster, -⟩ := h
  have hnil : Text.trim l = [] :=
    Text.trim_eq_nil_iff.2 fun c hc => hblank c (List.mem_append_left _ hc)
  rw [hnil] at hl
  exact hcluster hl.symm

/-- an item that is no pair is read as blank, or else as malformed with its text -/
theorem item_of_not_accepted {s : List Char} (h : ¬IsAccepted s) :
    item s = if IsBlank s then .blank else .malformed (String.ofList s) := by
  have hpair : (item s).pair? = none := by
    rw [← Option.not_isSome_iff_eq_none, isSome_pair?_iff]
    exact h
  have hread : item s = if Text.trim s = [] then .blank else .malformed (String.ofList s) := by
    rw [pair?_item] at hpair
    unfold item
    generalize (Text.splitAt ':' s).map Text.trim = parts at hpair ⊢
    rcases parts with _ | ⟨c, _ | ⟨b, _ | ⟨_, _⟩⟩⟩
    · rfl
    · rfl
    · refine if_neg fun hne => ?_
      simp only [if_pos hne, reduceCtorEq] at hpair
    · rfl
  rw [hread]
  exact if_congr Text.trim_eq_nil_iff rfl rfl

/-- each item is read as a pair, as blank, or as malformed -/
theorem item_cases (s : List Char) :
    (IsAccepted s ∧ (item s).malformed? = none) ∨
      (¬IsAccepted s ∧ (item s).pair? = none ∧
        (item s).malformed? = if IsBlank s then none else some (String.ofList s)) := by
  by_cases h : IsAccepted s
  · refine .inl ⟨h, ?_⟩
    obtain ⟨c, b, hpair⟩ := h
    have hread := pair?_item_iff.2 hpair
    cases hs : item s with
    | pair c b => rfl
    | blank => rfl
    | malformed t =>
      rw [hs] at hread
      cases hread
  · refine .inr ⟨h, ?_⟩
    rw [item_of_not_accepted h]
    split <;> exact ⟨rfl, rfl⟩

theorem parse_eq (s : String) :
    parse s = Dict.ofList ((Text.splitAt ',' s.toList).filterMap fun s => (item s).pair?) := by
  unfold parse items
  rw [List.filterMap_map]
  rfl

/-- a text after another one is a layer on it -/
theorem parse_append (a b : String) : parse (a ++ "," ++ b) = (parse a).layer (parse b) := by
  have hparts : Text.splitAt ',' (a ++ "," ++ b).toList
      = Text.splitAt ',' a.toList ++ Text.splitAt ',' b.toList := by
    rw [String.toList_append, String.toList_append, List.append_assoc]
    exact Text.splitAt_append ',' a.toList b.toList
  rw [parse_eq, hparts, List.filterMap_append, Dict.ofList_append, ← parse_eq, ← parse_eq]

/-- The text of a list of items. -/
def joined (items : List (List Char)) : String := String.ofList (Text.joinWith [','] items)

/-- items that are no pairs can be left out -/
theorem parse_accepted (s : String) :
    parse (joined ((Text.splitAt ',' s.toList).filter IsAccepted)) = parse s := by
  have hfilter : ((Text.splitAt ',' s.toList).filter IsAccepted).filterMap (fun s => (item s).pair?)
      = (Text.splitAt ',' s.toList).filterMap fun s => (item s).pair? := by
    rw [List.filterMap_filter]
    refine List.filterMap_congr fun x _ => ?_
    by_cases hx : IsAccepted x
    · exact if_pos (decide_eq_true hx)
    · rcases item_cases x with ⟨h, -⟩ | ⟨-, h, -⟩
      · exact absurd h hx
      · rw [h, ite_self]
  rw [parse_eq s, ← hfilter]
  unfold joined
  rw [parse_eq, String.toList_ofList]
  by_cases hnone : (Text.splitAt ',' s.toList).filter (fun s => decide (IsAccepted s)) = []
  · rw [hnone]
    rfl
  · rw [Text.splitAt_joinWith hnone]
    intro p hp
    exact Text.not_mem_of_mem_splitAt (List.mem_filter.1 hp).1

theorem ignored_eq (s : String) :
    ignored s = ((Text.splitAt ',' s.toList).filter fun s => ¬IsAccepted s ∧ ¬IsBlank s).map
      String.ofList := by
  unfold ignored items
  rw [List.filterMap_map, ← List.filterMap_eq_map, List.filterMap_filter]
  refine List.filterMap_congr fun x _ => ?_
  show (item x).malformed? = _
  rcases item_cases x with ⟨h, hread⟩ | ⟨h, -, hread⟩
  · rw [hread, if_neg]
    rw [decide_eq_true_iff]
    exact fun hn => hn.1 h
  · rw [hread]
    by_cases hb : IsBlank x
    · rw [if_pos hb, if_neg]
      rw [decide_eq_true_iff]
      exact fun hn => hn.2 hb
    · rw [if_neg hb, if_pos (decide_eq_true ⟨h, hb⟩)]
      rfl

end Overrides

open Overrides in
/-- A text of overrides is read item by item.  A text behind another one and a comma is a layer on it,
wherever the whole is cut; a cluster has the business of the last item that is a pair for it, two
parts with one colon between them of which blanks at their ends do not count.  An item that is
accepted is not blank, and those that are neither are reported, each as it is written and in their
order; without all that is not accepted a text says the same. -/
theorem overrides_read_by_item :
    (∀ a b, parse (a ++ "," ++ b) = (parse a).layer (parse b)) ∧
    (∀ raw cluster business, (parse raw).get? cluster = some business ↔
      Dict.Last (IsPair cluster) (Text.splitAt ',' raw.toList) business) ∧
    (∀ s, IsAccepted s → ¬IsBlank s) ∧
    (∀ raw, ignored raw = ((Text.splitAt ',' raw.toList).filter fun s =>
      ¬IsAccepted s ∧ ¬IsBlank s).map String.ofList) ∧
    ∀ raw, parse (joined ((Text.splitAt ',' raw.toList).filter IsAccepted)) = parse raw :=
  ⟨parse_append, fun _ _ _ => get?_parse_iff, fun _ => IsAccepted.not_blank, ignored_eq,
    parse_accepted⟩

/-- a cluster that comes twice, blanks, and items with too few and too many colons -/
example : Overrides.parse "a:1, b : 2 ,a:b:c,,:4,a:3" = Dict.ofList [("a", "3"), ("b", "2")] ∧
    Overrides.ignored "a:1, b : 2 ,a:b:c,,:4,a:3" = ["a:b:c", ":4"] := by decide +kernel

end Linkage
