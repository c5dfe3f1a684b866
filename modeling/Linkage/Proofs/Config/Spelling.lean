import Linkage.Proofs.Config.Items

/-!
# The texts of a table of overrides

A table whose clusters and businesses can stand on either side of the colon has a text, and many of
them: the entries come in any order, with any blanks around their parts.

* `Text.trim_padded`           blanks around a text that has none at its ends are cut off;
* `Overrides.IsPart`           what can stand on either side of the colon;
* `Overrides.hasParts_parse`   a table that is read has no others;
* `Overrides.Spelling`         an entry as it may be written;
* `overrides_read_back`        a table of such parts is read from each of its texts.
-/

namespace Linkage

namespace Text

section
variable {s : List Char}

theorem mem_of_mem_trim {c : Char} (h : c ∈ trim s) : c ∈ s := by
  obtain ⟨t, ht⟩ := exists_trimEnd_append (trimStart s)
  have hstart : c ∈ trimStart s := by
    rw [← ht]
    exact List.mem_append_left t h
  exact (List.dropWhile_suffix isBlank).mem hstart

theorem trim_padded {a b : List Char} (ha : ∀ c ∈ a, isBlank c = true)
    (hb : ∀ c ∈ b, isBlank c = true) (hs : Trimmed s) (hne : s ≠ []) :
    trim (a ++ s ++ b) = s := by
  have hhead : (s ++ b).head? = s.head? := by
    cases s with
    | nil => exact absurd rfl hne
    | cons c s => rfl
  have hstart : trimStart (a ++ s ++ b) = s ++ b := by
    rw [List.append_assoc]
    unfold trimStart
    rw [List.dropWhile_append_of_pos ha]
    exact trimStart_of_head (by rw [hhead]; exact hs.1)
  have hend : trimEnd (s ++ b) = trimEnd s := by
    unfold trimEnd
    rw [List.reverse_append, List.dropWhile_append_of_pos]
    intro c hc
    exact hb c (List.mem_reverse.1 hc)
  rw [trim, hstart, hend, trimEnd_of_last hs.2]

end

end Text

namespace Overrides

/-- What can stand on either side of the colon: a text that is not empty, in which there is neither a
comma nor a colon, and no blank at its ends. -/
structure IsPart (s : String) : Prop where
  ne_empty : s ≠ ""
  no_comma : ',' ∉ s.toList
  no_colon : ':' ∉ s.toList
  trimmed : Text.Trimmed s.toList

theorem isPart_iff {s : String} : IsPart s ↔
    s ≠ "" ∧ ',' ∉ s.toList ∧ ':' ∉ s.toList ∧ Text.trim s.toList = s.toList := by
  rw [Text.trim_eq_self_iff]
  exact ⟨fun h => ⟨h.1, h.2, h.3, h.4⟩, fun ⟨h1, h2, h3, h4⟩ => ⟨h1, h2, h3, h4⟩⟩

instance (s : String) : Decidable (IsPart s) := decidable_of_iff _ isPart_iff.symm

/-- Clusters and businesses of a table can be written. -/
def HasParts (t : Overrides) : Prop := ∀ e ∈ t.entries, IsPart e.1 ∧ IsPart e.2

instance (t : Overrides) : Decidable t.HasParts :=
  inferInstanceAs (Decidable (∀ e ∈ t.entries, IsPart e.1 ∧ IsPart e.2))

/-! ## what is read -/

theorem isPart_of_trim {l : List Char} (hne : String.ofList (Text.trim l) ≠ "")
    (hcomma : ',' ∉ l) (hcolon : ':' ∉ l) : IsPart (String.ofList (Text.trim l)) where
  ne_empty := hne
  no_comma h := hcomma (Text.mem_of_mem_trim (by rwa [String.toList_ofList] at h))
  no_colon h := hcolon (Text.mem_of_mem_trim (by rwa [String.toList_ofList] at h))
  trimmed := by
    rw [String.toList_ofList]
    exact Text.trimmed_trim l

theorem hasParts_parse (raw : String) : (parse raw).HasParts := by
  rintro ⟨cluster, business⟩ he
  obtain ⟨s, hs, l, r, rfl, hl, hr, rfl, rfl, hcluster, hbusiness⟩ :=
    (get?_parse_iff.1 (Dict.get?_eq_some_iff.2 he)).exists_mem
  have hcomma := Text.not_mem_of_mem_splitAt hs
  rw [List.mem_append, List.mem_cons, not_or, not_or] at hcomma
  exact ⟨isPart_of_trim hcluster hcomma.1 hl, isPart_of_trim hbusiness hcomma.2.2 hr⟩

/-! ## what is written -/

/-- Any number of blanks. -/
abbrev Blanks := { s : List Char // IsBlank s }

/-- A part with blanks before and behind it. -/
def padded (around : Blanks × Blanks) (s : String) : List Char :=
  around.1.val ++ s.toList ++ around.2.val

/-- An entry as it may be written, with blanks around the cluster and around the business. -/
structure Spelling where
  entry : String × String
  cluster : Blanks × Blanks
  business : Blanks × Blanks

def Spelling.chars (w : Spelling) : List Char :=
  padded w.cluster w.entry.1 ++ ':' :: padded w.business w.entry.2

variable {s : String} {c : Char}

theorem not_mem_padded (around : Blanks × Blanks) (hc : Text.isBlank c = false)
    (hs : c ∉ s.toList) : c ∉ padded around s := by
  have hblank (b : Blanks) : c ∉ b.val := by
    intro h
    rw [b.property c h] at hc
    cases hc
  unfold padded
  rw [List.mem_append, List.mem_append, not_or, not_or]
  exact ⟨⟨hblank _, hs⟩, hblank _⟩

theorem trim_padded (around : Blanks × Blanks) (h : IsPart s) :
    String.ofList (Text.trim (padded around s)) = s := by
  have hne : s.toList ≠ [] := fun hs => h.ne_empty (String.toList_eq_nil_iff.1 hs)
  unfold padded
  rw [Text.trim_padded around.1.property around.2.property h.trimmed hne, String.ofList_toList]

/-- however its entry is written, it is read -/
theorem Spelling.pair?_item {w : Spelling} (h : IsPart w.entry.1 ∧ IsPart w.entry.2) :
    (item w.chars).pair? = some w.entry :=
  pair?_item_iff.2 ⟨_, _, rfl, not_mem_padded _ (by decide) h.1.no_colon,
    not_mem_padded _ (by decide) h.2.no_colon, trim_padded _ h.1, trim_padded _ h.2,
    h.1.ne_empty, h.2.ne_empty⟩

theorem Spelling.no_comma {w : Spelling} (h : IsPart w.entry.1 ∧ IsPart w.entry.2) :
    ',' ∉ w.chars := by
  unfold chars
  rw [List.mem_append, List.mem_cons, not_or, not_or]
  exact ⟨not_mem_padded _ (by decide) h.1.no_comma, by decide,
    not_mem_padded _ (by decide) h.2.no_comma⟩

theorem parse_spellings {ws : List Spelling}
    (h : ∀ w ∈ ws, IsPart w.entry.1 ∧ IsPart w.entry.2) :
    parse (joined (ws.map Spelling.chars)) = Dict.ofList (ws.map Spelling.entry) := by
  by_cases hws : ws = []
  · subst hws
    rfl
  have hitems : Text.splitAt ',' (joined (ws.map Spelling.chars)).toList
      = ws.map Spelling.chars := by
    unfold joined
    rw [String.toList_ofList]
    refine Text.splitAt_joinWith (fun hnil => hws (List.map_eq_nil_iff.1 hnil)) fun p hp => ?_
    obtain ⟨w, hw, rfl⟩ := List.mem_map.1 hp
    exact Spelling.no_comma (h w hw)
  rw [parse_eq, hitems, List.filterMap_map, ← List.filterMap_eq_map]
  refine congrArg Dict.ofList (List.filterMap_congr fun w hw => ?_)
  exact Spelling.pair?_item (h w hw)

end Overrides

open Overrides in
/-- A table that is read has clusters and businesses that can stand on either side of a colon; and a
table that has no others is read again from its entries as they are written with commas between them,
in any order and with any blanks around clusters and businesses. -/
theorem overrides_read_back :
    (∀ raw, (parse raw).HasParts) ∧
    ∀ t : Overrides, t.HasParts → ∀ ws : List Spelling, (ws.map Spelling.entry).Perm t.entries →
      parse (joined (ws.map Spelling.chars)) = t := by
  refine ⟨hasParts_parse, fun t ht ws hperm => ?_⟩
  have hparts : ∀ w ∈ ws, IsPart w.entry.1 ∧ IsPart w.entry.2 := fun w hw =>
    ht w.entry (hperm.mem_iff.1 (List.mem_map_of_mem hw))
  rw [parse_spellings hparts, Dict.ofList_of_perm hperm]

namespace Overrides

def sample : Overrides := Dict.ofList [("BCS-1", "2"), ("a b", "-3")]

/-- The entries of this table in the other order, with blanks of several kinds. -/
def sampleSpellings : List Spelling :=
  let none : Blanks := ⟨[], List.all_eq_true.1 rfl⟩
  let space : Blanks := ⟨[' '], List.all_eq_true.1 rfl⟩
  let lines : Blanks := ⟨['\t', '\n'], List.all_eq_true.1 rfl⟩
  let wide : Blanks := ⟨['\u3000'], List.all_eq_true.1 rfl⟩
  [⟨("a b", "-3"), (lines, none), (wide, space)⟩, ⟨("BCS-1", "2"), (space, space), (none, none)⟩]

end Overrides

open Overrides in
theorem overrides_read_back_sample :
    sample.HasParts ∧ (sampleSpellings.map Spelling.entry).Perm sample.entries ∧
    joined (sampleSpellings.map Spelling.chars) = "\t\na b:\u3000-3 , BCS-1 :2" ∧
    parse (joined (sampleSpellings.map Spelling.chars)) = sample := by
  have hparts : sample.HasParts := by decide
  have hperm : (sampleSpellings.map Spelling.entry).Perm sample.entries := .swap _ _ _
  exact ⟨hparts, hperm, by decide, overrides_read_back.2 _ hparts _ hperm⟩

end Linkage
