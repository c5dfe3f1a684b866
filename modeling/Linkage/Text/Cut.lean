/-!
# Cutting a text at a separator

* `splitAt sep s`   all the parts between the separators, at least one;
* `cut? sep s`      the parts before and after the first separator;
* `cutWord? w s`    the same with a word as the separator;
* `joinWith sep`    the parts with the separator between them, the inverse of `splitAt`;
* `splitAt_joinWith`      parts without separators are the parts of the text they are joined to;
* `splitAt_eq_pair_iff`   there are two parts when the separator stands in one place;
* `eq_append_of_cutWord?` a text that is cut at a word is put together again.
-/

namespace Linkage.Text

/-- The parts of `s` between the characters `sep`; a text without one is a single part. -/
def splitAt (sep : Char) : List Char → List (List Char)
  | [] => [[]]
  | c :: s =>
    if c = sep then [] :: splitAt sep s
    else match splitAt sep s with
      | [] => [[c]]
      | p :: ps => (c :: p) :: ps

/-- The parts with `sep` between them. -/
def joinWith (sep : List Char) : List (List Char) → List Char
  | [] => []
  | [p] => p
  | p :: ps => p ++ sep ++ joinWith sep ps

/-- What stands before and after the first `sep`, if there is one. -/
def cut? (sep : Char) : List Char → Option (List Char × List Char)
  | [] => none
  | c :: s =>
    if c = sep then some ([], s)
    else match cut? sep s with
      | none => none
      | some (a, b) => some (c :: a, b)

/-- The rest of `s` after the word `w` at its start. -/
def dropWord? : List Char → List Char → Option (List Char)
  | [], s => some s
  | _ :: _, [] => none
  | w :: ws, c :: s => if c = w then dropWord? ws s else none

/-- What stands before and after the first place where the word `w` begins. -/
def cutWord? (w : List Char) : List Char → Option (List Char × List Char)
  | [] => match dropWord? w [] with
    | some r => some ([], r)
    | none => none
  | c :: s => match dropWord? w (c :: s) with
    | some r => some ([], r)
    | none => match cutWord? w s with
      | none => none
      | some (a, b) => some (c :: a, b)

def joined (sep : String) (ps : List String) : String :=
  String.ofList (joinWith sep.toList (ps.map String.toList))

theorem splitAt_ne_nil (sep : Char) (s : List Char) : splitAt sep s ≠ [] := by
  cases s with
  | nil => simp [splitAt]
  | cons c s =>
    simp only [splitAt]
    split
    · simp
    · split <;> simp

theorem splitAt_of_not_mem {sep : Char} {s : List Char} (h : sep ∉ s) : splitAt sep s = [s] := by
  induction s with
  | nil => rfl
  | cons c s ih =>
    simp only [List.mem_cons, not_or] at h
    simp only [splitAt, if_neg (Ne.symm h.1), ih h.2]

/-- the parts of two texts with a separator between them -/
theorem splitAt_append (sep : Char) (a b : List Char) :
    splitAt sep (a ++ sep :: b) = splitAt sep a ++ splitAt sep b := by
  induction a with
  | nil => simp [splitAt]
  | cons c a ih =>
    simp only [List.cons_append, splitAt]
    by_cases h : c = sep
    · simp [h, ih]
    · simp only [h, if_false, ih]
      cases ha : splitAt sep a with
      | nil => exact absurd ha (splitAt_ne_nil sep a)
      | cons p ps => rfl

theorem not_mem_of_mem_splitAt {sep : Char} {s p : List Char} (h : p ∈ splitAt sep s) :
    sep ∉ p := by
  induction s generalizing p with
  | nil => simp [splitAt] at h; simp [h]
  | cons c s ih =>
    simp only [splitAt] at h
    by_cases hc : c = sep
    · simp only [hc, if_true, List.mem_cons] at h
      rcases h with rfl | h
      · simp
      · exact ih h
    · simp only [hc, if_false] at h
      cases hs : splitAt sep s with
      | nil => exact absurd hs (splitAt_ne_nil sep s)
      | cons q qs =>
        rw [hs] at h ih
        rcases List.mem_cons.1 h with rfl | h
        · have := ih (p := q) (by simp)
          simp only [List.mem_cons, not_or]
          exact ⟨Ne.symm hc, this⟩
        · exact ih (by simp [h])

theorem joinWith_cons {sep p : List Char} {ps : List (List Char)} (h : ps ≠ []) :
    joinWith sep (p :: ps) = p ++ sep ++ joinWith sep ps := by
  cases ps with
  | nil => exact absurd rfl h
  | cons q qs => rfl

/-- the parts of a text are joined to this text -/
theorem joinWith_splitAt (sep : Char) (s : List Char) : joinWith [sep] (splitAt sep s) = s := by
  induction s with
  | nil => rfl
  | cons c s ih =>
    simp only [splitAt]
    by_cases hc : c = sep
    · rw [if_pos hc, joinWith_cons (splitAt_ne_nil sep s), ih, hc]
      rfl
    · rw [if_neg hc]
      cases hs : splitAt sep s with
      | nil => exact absurd hs (splitAt_ne_nil sep s)
      | cons p ps =>
        rw [hs] at ih
        cases ps with
        | nil => exact congrArg (c :: ·) ih
        | cons q qs => exact congrArg (c :: ·) ih

theorem mem_of_mem_splitAt {sep c : Char} {s p : List Char} (h : p ∈ splitAt sep s) (hc : c ∈ p) :
    c ∈ s := by
  induction s generalizing p with
  | nil =>
    rw [splitAt, List.mem_singleton] at h
    exact h ▸ hc
  | cons a s ih =>
    simp only [splitAt] at h
    by_cases ha : a = sep
    · rw [if_pos ha, List.mem_cons] at h
      rcases h with rfl | h
      · cases hc
      · exact List.mem_cons_of_mem a (ih h hc)
    · rw [if_neg ha] at h
      cases hs : splitAt sep s with
      | nil => exact absurd hs (splitAt_ne_nil sep s)
      | cons q qs =>
        rw [hs] at h ih
        rcases List.mem_cons.1 h with rfl | h
        · rcases List.mem_cons.1 hc with rfl | hc
          · exact List.mem_cons_self
          · exact List.mem_cons_of_mem a (ih List.mem_cons_self hc)
        · exact List.mem_cons_of_mem a (ih (List.mem_cons_of_mem q h) hc)

/-- parts without separators are the parts of the text they are joined to -/
theorem splitAt_joinWith {sep : Char} {ps : List (List Char)} (hne : ps ≠ [])
    (h : ∀ p ∈ ps, sep ∉ p) : splitAt sep (joinWith [sep] ps) = ps := by
  induction ps with
  | nil => exact absurd rfl hne
  | cons p ps ih =>
    have hp : splitAt sep p = [p] := splitAt_of_not_mem (h p List.mem_cons_self)
    cases ps with
    | nil => exact hp
    | cons q qs =>
      have hrest := ih (List.cons_ne_nil q qs) fun r hr => h r (List.mem_cons_of_mem p hr)
      rw [joinWith_cons (List.cons_ne_nil q qs), List.append_assoc, List.singleton_append,
        splitAt_append, hp, hrest]
      rfl

theorem cut?_append {sep : Char} {a : List Char} (b : List Char) (h : sep ∉ a) :
    cut? sep (a ++ sep :: b) = some (a, b) := by
  induction a with
  | nil => simp [cut?]
  | cons c a ih =>
    simp only [List.mem_cons, not_or] at h
    simp [cut?, Ne.symm h.1, ih h.2]

/-- cutting loses nothing, and the first part holds no separator -/
theorem cut?_eq_some_iff {sep : Char} {s a b : List Char} :
    cut? sep s = some (a, b) ↔ s = a ++ sep :: b ∧ sep ∉ a := by
  refine ⟨fun h => ?_, fun h => h.1 ▸ cut?_append b h.2⟩
  induction s generalizing a with
  | nil => simp [cut?] at h
  | cons c s ih =>
    simp only [cut?] at h
    by_cases hc : c = sep
    · simp only [hc, if_true, Option.some.injEq, Prod.mk.injEq] at h
      simp [← h.1, ← h.2, hc]
    · simp only [hc, if_false] at h
      cases hs : cut? sep s with
      | none => simp [hs] at h
      | some q =>
        obtain ⟨a', b'⟩ := q
        simp only [hs, Option.some.injEq, Prod.mk.injEq] at h
        obtain ⟨rfl, rfl⟩ := h
        obtain ⟨h1, h2⟩ := ih hs
        simp [h1, h2, Ne.symm hc]

theorem cut?_eq_none_iff {sep : Char} {s : List Char} : cut? sep s = none ↔ sep ∉ s := by
  induction s with
  | nil => simp [cut?]
  | cons c s ih =>
    simp only [cut?, List.mem_cons, not_or]
    by_cases hc : c = sep
    · simp [hc]
    · cases hs : cut? sep s with
      | none => simp [hc, Ne.symm hc, ih.1 hs]
      | some q =>
        have : sep ∈ s := Classical.byContradiction fun hn => by simp [ih.2 hn] at hs
        simp [hc, this]

/-! ## words -/

theorem dropWord?_eq_some_iff {w s r : List Char} : dropWord? w s = some r ↔ s = w ++ r := by
  induction w generalizing s with
  | nil => rw [dropWord?, Option.some.injEq, List.nil_append]
  | cons d w ih =>
    cases s with
    | nil => exact ⟨nofun, nofun⟩
    | cons c s =>
      rw [dropWord?, List.cons_append, List.cons.injEq, ← ih]
      by_cases h : c = d
      · rw [if_pos h, and_iff_right h]
      · rw [if_neg h]
        exact ⟨nofun, fun he => absurd he.1 h⟩

/-- cutting at a word loses nothing but the word -/
theorem eq_append_of_cutWord? {w s a b : List Char} (h : cutWord? w s = some (a, b)) :
    s = a ++ w ++ b := by
  induction s generalizing a with
  | nil =>
    rw [cutWord?] at h
    cases hw : dropWord? w [] with
    | none => rw [hw] at h; cases h
    | some r =>
      rw [hw] at h
      cases h
      exact dropWord?_eq_some_iff.1 hw
  | cons c s ih =>
    rw [cutWord?] at h
    cases hw : dropWord? w (c :: s) with
    | some r =>
      rw [hw] at h
      cases h
      exact dropWord?_eq_some_iff.1 hw
    | none =>
      rw [hw] at h
      cases hs : cutWord? w s with
      | none => rw [hs] at h; cases h
      | some q =>
        rw [hs] at h
        cases h
        exact congrArg (List.cons c) (ih hs)

/-! ## texts of one and of two parts -/

section
variable {sep : Char} {s l r : List Char}

/-- cutting at the first separator leaves the parts of the rest -/
theorem splitAt_of_cut {a b : List Char} (h : cut? sep s = some (a, b)) :
    splitAt sep s = a :: splitAt sep b := by
  obtain ⟨rfl, ha⟩ := cut?_eq_some_iff.1 h
  rw [splitAt_append, splitAt_of_not_mem ha]
  rfl

theorem splitAt_eq_singleton_iff : splitAt sep s = [r] ↔ s = r ∧ sep ∉ r := by
  constructor
  · intro h
    cases hcut : cut? sep s with
    | none =>
      have hs : sep ∉ s := cut?_eq_none_iff.1 hcut
      rw [splitAt_of_not_mem hs, List.singleton_inj] at h
      exact ⟨h, h ▸ hs⟩
    | some p =>
      rw [splitAt_of_cut hcut, List.cons.injEq] at h
      exact absurd h.2 (splitAt_ne_nil sep p.2)
  · rintro ⟨rfl, hs⟩
    exact splitAt_of_not_mem hs

theorem splitAt_eq_pair_iff :
    splitAt sep s = [l, r] ↔ s = l ++ sep :: r ∧ sep ∉ l ∧ sep ∉ r := by
  constructor
  · intro h
    cases hcut : cut? sep s with
    | none =>
      rw [splitAt_of_not_mem (cut?_eq_none_iff.1 hcut)] at h
      cases h
    | some p =>
      obtain ⟨a, b⟩ := p
      rw [splitAt_of_cut hcut, List.cons.injEq, splitAt_eq_singleton_iff] at h
      obtain ⟨rfl, rfl, hb⟩ := h
      obtain ⟨hs, ha⟩ := cut?_eq_some_iff.1 hcut
      exact ⟨hs, ha, hb⟩
  · rintro ⟨rfl, hl, hr⟩
    rw [splitAt_of_cut (cut?_append r hl), splitAt_of_not_mem hr]

end

end Linkage.Text
