import Linkage.Json.Parser
import Linkage.Json.Printer

/-!
# Written texts are read back

* `escaped_cases`       a character is written as itself, behind a backslash, or by its number;
* `pieces_escaped`      it is read as a part that stands for it;
* `quotedBody_escaped`  so a text in quotes is read as it was written, and a name.
-/

namespace Linkage.Json

/-! ## characters -/

/-- A part of a text in quotes stands for a character, whatever follows it. -/
def Piece.Stands (p : Piece) (c : Char) : Prop :=
  ∀ ps, ofPieces? (p :: ps) = (ofPieces? ps).map (c :: ·)

theorem Piece.stands_char (c : Char) : (Piece.char c).Stands c := fun _ => rfl

/-- a unit that is no half of a pair stands for its character -/
theorem Piece.stands_unit {c : Char} (h : c.toNat < 0x20) : (Piece.unit c.toNat).Stands c := by
  have hhigh : isHigh c.toNat = false := by
    unfold isHigh
    rw [decide_eq_false (by omega), Bool.false_and]
  have hlow : isLow c.toNat = false := by
    unfold isLow
    rw [decide_eq_false (by omega), Bool.false_and]
  intro ps
  cases ps with
  | nil => simp [ofPieces?, joined?, hhigh, hlow]
  | cons q qs => cases q <;> simp [ofPieces?, joined?, hhigh, hlow]

theorem escaped_cases (c : Char) :
    (escaped c = [c] ∧ c ≠ '"' ∧ c ≠ '\\' ∧ 0x20 ≤ c.toNat) ∨
      (∃ e, escaped c = ['\\', e] ∧ e ≠ 'u' ∧ escape? e = some c) ∨
      (escaped c = '\\' :: 'u' :: controlDigits c ∧ c.toNat < 0x20) := by
  have hnat : ∀ n, c.toNat = n → Char.ofNat n = c := fun n hn => by rw [← hn, Char.ofNat_toNat]
  unfold escaped
  split
  · rename_i h
    subst h
    exact .inr (.inl ⟨'"', rfl, by decide, rfl⟩)
  split
  · rename_i h
    subst h
    exact .inr (.inl ⟨'\\', rfl, by decide, rfl⟩)
  split
  · rename_i h1 h2 h3
    exact .inl ⟨rfl, h1, h2, h3⟩
  split
  · rename_i h
    subst h
    exact .inr (.inl ⟨'n', rfl, by decide, rfl⟩)
  split
  · rename_i h
    subst h
    exact .inr (.inl ⟨'r', rfl, by decide, rfl⟩)
  split
  · rename_i h
    subst h
    exact .inr (.inl ⟨'t', rfl, by decide, rfl⟩)
  split
  · rename_i h
    refine .inr (.inl ⟨'b', rfl, by decide, ?_⟩)
    rw [← hnat _ h]
    rfl
  split
  · rename_i h
    refine .inr (.inl ⟨'f', rfl, by decide, ?_⟩)
    rw [← hnat _ h]
    rfl
  · rename_i h _ _ _ _ _
    exact .inr (.inr ⟨rfl, by omega⟩)

theorem hex4?_controlDigits : ∀ n, n < 0x20 →
    hex4? '0' '0' (Nat.digitChar (n / 16)) (Nat.digitChar (n % 16)) = some n := by decide

theorem pieces_char {c : Char} (h1 : c ≠ '"') (h2 : c ≠ '\\') (h3 : 0x20 ≤ c.toNat)
    (s : List Char) : pieces (c :: s) = (pieces s).map fun q => (.char c :: q.1, q.2) := by
  rw [pieces, if_neg (not_or.2 ⟨h2, by omega⟩)]
  · cases pieces s <;> rfl
  · exact h1
  · intro _ _ _ _ _ h _
    exact h2 h
  · intro _ _ h _
    exact h2 h

theorem pieces_escape {c e : Char} (h1 : e ≠ 'u') (h2 : escape? e = some c) (s : List Char) :
    pieces ('\\' :: e :: s) = (pieces s).map fun q => (.char c :: q.1, q.2) := by
  rw [pieces, h2]
  · cases pieces s <;> rfl
  · intro _ _ _ _ _ h _
    exact h1 h

theorem pieces_unit {c : Char} (h : c.toNat < 0x20) (s : List Char) :
    pieces ('\\' :: 'u' :: controlDigits c ++ s)
      = (pieces s).map fun q => (.unit c.toNat :: q.1, q.2) := by
  show pieces ('\\' :: 'u' :: '0' :: '0' :: _ :: _ :: s) = _
  rw [pieces, hex4?_controlDigits _ h]
  cases pieces s <;> rfl

/-- an escaped character is read as a part that stands for it -/
theorem pieces_escaped (c : Char) : ∃ p : Piece, p.Stands c ∧
    ∀ s, pieces (escaped c ++ s) = (pieces s).map fun q => (p :: q.1, q.2) := by
  rcases escaped_cases c with ⟨h, h1, h2, h3⟩ | ⟨e, h, h1, h2⟩ | ⟨h, h1⟩
  · exact ⟨_, Piece.stands_char c, fun s => by rw [h]; exact pieces_char h1 h2 h3 s⟩
  · exact ⟨_, Piece.stands_char c, fun s => by rw [h]; exact pieces_escape h1 h2 s⟩
  · exact ⟨_, Piece.stands_unit h1, fun s => by rw [h]; exact pieces_unit h1 s⟩

/-! ## texts -/

/-- a text in quotes is read as it was written -/
theorem quotedBody_escaped (cs rest : List Char) :
    quotedBody (cs.flatMap escaped ++ '"' :: rest) = some (cs, rest) := by
  have h : ∃ ps, pieces (cs.flatMap escaped ++ '"' :: rest) = some (ps, rest) ∧
      ofPieces? ps = some cs := by
    induction cs with
    | nil => exact ⟨[], by rw [List.flatMap_nil, List.nil_append, pieces], rfl⟩
    | cons c cs ih =>
      obtain ⟨p, hp, hread⟩ := pieces_escaped c
      obtain ⟨ps, hps, hcs⟩ := ih
      refine ⟨p :: ps, ?_, ?_⟩
      · rw [List.flatMap_cons, List.append_assoc, hread, hps]
        rfl
      · rw [hp, hcs]
        rfl
  obtain ⟨ps, hps, hcs⟩ := h
  unfold quotedBody
  rw [hps]
  simp only
  rw [hcs]

/-- and so is a name -/
theorem name_escaped (k : String) (rest : List Char) :
    name (k.toList.flatMap escaped ++ '"' :: rest) = some (k, rest) := by
  rw [name, quotedBody_escaped]
  simp only
  rw [String.ofList_toList]

theorem value_quoted (d : Nat) (s : String) (rest : List Char) :
    reading.value d (quotedChars s.toList ++ rest) = some (str s, rest) := by
  have hq : quotedChars s.toList ++ rest
      = '"' :: (s.toList.flatMap escaped ++ '"' :: rest) := by simp [quotedChars]
  have hscalar : scalar ('"' :: (s.toList.flatMap escaped ++ '"' :: rest)) = some (str s, rest) := by
    rw [scalar, quotedBody_escaped]
    simp only
    rw [String.ofList_toList]
  rw [hq]
  cases d with
  | zero => exact hscalar
  | succ d => exact hscalar

end Linkage.Json
