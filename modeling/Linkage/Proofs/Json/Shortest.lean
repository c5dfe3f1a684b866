import Linkage.Json.Number
import Linkage.Proofs.Json.Magnitudes

/-!
# The digits of a double are read again

The fewest digits that round to a double may stand for a number that is greater than the double, and a
reader rounds three times.  They are read as some double all the same, also for the greatest one.

* `of_onGrid?`, `point_lt`   a point of a grid rounds to the magnitude, and has few digits;
* `Digits.AtMost`            what digits stand for, against a number of units;
* `exponent_shortest`        zero has one form;
* `readable_shortest`        the digits of a double are read;
* `exists_ofMagnitude?`      so a double has a decimal.
-/

namespace Linkage

namespace Magnitude

section
variable {u k : Nat} {d : Digits}

/-- the first of three candidates that rounds to `u` -/
theorem of_candidates {num den a b c : Nat} {e : Int}
    (h : (if roundsTo u (a * num) den then some ⟨a, e⟩
      else if roundsTo u (b * num) den then some ⟨b, e⟩
      else if roundsTo u (c * num) den then some ⟨c, e⟩
      else none) = some d) :
    d.exponent = e ∧ (d.digits = a ∨ d.digits = b ∨ d.digits = c) ∧
      roundsTo u (d.digits * num) den = true := by
  split at h
  · rename_i hfits
    cases h
    exact ⟨rfl, .inl rfl, hfits⟩
  split at h
  · rename_i hfits
    cases h
    exact ⟨rfl, .inr (.inl rfl), hfits⟩
  split at h
  · rename_i hfits
    cases h
    exact ⟨rfl, .inr (.inr rfl), hfits⟩
  · cases h

theorem of_onGrid? (h : onGrid? u k = some d) : d.exponent = place u - k ∧
    d.digits ≤ u * (grid d.exponent).2 / (grid d.exponent).1 + 1 ∧
    roundsTo u (d.digits * (grid d.exponent).1) (grid d.exponent).2 = true := by
  unfold onGrid? at h
  generalize place u - k = e at *
  simp only at h
  obtain ⟨he, hdigits, hrounds⟩ := of_candidates h
  rw [he]
  refine ⟨rfl, ?_, hrounds⟩
  rcases hdigits with hnearer | hbelow | habove
  · rw [hnearer]
    split
    · omega
    · split <;> omega
  · omega
  · omega

end

/-! ## grids -/

theorem grid_pos (e : Int) : 0 < (grid e).1 ∧ 0 < (grid e).2 := by
  unfold grid
  split
  · simp only
    exact ⟨Nat.mul_pos (Nat.pow_pos (by decide)) one_pos, Nat.one_pos⟩
  · simp only
    exact ⟨one_pos, Nat.pow_pos (by decide)⟩

theorem grid_natCast (k : Nat) : grid k = (10 ^ k * one, 1) := by
  unfold grid
  rw [if_pos (Int.natCast_nonneg k)]
  rfl

theorem grid_neg (k : Nat) : (grid (-k)).1 = one ∧ (grid (-k)).2 = 10 ^ k := by
  unfold grid
  split
  · obtain rfl : k = 0 := by omega
    simp only [Int.natCast_zero, Int.neg_zero, Int.toNat_zero, Nat.pow_eq, Nat.pow_zero,
      Nat.one_mul, and_self]
  · rw [Int.natAbs_neg, Int.natAbs_natCast]
    simp only [Nat.pow_eq, and_self]

/-- a point of a grid is ten points of the next finer one -/
theorem grid_succ (e : Int) :
    (grid (e + 1)).1 * (grid e).2 = 10 * ((grid e).1 * (grid (e + 1)).2) := by
  rcases Int.le_total 0 e with he | he
  · obtain ⟨k, rfl⟩ := Int.eq_ofNat_of_zero_le he
    have hsucc : grid (k + 1) = (10 ^ (k + 1) * one, 1) := grid_natCast (k + 1)
    rw [grid_natCast k, hsucc]
    generalize one = w
    ring
  · obtain ⟨k, rfl⟩ : ∃ k : Nat, e = -k := ⟨e.natAbs, by omega⟩
    obtain ⟨hnum, hden⟩ := grid_neg k
    cases k with
    | zero =>
      have hsucc : grid (-(0 : Nat) + 1) = (10 ^ 1 * one, 1) := grid_natCast 1
      rw [hnum, hden, hsucc]
      generalize one = w
      ring
    | succ k =>
      obtain ⟨hnum', hden'⟩ := grid_neg k
      rw [show -((k + 1 : Nat) : Int) + 1 = -(k : Int) by omega, hnum, hden, hnum', hden']
      generalize one = w
      ring

theorem grid_add (e : Int) (k : Nat) :
    (grid (e + k)).1 * (grid e).2 = 10 ^ k * ((grid e).1 * (grid (e + k)).2) := by
  induction k with
  | zero =>
    rw [Int.natCast_zero, Int.add_zero, Nat.pow_zero, Nat.one_mul]
  | succ k ih =>
    have hstep := grid_succ (e + k)
    have hpos := (grid_pos (e + k)).2
    rw [show e + ((k + 1 : Nat) : Int) = e + k + 1 by omega]
    generalize (grid (e + k + 1)).1 = a at *
    generalize (grid (e + k + 1)).2 = b at *
    generalize (grid (e + k)).1 = c at *
    generalize (grid (e + k)).2 = d at *
    generalize (grid e).1 = x at *
    generalize (grid e).2 = y at *
    refine Nat.eq_of_mul_eq_mul_right hpos ?_
    calc a * y * d = a * d * y := by ring
      _ = 10 * b * (c * y) := by rw [hstep]; ring
      _ = 10 ^ (k + 1) * (x * b) * d := by rw [ih]; ring

/-! ## how many digits there are -/

theorem zeros_lt {u n : Nat} (h : u * 10 ^ n < one) (fuel : Nat) :
    u * 10 ^ zeros u n fuel < one := by
  induction fuel generalizing n with
  | zero => exact h
  | succ fuel ih =>
    unfold zeros
    split
    · exact h
    · rename_i hstep
      exact ih (Nat.lt_of_not_le hstep)

/-- a magnitude is below its place -/
theorem lt_place (u : Nat) : u * (grid (place u)).2 < (grid (place u)).1 := by
  unfold place
  split
  · have hlength : u / one < 10 ^ (Nat.toDigits 10 (u / one)).length :=
      (Nat.length_toDigits_le_iff (by decide) (Nat.length_toDigits_pos)).1 le_rfl
    rw [grid_natCast]
    simp only
    rw [Nat.mul_one]
    exact (Nat.div_lt_iff_lt_mul one_pos).1 hlength
  · rename_i hlt
    have hzeros := zeros_lt (u := u) (n := 0) (by omega) 400
    obtain ⟨hnum, hden⟩ := grid_neg (zeros u 0 400)
    rw [hnum, hden]
    exact hzeros

/-- so there are fewer than `10 ^ k` points of a grid of `k` digits below it -/
theorem point_lt (u k : Nat) :
    u * (grid (place u - k)).2 / (grid (place u - k)).1 < 10 ^ k := by
  rw [Nat.div_lt_iff_lt_mul (grid_pos _).1]
  have hplace := lt_place u
  have hgrid := grid_add (place u - k) k
  rw [Int.sub_add_cancel] at hgrid
  have hpos := (grid_pos (place u)).2
  have hden := (grid_pos (place u - k)).2
  generalize (grid (place u)).1 = a at *
  generalize (grid (place u)).2 = b at *
  generalize (grid (place u - k)).1 = x at *
  generalize (grid (place u - k)).2 = y at *
  refine Nat.lt_of_mul_lt_mul_right (a := b) ?_
  calc u * y * b = u * b * y := by ring
    _ < a * y := Nat.mul_lt_mul_of_pos_right hplace hden
    _ = 10 ^ k * x * b := by rw [hgrid]; ring

theorem Digits.digits_strip_le (d : Digits) (fuel : Nat) : (d.strip fuel).digits ≤ d.digits := by
  induction fuel generalizing d with
  | zero => exact le_rfl
  | succ fuel ih =>
    unfold strip
    split
    · exact (ih _).trans (Nat.div_le_self _ _)
    · exact le_rfl

/-- trailing zeros are taken away, so a power of ten is never left -/
theorem Digits.digits_strip_lt {d : Digits} {k : Nat} (h : d.digits ≤ 10 ^ (k + 1)) (fuel : Nat) :
    (d.strip (fuel + 1)).digits < 10 ^ (k + 1) := by
  rcases Nat.lt_or_eq_of_le h with hlt | heq
  · exact (d.digits_strip_le _).trans_lt hlt
  · unfold strip
    have hpos : 0 < 10 ^ k := Nat.pow_pos (by decide)
    rw [heq, Nat.pow_succ, Nat.mul_div_cancel _ (by decide), Nat.mul_mod_left,
      if_pos ⟨by omega, rfl⟩]
    exact (digits_strip_le _ _).trans_lt (by simp only; omega)

/-! ## how great the number is -/

/-- Twice the number is at most `b` units. -/
def Digits.AtMost (d : Digits) (b : Nat) : Prop :=
  2 * (d.digits * (grid d.exponent).1) ≤ b * (grid d.exponent).2

theorem Digits.AtMost.strip {d : Digits} {b : Nat} (h : d.AtMost b) (fuel : Nat) :
    (d.strip fuel).AtMost b := by
  induction fuel generalizing d with
  | zero => exact h
  | succ fuel ih =>
    unfold Digits.strip
    split
    · rename_i hzero
      refine ih ?_
      have hgrid := grid_succ d.exponent
      have hden := (grid_pos d.exponent).2
      have hten : d.digits = d.digits / 10 * 10 := by omega
      unfold AtMost at h ⊢
      rw [hten] at h
      simp only
      generalize d.digits / 10 = n at *
      generalize (grid (d.exponent + 1)).1 = a at *
      generalize (grid (d.exponent + 1)).2 = b' at *
      generalize (grid d.exponent).1 = x at *
      generalize (grid d.exponent).2 = y at *
      refine Nat.le_of_mul_le_mul_right (c := y) ?_ hden
      calc 2 * (n * a) * y = 2 * n * (a * y) := by ring
        _ = 2 * (n * 10 * x) * b' := by rw [hgrid]; ring
        _ ≤ b * y * b' := Nat.mul_le_mul_right b' h
        _ = b * b' * y := by ring
    · exact h

/-- what rounds to a magnitude is at most half a gap above it -/
theorem atMost_of_roundsTo {u num den : Nat} (h : roundsTo u num den = true) :
    2 * num ≤ (2 * u + spacing u) * den := by
  have hhi : 4 * num ≤ (4 * u + 2 * spacing u) * den := by
    unfold roundsTo at h
    simp only at h
    split at h
    · exact of_decide_eq_true (Bool.and_eq_true_iff.1 h).2
    · exact (of_decide_eq_true (Bool.and_eq_true_iff.1 h).2).le
  have hdouble : (4 * u + 2 * spacing u) * den = 2 * ((2 * u + spacing u) * den) := by ring
  omega

/-- the digits of a magnitude: few, and not far above it -/
theorem shortest_cases {u : Nat} (hu : u ≠ 0) : shortest u = ⟨0, 0⟩ ∨
    (shortest u).digits < digitLimit ∧ (shortest u).AtMost (2 * u + spacing u) := by
  unfold shortest
  rw [if_neg hu]
  cases hfound : (List.range 17).findSome? fun k => onGrid? u (k + 1) with
  | none => exact .inl rfl
  | some d =>
    obtain ⟨k, hk, hd⟩ := List.exists_of_findSome?_eq_some hfound
    obtain ⟨he, hdigits, hrounds⟩ := of_onGrid? hd
    have hpoint := point_lt u (k + 1)
    rw [← he] at hpoint
    have hfew : d.digits ≤ 10 ^ (16 + 1) := by
      have hpow : 10 ^ (k + 1) ≤ 10 ^ 17 :=
        Nat.pow_le_pow_right (by decide) (List.mem_range.1 hk)
      omega
    exact .inr ⟨Digits.digits_strip_lt hfew 19, Digits.AtMost.strip (atMost_of_roundsTo hrounds) 20⟩

theorem roundsTo_zero {u den : Nat} (hu : u ≠ 0) (hden : 0 < den) : roundsTo u 0 den = false := by
  have hgap := spacing_le hu
  have hgap2 := spacing_pos u
  unfold roundsTo
  simp only
  generalize hlower : (if u = Nat.pow 2 52 * spacing u ∧ 1 < spacing u then spacing u
    else 2 * spacing u) = lower
  have hlow : lower ≤ 2 * spacing u := by
    rw [← hlower]
    split <;> omega
  have hpos : 0 < (4 * u - lower) * den := Nat.mul_pos (by omega) hden
  split
  · rw [decide_eq_false (by omega), Bool.false_and]
  · rw [decide_eq_false (by omega), Bool.false_and]

theorem Digits.digits_strip_pos {d : Digits} (h : 0 < d.digits) (fuel : Nat) :
    0 < (d.strip fuel).digits := by
  induction fuel generalizing d with
  | zero => exact h
  | succ fuel ih =>
    unfold strip
    split
    · exact ih (by simp only; omega)
    · exact h

/-- zero is written with the exponent zero -/
theorem exponent_shortest {u : Nat} (h : (shortest u).digits = 0) : (shortest u).exponent = 0 := by
  unfold shortest at h ⊢
  split
  · rfl
  rename_i hu
  rw [if_neg hu] at h
  cases hfound : (List.range 17).findSome? fun k => onGrid? u (k + 1) with
  | none => rfl
  | some d =>
    rw [hfound] at h
    obtain ⟨k, -, hd⟩ := List.exists_of_findSome?_eq_some hfound
    obtain ⟨-, -, hrounds⟩ := of_onGrid? hd
    have hpos : 0 < d.digits := by
      by_contra hnone
      rw [show d.digits = 0 by omega, Nat.zero_mul, roundsTo_zero hu (grid_pos _).2] at hrounds
      cases hrounds
    exact absurd h (Digits.digits_strip_pos hpos 20).ne'

/-! ## reading them -/

/-- A magnitude's digits are read. -/
def IsReadable (u : Nat) : Prop := (ofParts? (shortest u).digits (shortest u).exponent).isSome = true

instance : DecidablePred IsReadable := fun _ => instDecidableEqBool _ _

/-- what the digits of the two greatest doubles stand for is within half a gap of the limit -/
theorem readable_greatest :
    IsReadable ((2 ^ 53 - 2) * coarsest) ∧ IsReadable ((2 ^ 53 - 1) * coarsest) := by decide +kernel

theorem readable_zero : (ofParts? 0 0).isSome = true := by
  have hlimit := limit_eq
  have hpos := coarsest_pos
  exact isSome_ofParts?_of_le (k := 0) (by decide) (by rw [Nat.zero_mul]; omega)

/-- the digits of a double are read -/
theorem readable_shortest {u : Nat} (h : IsDouble u) :
    (shortest u).digits < digitLimit ∧ IsReadable u := by
  unfold IsReadable
  by_cases hu : u = 0
  · subst hu
    exact ⟨by decide, readable_zero⟩
  rcases shortest_cases hu with hzero | ⟨hdigits, hmost⟩
  · rw [hzero]
    exact ⟨by decide, readable_zero⟩
  refine ⟨hdigits, ?_⟩
  rcases h.cases with hfar | hgreat
  · have hgap : spacing u ≤ coarsest := spacing_le_coarsest h.1
    have hfew : (shortest u).digits < 10 ^ 20 := hdigits.trans (by decide)
    generalize shortest u = d at *
    obtain ⟨n, e⟩ := d
    simp only at hfew ⊢
    rcases Int.lt_or_le e 0 with he | he
    · exact isSome_ofParts?_of_neg hfew he
    · obtain ⟨k, rfl⟩ := Int.eq_ofNat_of_zero_le he
      unfold Digits.AtMost at hmost
      simp only at hmost
      rw [grid_natCast] at hmost
      simp only at hmost
      refine isSome_ofParts?_of_le hfew ?_
      omega
  · rcases hgreat with hu | hu
    · rw [hu]
      exact readable_greatest.1
    · rw [hu]
      exact readable_greatest.2

theorem isDouble_zero : IsDouble 0 := by
  have hpos : 0 < limit := by
    rw [limit_eq]
    exact Nat.mul_pos (by decide) coarsest_pos
  exact ⟨hpos, 0, 0, Nat.zero_le _, (Nat.zero_mul _).symm⟩

theorem isDouble_of_scaled? {u v : Nat} {e : Int} (h : scaled? u e = some v) : IsDouble v := by
  unfold scaled? at h
  split at h
  · cases h
    exact isDouble_zero
  split at h
  · cases h
  split at h
  · exact isDouble_of_nearest? h
  simp only at h
  split at h
  · cases h
    exact isDouble_zero
  · exact isDouble_of_nearest? h

/-- what is read is a double -/
theorem isDouble_of_ofParts? {n v : Nat} {e : Int} (h : ofParts? n e = some v) : IsDouble v := by
  obtain ⟨u, -, hscaled⟩ := Option.bind_eq_some_iff.1 h
  exact isDouble_of_scaled? hscaled

end Magnitude

/-- a double has a decimal -/
theorem Decimal.exists_ofMagnitude? (negative : Bool) {u : Nat} (h : Magnitude.IsDouble u) :
    ∃ d, ofMagnitude? negative u = some d := by
  obtain ⟨hdigits, hread⟩ := Magnitude.readable_shortest h
  unfold Magnitude.IsReadable at hread
  unfold ofMagnitude?
  simp only
  rw [dif_pos ⟨hdigits, hread⟩]
  exact ⟨_, rfl⟩

end Linkage
