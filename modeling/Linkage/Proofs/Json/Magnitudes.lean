import Mathlib.Tactic.ByContra
import Mathlib.Tactic.Ring
import Linkage.Json.Number

/-!
# Doubles that are read

A reader of digits with an exponent rounds three times: the digits, the power of ten, and what comes of
both.  It refuses what is too close to the limit, and only with an exponent that is not negative.

* `IsDouble`               at most 53 binary digits, below the limit;
* `isSome_nearest?`        a quotient has a nearest double unless it is within half a gap of the limit;
* `IsDouble.cases`         a double is one of the two greatest, or well below the limit;
* `isSome_ofParts?_of_neg`, `isSome_ofParts?_of_le`   which digits are read;
* `exponent_le`            and which are not.
-/

namespace Linkage.Magnitude

/-- The gap between neighbours among the greatest doubles. -/
def coarsest : Nat := Nat.pow 2 2045

/-- A whole number of at most 53 binary digits with zeros behind them, below the limit. -/
def IsDouble (u : Nat) : Prop := u < limit ∧ ∃ m e, m ≤ 2 ^ 53 ∧ u = m * 2 ^ e

theorem coarsest_eq : coarsest = Nat.pow 2 2045 := by
  unfold coarsest
  rfl

/-- How one, the greatest gap, the limit and the powers of ten compare. -/
theorem sizes : 2 ^ 52 ≤ one ∧ 0 < coarsest ∧ limit = 2 ^ 53 * coarsest ∧ ten 0 = one ∧
    2 * (10 ^ 154 * 10 ^ 154 * one) + coarsest < 2 * limit ∧
    limit < 10 ^ 200 * 10 ^ 109 * one := by decide +kernel

theorem le_one : 2 ^ 52 ≤ one := sizes.1

theorem one_pos : 0 < one := Nat.lt_of_lt_of_le (by decide) le_one

theorem coarsest_pos : 0 < coarsest := sizes.2.1

theorem limit_eq : limit = 2 ^ 53 * coarsest := sizes.2.2.1

theorem spacing_pos (q : Nat) : 0 < spacing q := Nat.pow_pos Nat.two_pos

/-- the gap around a number is no more than the number -/
theorem spacing_le {q : Nat} (h : q ≠ 0) : spacing q ≤ q :=
  (Nat.pow_le_pow_right Nat.two_pos (by omega)).trans (Nat.log2_self_le h)

/-- the gap around a number with more than 52 digits is small against it -/
theorem spacing_mul_le {q : Nat} (h : 2 ^ 52 ≤ q) : spacing q * 2 ^ 52 ≤ q := by
  have hq : q ≠ 0 := by omega
  have hlog : 52 ≤ Nat.log2 q := (Nat.le_log2 hq).2 h
  have hpow : spacing q * 2 ^ 52 = 2 ^ Nat.log2 q := by
    show 2 ^ _ * 2 ^ 52 = _
    rw [← Nat.pow_add]
    exact congrArg (2 ^ ·) (by omega)
  exact hpow.le.trans (Nat.log2_self_le hq)

theorem spacing_le_pow {q k gap : Nat} (hgap : gap = Nat.pow 2 k) (h : q < 2 ^ 53 * gap) :
    spacing q ≤ gap := by
  rw [hgap] at h ⊢
  refine Nat.pow_le_pow_right Nat.two_pos ?_
  by_cases hq : q = 0
  · subst hq
    exact Nat.zero_le k
  · have hpow : 2 ^ 53 * Nat.pow 2 k = 2 ^ (53 + k) := (Nat.pow_add 2 53 k).symm
    have hlog : Nat.log2 q < 53 + k := (Nat.log2_lt hq).2 (hpow ▸ h)
    omega

/-- gaps are no more than the one below the limit -/
theorem spacing_le_coarsest {q : Nat} (h : q < limit) : spacing q ≤ coarsest :=
  spacing_le_pow coarsest_eq (limit_eq ▸ h)

/-! ## the nearest double -/

section
variable {num den u : Nat}

theorem of_nearest? (h : nearest? num den = some u) : u < limit ∧
    u = roundDiv num (den * spacing (num / den)) * spacing (num / den) := by
  unfold nearest? at h
  simp only at h
  split at h
  · rename_i hlt
    cases h
    exact ⟨hlt, rfl⟩
  · cases h

/-- a rounded quotient has at most 53 binary digits, or is the next power of two -/
theorem roundDiv_le (num den : Nat) : roundDiv num (den * spacing (num / den)) ≤ 2 ^ 53 := by
  rcases Nat.eq_zero_or_pos den with rfl | hden
  · rw [Nat.zero_mul]
    unfold roundDiv
    simp only [Nat.div_zero, Nat.mod_zero]
    split
    · omega
    · split <;> omega
  · generalize hq : num / den = q
    have hnum : num < (q + 1) * den := by
      rw [← hq, Nat.mul_comm]
      exact Nat.lt_mul_div_succ num hden
    have hpow : q + 1 ≤ 2 ^ 53 * spacing q := by
      rw [spacing, Nat.pow_eq, ← Nat.pow_add]
      exact Nat.succ_le_of_lt (Nat.lt_log2_self.trans_le
        (Nat.pow_le_pow_right Nat.two_pos (by omega)))
    have hunit : 0 < den * spacing q := Nat.mul_pos hden (spacing_pos q)
    have hround := @two_mul_roundDiv_le num _ hunit
    have hbound : num < 2 ^ 53 * (den * spacing q) := by
      calc num < (q + 1) * den := hnum
        _ ≤ 2 ^ 53 * spacing q * den := Nat.mul_le_mul_right den hpow
        _ = 2 ^ 53 * (den * spacing q) := by ring
    by_contra hgt
    have hgt : 2 ^ 53 + 1 ≤ roundDiv num (den * spacing q) := by omega
    have hmul := Nat.mul_le_mul_right (den * spacing q) hgt
    rw [Nat.add_mul, Nat.one_mul] at hmul
    omega

theorem isDouble_of_nearest? (h : nearest? num den = some u) : IsDouble u := by
  obtain ⟨hlt, hu⟩ := of_nearest? h
  exact ⟨hlt, _, _, roundDiv_le num den, hu⟩

/-- rounding adds at most half a gap -/
theorem two_mul_le_of_nearest? (hden : 0 < den) (h : nearest? num den = some u) :
    2 * (u * den) ≤ 2 * num + spacing (num / den) * den := by
  obtain ⟨-, hu⟩ := of_nearest? h
  have hround := @two_mul_roundDiv_le num _ (Nat.mul_pos hden (spacing_pos (num / den)))
  generalize spacing (num / den) = gap at *
  rw [hu, show roundDiv num (den * gap) * gap * den = roundDiv num (den * gap) * (den * gap) by ring,
    Nat.mul_comm gap den]
  exact hround

/-- rounding takes away at most half a gap -/
theorem le_two_mul_of_nearest? (hden : 0 < den) (h : nearest? num den = some u) :
    2 * num ≤ 2 * (u * den) + spacing (num / den) * den := by
  obtain ⟨-, hu⟩ := of_nearest? h
  have hround := @le_two_mul_roundDiv num _ (Nat.mul_pos hden (spacing_pos (num / den)))
  generalize spacing (num / den) = gap at *
  rw [hu, show roundDiv num (den * gap) * gap * den = roundDiv num (den * gap) * (den * gap) by ring,
    Nat.mul_comm gap den]
  exact hround

/-- a number of more than 52 digits grows by one part in `2 ^ 53` at most -/
theorem mul_le_of_nearest? (hden : 0 < den) (hbig : 2 ^ 52 * den ≤ num)
    (h : nearest? num den = some u) : 2 ^ 53 * (u * den) ≤ (2 ^ 53 + 1) * num := by
  have hround := two_mul_le_of_nearest? hden h
  have hq : 2 ^ 52 ≤ num / den := (Nat.le_div_iff_mul_le hden).2 hbig
  have hgap : spacing (num / den) * 2 ^ 52 * den ≤ num :=
    (Nat.mul_le_mul_right den (spacing_mul_le hq)).trans (Nat.div_mul_le_self num den)
  have hmul : spacing (num / den) * 2 ^ 52 * den = 2 ^ 52 * (spacing (num / den) * den) := by ring
  rw [hmul] at hgap
  generalize spacing (num / den) * den = g at *
  generalize u * den = v at *
  omega

/-- and any number at most doubles, up to a unit -/
theorem le_of_nearest? (hden : 0 < den) (h : nearest? num den = some u) :
    u * den ≤ 2 * num + den := by
  have hround := two_mul_le_of_nearest? hden h
  have hgap : spacing (num / den) * den ≤ num + den := by
    by_cases hq : num / den = 0
    · rw [hq]
      show 1 * den ≤ _
      omega
    · exact (Nat.mul_le_mul_right den (spacing_le hq)).trans
        ((Nat.div_mul_le_self num den).trans (Nat.le_add_right num den))
  generalize spacing (num / den) * den = g at *
  generalize u * den = v at *
  omega

/-- a whole number is at most twice its nearest double -/
theorem le_two_mul_of_nearest?_one (h : nearest? num 1 = some u) : num ≤ 2 * u := by
  have hround := le_two_mul_of_nearest? Nat.one_pos h
  by_cases hnum : num = 0
  · omega
  · have hgap := spacing_le hnum
    rw [Nat.div_one] at hround
    generalize spacing num = g at *
    omega

/-- a quotient has a nearest double unless it is within half a gap of the limit -/
theorem isSome_nearest? (hden : 0 < den) (h : 2 * num + coarsest * den < 2 * (limit * den)) :
    (nearest? num den).isSome = true := by
  have hlt : num / den < limit := by
    rw [Nat.div_lt_iff_lt_mul hden]
    omega
  have hgap : spacing (num / den) * den ≤ coarsest * den :=
    Nat.mul_le_mul_right den (spacing_le_coarsest hlt)
  have hround := @two_mul_roundDiv_le num _ (Nat.mul_pos hden (spacing_pos (num / den)))
  unfold nearest?
  simp only
  generalize spacing (num / den) = gap at *
  have hfinite : roundDiv num (den * gap) * gap < limit := by
    refine Nat.lt_of_mul_lt_mul_right (a := den) ?_
    have hmul : roundDiv num (den * gap) * gap * den = roundDiv num (den * gap) * (den * gap) := by
      ring
    have hcomm : gap * den = den * gap := Nat.mul_comm gap den
    omega
  rw [if_pos hfinite]
  rfl

end

/-- a multiple of a power of two below `2 ^ 53` gaps is at the top of the gaps, or well below it -/
theorem multiple_cases {m e k gap : Nat} (hgap : gap = Nat.pow 2 k) (hm : m ≤ 2 ^ 53)
    (hlt : m * 2 ^ e < 2 ^ 53 * gap) : m * 2 ^ e + 3 * gap ≤ 2 ^ 53 * gap ∨
      m * 2 ^ e = (2 ^ 53 - 2) * gap ∨ m * 2 ^ e = (2 ^ 53 - 1) * gap := by
  by_cases he : e < k
  · refine .inl ?_
    have hhalf : 2 ^ e * 2 ≤ gap := by
      rw [hgap, ← Nat.pow_succ]
      exact Nat.pow_le_pow_right Nat.two_pos he
    have hmul := Nat.mul_le_mul_right (2 ^ e) hm
    omega
  · obtain ⟨j, rfl⟩ : ∃ j, e = j + k := ⟨e - k, by omega⟩
    have hpow : m * 2 ^ (j + k) = m * 2 ^ j * gap := by
      rw [hgap, Nat.pow_add, Nat.mul_assoc]
      rfl
    rw [hpow] at hlt ⊢
    clear hpow
    generalize m * 2 ^ j = n at *
    have hn : n < 2 ^ 53 := Nat.lt_of_mul_lt_mul_right hlt
    by_cases hbelow : n + 3 ≤ 2 ^ 53
    · refine .inl ?_
      rw [← Nat.add_mul]
      exact Nat.mul_le_mul_right gap hbelow
    · obtain rfl | rfl : n = 2 ^ 53 - 2 ∨ n = 2 ^ 53 - 1 := by omega
      · exact .inr (.inl rfl)
      · exact .inr (.inr rfl)

/-- a double is one of the two greatest, or three gaps and more below the limit -/
theorem IsDouble.cases {u : Nat} (h : IsDouble u) :
    u + 3 * coarsest ≤ limit ∨ u = (2 ^ 53 - 2) * coarsest ∨ u = (2 ^ 53 - 1) * coarsest := by
  obtain ⟨hlt, m, e, hm, rfl⟩ := h
  rw [limit_eq] at hlt ⊢
  exact multiple_cases coarsest_eq hm hlt

/-! ## what is read of digits with an exponent -/

theorem pow_ten_le {k : Nat} (hk : k < 309) : 10 ^ k ≤ 10 ^ 154 * 10 ^ 154 := by
  have hhalves : k = k / 2 + (k - k / 2) := by omega
  rw [hhalves, Nat.pow_add]
  exact Nat.mul_le_mul (Nat.pow_le_pow_right (by decide) (by omega))
    (Nat.pow_le_pow_right (by decide) (by omega))

theorem one_le_ten {k : Nat} (hk : k < 309) : one ≤ ten k := by
  rcases Nat.eq_zero_or_pos k with rfl | hpos
  · exact sizes.2.2.2.1.ge
  obtain ⟨-, -, -, -, hfar, -⟩ := sizes
  have hsmall := Nat.mul_le_mul_right one (pow_ten_le hk)
  have hbig : 2 * one ≤ 10 ^ k * one := by
    have hpow : 10 ^ 1 ≤ 10 ^ k := Nat.pow_le_pow_right (by decide) hpos
    exact Nat.mul_le_mul_right one (by omega)
  rw [ten, Nat.pow_eq]
  generalize 10 ^ k * one = num at *
  generalize 10 ^ 154 * 10 ^ 154 * one = b at *
  obtain ⟨t, ht⟩ := Option.isSome_iff_exists.1
    (@isSome_nearest? num 1 Nat.one_pos (by omega))
  have hle := le_two_mul_of_nearest?_one ht
  rw [ht, Option.getD_some]
  omega

/-- a whole number grows by one part in `2 ^ 53` at most -/
theorem le_of_nearest?_one {n u : Nat} (h : nearest? (n * one) 1 = some u) :
    2 ^ 53 * u ≤ (2 ^ 53 + 1) * (n * one) := by
  rcases Nat.eq_zero_or_pos n with rfl | hpos
  · have hround := two_mul_le_of_nearest? Nat.one_pos h
    have hgap : spacing (0 * one / 1) = 1 := by
      rw [Nat.zero_mul, Nat.zero_div]
      rfl
    rw [hgap] at hround
    generalize 0 * one = z at *
    omega
  · have hbig : 2 ^ 52 * 1 ≤ n * one := by
      rw [Nat.mul_one]
      exact le_one.trans (Nat.le_mul_of_pos_left one hpos)
    have hle := mul_le_of_nearest? Nat.one_pos hbig h
    rwa [Nat.mul_one] at hle

theorem ten_le (k : Nat) : 2 ^ 53 * ten k ≤ (2 ^ 53 + 1) * (10 ^ k * one) := by
  unfold ten
  cases h : nearest? (Nat.pow 10 k * one) 1 with
  | none => exact Nat.zero_le _
  | some t => exact le_of_nearest?_one h

/-- one division by a power of ten gives no more than thrice the number -/
theorem getD_nearest?_le {u b t : Nat} (ht : one ≤ t) (hu : u ≤ b) (hb : 1 ≤ b) :
    (nearest? (u * one) t).getD 0 ≤ 3 * b := by
  cases h : nearest? (u * one) t with
  | none => exact Nat.zero_le _
  | some v =>
    have hpos : 0 < t := one_pos.trans_le ht
    have hle := le_of_nearest? hpos h
    have hnum : u * one ≤ b * t := Nat.mul_le_mul hu ht
    have hden : t ≤ b * t := Nat.le_mul_of_pos_left _ hb
    refine Nat.le_of_mul_le_mul_right (c := t) ?_ hpos
    rw [Option.getD_some, Nat.mul_assoc]
    omega

theorem shrink_succ {u v n : Nat} (h : (nearest? (u * one) (ten 308)).getD 0 = v) :
    shrink u (n + 1) = shrink v n := by
  conv => lhs; unfold shrink
  rw [h]

theorem shrink_le {u b : Nat} (n : Nat) (hu : u ≤ b) (hb : 1 ≤ b) : shrink u n ≤ 3 ^ n * b := by
  induction n generalizing u b with
  | zero =>
    rw [Nat.pow_zero, Nat.one_mul]
    exact hu
  | succ n ih =>
    have hstep := getD_nearest?_le (one_le_ten (by decide : 308 < 309)) hu hb
    generalize hv : (nearest? (u * one) (ten 308)).getD 0 = v at hstep
    have hpow : 3 ^ (n + 1) * b = 3 ^ n * (3 * b) := by ring
    rw [shrink_succ hv, hpow]
    exact ih hstep (by omega)

/-- a small number stays small when it is divided by powers of ten -/
theorem isSome_shrunk {u k steps : Nat} (hu : u ≤ 10 ^ 21 * one) (hk : k < 309)
    (hsteps : steps ≤ 3) : (nearest? (shrink u steps * one) (ten k)).isSome = true := by
  have hten := one_le_ten hk
  have hpos : 0 < ten k := one_pos.trans_le hten
  generalize ten k = t at *
  have hshrink : shrink u steps ≤ 27 * (10 ^ 21 * one) := by
    have hpow : 3 ^ steps ≤ 27 := Nat.pow_le_pow_right (by decide) hsteps
    exact (shrink_le steps hu (Nat.mul_pos (by decide) one_pos)).trans
      (Nat.mul_le_mul_right _ hpow)
  have hfar : 2 * (27 * (10 ^ 21 * one)) + coarsest < 2 * limit := by
    obtain ⟨-, -, -, -, hfar, -⟩ := sizes
    omega
  generalize 27 * (10 ^ 21 * one) = b at *
  refine isSome_nearest? hpos ?_
  have hquot : shrink u steps * one ≤ b * t := Nat.mul_le_mul hshrink hten
  have hmul := Nat.mul_lt_mul_of_pos_right hfar hpos
  rw [Nat.add_mul, Nat.mul_assoc, Nat.mul_assoc] at hmul
  omega

theorem limit_lt {k : Nat} (h : 309 ≤ k) : limit < 10 ^ k * one := by
  obtain ⟨-, -, -, -, -, hbase⟩ := sizes
  refine hbase.trans_le (Nat.mul_le_mul_right one ?_)
  have hk : k = 200 + (k - 200) := by omega
  rw [hk, Nat.pow_add]
  exact Nat.mul_le_mul_left _ (Nat.pow_le_pow_right (by decide) (by omega))

section
variable {n : Nat}

/-- the double nearest to a significand of twenty digits -/
theorem exists_nearest?_significand (h : n < 10 ^ 20) :
    ∃ u, nearest? (n * one) 1 = some u ∧ 2 ^ 53 * u ≤ (2 ^ 53 + 1) * (n * one) := by
  obtain ⟨-, -, -, -, hfar, -⟩ := sizes
  have hn : n * one ≤ 10 ^ 20 * one := Nat.mul_le_mul_right one h.le
  have hnear : 2 * (n * one) + coarsest * 1 < 2 * (limit * 1) := by omega
  obtain ⟨u, hu⟩ := Option.isSome_iff_exists.1 (isSome_nearest? Nat.one_pos hnear)
  exact ⟨u, hu, le_of_nearest?_one hu⟩

theorem ofParts?_eq {u : Nat} (h : nearest? (n * one) 1 = some u) (e : Int) :
    ofParts? n e = scaled? u e := by
  rw [ofParts?, h]
  rfl

/-- with a negative exponent the number is too small to be refused -/
theorem isSome_ofParts?_of_neg {e : Int} (h : n < 10 ^ 20) (he : e < 0) :
    (ofParts? n e).isSome = true := by
  obtain ⟨u, hu, hle⟩ := exists_nearest?_significand h
  have hsmall : u ≤ 10 ^ 21 * one := by
    have hn : n * one ≤ 10 ^ 20 * one := Nat.mul_le_mul_right one h.le
    generalize n * one = v at *
    generalize one = w at *
    omega
  rw [ofParts?_eq hu]
  unfold scaled?
  split
  · rfl
  rw [if_neg (by omega), if_neg (by omega)]
  simp only
  split
  · rfl
  rename_i hsteps
  exact isSome_shrunk hsmall (by omega) (by omega)

/-- the significand, the power and their product are rounded, each by a part in `2 ^ 53` -/
theorem product_lt {u v t x : Nat} (hx : 0 < x) (hu : 2 ^ 53 * u ≤ (2 ^ 53 + 1) * n)
    (ht : 2 ^ 53 * t ≤ (2 ^ 53 + 1) * v) (h : 2 * (n * v) + 5 * x ≤ 2 * (2 ^ 53 * x)) :
    2 * (u * t) + x < 2 * (2 ^ 53 * x) := by
  have hround : 2 ^ 53 * (2 ^ 53 * (u * t)) ≤ (2 ^ 53 + 1) * ((2 ^ 53 + 1) * (n * v)) := by
    calc 2 ^ 53 * (2 ^ 53 * (u * t)) = 2 ^ 53 * u * (2 ^ 53 * t) := by ring
      _ ≤ (2 ^ 53 + 1) * n * ((2 ^ 53 + 1) * v) := Nat.mul_le_mul hu ht
      _ = (2 ^ 53 + 1) * ((2 ^ 53 + 1) * (n * v)) := by ring
  generalize u * t = y at *
  generalize n * v = z at *
  omega

/-- with another exponent it is read if it is two and a half gaps below the limit -/
theorem isSome_ofParts?_of_le {k : Nat} (h : n < 10 ^ 20)
    (hle : 2 * (n * (10 ^ k * one)) + 5 * coarsest ≤ 2 * limit) :
    (ofParts? n k).isSome = true := by
  obtain ⟨u, hu, hsig⟩ := exists_nearest?_significand h
  rw [ofParts?_eq hu]
  unfold scaled?
  split
  · rfl
  rename_i hne
  have hn : 1 ≤ n := by
    by_contra hzero
    obtain rfl : n = 0 := by omega
    rw [Nat.zero_mul, Nat.mul_zero] at hsig
    omega
  have hk : k < 309 := by
    by_contra hgt
    have hfar := limit_lt (k := k) (by omega)
    have hmul : 10 ^ k * one ≤ n * (10 ^ k * one) := Nat.le_mul_of_pos_left _ hn
    omega
  rw [if_neg (by omega), if_pos (by omega), Int.toNat_natCast]
  have hscaled := Nat.mul_le_mul_right one hle
  have hpos : 0 < coarsest * one := Nat.mul_pos coarsest_pos one_pos
  have hproduct := product_lt hpos hsig (ten_le k)
  rw [limit_eq] at hscaled
  refine isSome_nearest? one_pos ?_
  rw [limit_eq, Nat.mul_assoc (2 ^ 53)]
  refine hproduct ?_
  calc 2 * (n * one * (10 ^ k * one)) + 5 * (coarsest * one)
      = (2 * (n * (10 ^ k * one)) + 5 * coarsest) * one := by ring
    _ ≤ 2 * (2 ^ 53 * coarsest) * one := hscaled
    _ = 2 * (2 ^ 53 * (coarsest * one)) := by ring

end

theorem ne_zero_of_nearest? {n u : Nat} (hn : 0 < n) (h : nearest? (n * one) 1 = some u) :
    u ≠ 0 := by
  have hle := le_two_mul_of_nearest?_one h
  have hpos : 0 < n * one := Nat.mul_pos hn one_pos
  generalize n * one = v at *
  omega

/-- digits with a greater exponent than 308 are not read -/
theorem exponent_le {n : Nat} {e : Int} (hn : 0 < n) (h : (ofParts? n e).isSome = true) :
    e ≤ 308 := by
  obtain ⟨v, hv⟩ := Option.isSome_iff_exists.1 h
  obtain ⟨u, hu, hscaled⟩ := Option.bind_eq_some_iff.1 hv
  by_contra hlarge
  unfold scaled? at hscaled
  rw [if_neg (ne_zero_of_nearest? hn hu), if_pos (by omega)] at hscaled
  cases hscaled

end Linkage.Magnitude
