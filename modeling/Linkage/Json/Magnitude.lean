/-!
# Magnitudes of binary floating point

A finite double without its sign is a whole number of units of 2^-1074 whose binary form has at
most 53 significant digits and which stays below 2^2098 units.  Here such a number is a `Nat`.

* `roundDiv`        a quotient rounded to the nearest whole number, a half to the even one;
* `nearest?`        the magnitude nearest to a quotient of units, if it is finite;
* `scaled?`         a magnitude times a power of ten;
* `ofParts?`        the magnitude read for a significand and a power of ten;
* `two_mul_roundDiv_le`, `le_two_mul_roundDiv`   a rounded quotient is within half a unit.
-/

namespace Linkage.Magnitude

/-- The quotient rounded to the nearest whole number, a half to the even neighbour. -/
def roundDiv (num den : Nat) : Nat :=
  let q := num / den
  let r := num % den
  if 2 * r < den then q
  else if den < 2 * r then q + 1
  else q + q % 2

/-- The number of units in one. -/
def one : Nat := Nat.pow 2 1074

/-- The least number of units that is too great for a double. -/
def limit : Nat := Nat.pow 2 2098

/-- The number of units between neighbours where the whole part of a quotient is `q`. -/
def spacing (q : Nat) : Nat := Nat.pow 2 (Nat.log2 q + 1 - 53)

/-- The magnitude nearest to `num / den` units. -/
def nearest? (num den : Nat) : Option Nat :=
  let gap := spacing (num / den)
  let u := roundDiv num (den * gap) * gap
  if u < limit then some u else none

/-- Ten to the power `k` as a magnitude; `k` is at most 308. -/
def ten (k : Nat) : Nat := (nearest? (Nat.pow 10 k * one) 1).getD 0

/-- `u` divided by the greatest power of ten that is a magnitude, `n` times. -/
def shrink (u : Nat) : Nat → Nat
  | 0 => u
  | n + 1 => shrink ((nearest? (u * one) (ten 308)).getD 0) n

/-- The magnitude `u` times `10 ^ exponent`, rounded. -/
def scaled? (u : Nat) (exponent : Int) : Option Nat :=
  if u = 0 then some 0
  else if 308 < exponent then none
  else if 0 ≤ exponent then nearest? (u * ten exponent.toNat) one
  else
    -- steps of 308 until the rest of the exponent is in the table of powers
    let k := exponent.natAbs
    let steps := (k - 1) / 308
    if 3 < steps then some 0
    else nearest? (shrink u steps * one) (ten (k - steps * 308))

/-- The magnitude read for `significand * 10 ^ exponent`: the significand is rounded first, and
then the product or quotient with a power of ten.  There is none beyond the greatest double. -/
def ofParts? (significand : Nat) (exponent : Int) : Option Nat :=
  (nearest? (significand * one) 1).bind fun u => scaled? u exponent

theorem two_mul_roundDiv_le {num den : Nat} (h : 0 < den) :
    2 * (roundDiv num den * den) ≤ 2 * num + den := by
  have hd := Nat.div_add_mod num den
  have hm := Nat.mod_lt num h
  have he : (num / den) % 2 ≤ 1 := by omega
  unfold roundDiv
  generalize num / den = q at *
  generalize num % den = r at *
  have hq : den * q = q * den := Nat.mul_comm ..
  simp only
  split
  · omega
  · split
    · rw [Nat.add_mul]; omega
    · rcases Nat.le_one_iff_eq_zero_or_eq_one.1 he with h0 | h0
      · rw [h0, Nat.add_zero]; omega
      · rw [h0, Nat.add_mul]; omega

theorem le_two_mul_roundDiv {num den : Nat} (h : 0 < den) :
    2 * num ≤ 2 * (roundDiv num den * den) + den := by
  have hd := Nat.div_add_mod num den
  have hm := Nat.mod_lt num h
  have he : (num / den) % 2 ≤ 1 := by omega
  unfold roundDiv
  generalize num / den = q at *
  generalize num % den = r at *
  have hq : den * q = q * den := Nat.mul_comm ..
  simp only
  split
  · omega
  · split
    · rw [Nat.add_mul]; omega
    · rcases Nat.le_one_iff_eq_zero_or_eq_one.1 he with h0 | h0
      · rw [h0, Nat.add_zero]; omega
      · rw [h0, Nat.add_mul]; omega

end Linkage.Magnitude
