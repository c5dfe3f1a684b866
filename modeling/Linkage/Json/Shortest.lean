import Linkage.Json.Magnitude

/-!
# The fewest digits that read back

A magnitude is written with the fewest decimal digits among the numbers that round to it; of two
with equally few digits the nearer one, of two equally near the one whose last digit is even.

* `Digits`       a whole number of a power of ten;
* `shortest`     the digits of a magnitude.
-/

namespace Linkage.Magnitude

/-- The number `digits * 10 ^ exponent`. -/
structure Digits where
  digits : Nat
  exponent : Int
  deriving DecidableEq

/-- `digits * 10 ^ exponent` without trailing zeros. -/
def Digits.strip (d : Digits) : Nat → Digits
  | 0 => d
  | fuel + 1 =>
    if d.digits ≠ 0 ∧ d.digits % 10 = 0 then strip ⟨d.digits / 10, d.exponent + 1⟩ fuel else d

/-- The zeros that follow the point of `u` units below one, `n` of them counted already. -/
def zeros (u n : Nat) : Nat → Nat
  | 0 => n
  | fuel + 1 => if one ≤ u * Nat.pow 10 (n + 1) then n else zeros u (n + 1) fuel

/-- The place of a magnitude: the least `e` with `u` units below `10 ^ e`. -/
def place (u : Nat) : Int :=
  if one ≤ u then (Nat.toDigits 10 (u / one)).length else -(zeros u 0 400 : Int)

/-- Whether `num / den` units, compared fourfold, round to `u`. -/
def roundsTo (u num den : Nat) : Bool :=
  let gap := spacing u
  let lower := if u = Nat.pow 2 52 * gap ∧ 1 < gap then gap else 2 * gap
  let lo := (4 * u - lower) * den
  let hi := (4 * u + 2 * gap) * den
  let v := 4 * num
  if (u / gap) % 2 = 0 then lo ≤ v && v ≤ hi else lo < v && v < hi

/-- The grid `10 ^ e` as a fraction of units. -/
def grid (e : Int) : Nat × Nat :=
  if 0 ≤ e then (Nat.pow 10 e.toNat * one, 1) else (one, Nat.pow 10 e.natAbs)

/-- The point of the grid of `k` digits that rounds to `u`, if there is one. -/
def onGrid? (u : Nat) (k : Nat) : Option Digits :=
  let e := place u - k
  let (num, den) := grid e
  let below := u * den / num
  let fits (d : Nat) : Bool := roundsTo u (d * num) den
  let rest := 2 * (u * den - below * num)
  let nearer := if rest < num then below
    else if num < rest then below + 1 else below + below % 2
  if fits nearer then some ⟨nearer, e⟩
  else if fits below then some ⟨below, e⟩
  else if fits (below + 1) then some ⟨below + 1, e⟩
  else none

/-- The fewest digits that read back as `u`. -/
def shortest (u : Nat) : Digits :=
  if u = 0 then ⟨0, 0⟩
  else ((List.range 17).findSome? fun k => onGrid? u (k + 1)).elim ⟨0, 0⟩ fun d => d.strip 20

end Linkage.Magnitude
