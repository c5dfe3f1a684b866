/-!
# Punycode

A text of any characters written in ASCII: its ASCII characters first, then for each other character,
from the least on, how far it is from the one before, counted over all places where it could stand.

* `Punycode.encode`   the written form;
* `Punycode.digits`   one distance in digits of base 36, the least digit first.
-/

namespace Linkage.Punycode

/-- The character of a digit of base 36. -/
def digit (d : Nat) : Char := Char.ofNat (if d < 26 then 0x61 + d else 0x16 + d)

/-- The least value of a digit at place `k` behind which further digits follow. -/
def threshold (bias k : Nat) : Nat := max 1 (min 26 (k - bias))

/-- A number in digits; the first argument bounds their number. -/
def digits (bias : Nat) : Nat → Nat → Nat → List Char
  | 0, _, _ => []
  | n + 1, k, q =>
    let t := threshold bias k
    if q < t then [digit q]
    else digit (t + (q - t) % (36 - t)) :: digits bias n (k + 36) ((q - t) / (36 - t))

/-- How often a number is divided by 35 until it is at most 455, and what is left. -/
def reduce : Nat → Nat → Nat × Nat
  | 0, d => (0, d)
  | n + 1, d =>
    if d ≤ 455 then (0, d)
    else
      let (k, rest) := reduce n (d / 35)
      (k + 1, rest)

/-- The bias after a distance, with the number of characters written so far. -/
def adapt (distance written : Nat) (first : Bool) : Nat :=
  let d := if first then distance / 700 else distance / 2
  let (k, rest) := reduce d (d + d / written)
  36 * k + 36 * rest / (rest + 38)

/-- What is written so far. -/
structure Writing where
  out : List Char
  distance : Nat
  bias : Nat
  written : Nat

/-- One character of the text, when the characters equal to `m` are written. -/
def Writing.step (basic m : Nat) (w : Writing) (c : Char) : Writing :=
  if c.toNat < m then { w with distance := w.distance + 1 }
  else if c.toNat = m then
    { out := w.out ++ digits w.bias (w.distance + 1) 36 w.distance
      distance := 0
      bias := adapt w.distance (w.written + 1) (w.written = basic)
      written := w.written + 1 }
  else w

/-- The characters of the text that are in `ms`, which rise from at least `n` on. -/
def Writing.run (s : List Char) (basic : Nat) : Nat → List Nat → Writing → Writing
  | _, [], w => w
  | n, m :: ms, w =>
    let w := { w with distance := w.distance + (m - n) * (w.written + 1) }
    let w := s.foldl (Writing.step basic m) w
    Writing.run s basic (m + 1) ms { w with distance := w.distance + 1 }

def encode (s : List Char) : List Char :=
  let basic := s.filter fun c => c.toNat < 0x80
  let others := ((s.map Char.toNat).filter (0x80 ≤ ·)).mergeSort.eraseDups
  basic ++ (if basic = [] then [] else ['-']) ++
    (Writing.run s basic.length 0x80 others ⟨[], 0, 72, basic.length⟩).out

end Linkage.Punycode
