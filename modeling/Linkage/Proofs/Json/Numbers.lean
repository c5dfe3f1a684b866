import Linkage.Json.Parser
import Linkage.Proofs.Json.Shortest

/-!
# Written numbers are read

A number is written by its parts, and read by them whatever stands behind it.  A whole number is read as
itself; a decimal is read as a decimal, though not always as the same one, since a reader rounds.

* `Number.Parts.chars`, `Number.Parts.IsWritten`   how parts are written;
* `Number.Parts.IsSpelt`     how they can be written, since an exponent has several forms;
* `Json.numberParts_of_isSpelt`, `Json.numberParts_chars`   written parts are read;
* `Number.exists_ofParts?_fraction`, `Number.exists_ofParts?_exponent`   what they stand for;
* `Decimal.isRead_layout`    the four ways to write a decimal;
* `Number.Held`              the numbers that a value can hold, which are those that are read;
* `Number.exists_parts`      a number is written by parts that are read;
* `Json.value_number`        and so it is read as a value.
-/

namespace Linkage

namespace Json

/-- One or more digits. -/
def AreDigits (ds : List Char) : Prop := ds ≠ [] ∧ ∀ c ∈ ds, c.isDigit = true

/-- What may stand behind a number: nothing, or a character that does not go on with it. -/
def Behind (s : List Char) : Prop :=
  ∀ c, s.head? = some c → c.isDigit = false ∧ c ≠ '.' ∧ c ≠ 'e' ∧ c ≠ 'E'

section
variable {ds rest : List Char}

theorem AreDigits.exists_head (h : AreDigits ds) : ∃ c cs, ds = c :: cs ∧ c.isDigit = true := by
  obtain ⟨hne, hdigits⟩ := h
  obtain ⟨c, cs, rfl⟩ := List.exists_cons_of_ne_nil hne
  exact ⟨c, cs, rfl, hdigits c List.mem_cons_self⟩

theorem digits?_append (h : AreDigits ds)
    (hrest : ∀ c, rest.head? = some c → c.isDigit = false) :
    digits? (ds ++ rest) = some (ds, rest) := by
  have hstop : rest.takeWhile Char.isDigit = [] ∧ rest.dropWhile Char.isDigit = rest := by
    cases rest with
    | nil => exact ⟨rfl, rfl⟩
    | cons c cs =>
      have hc : ¬c.isDigit = true := by
        rw [hrest c rfl]
        exact Bool.false_ne_true
      exact ⟨List.takeWhile_cons_of_neg hc, List.dropWhile_cons_of_neg hc⟩
  unfold digits?
  rw [List.takeWhile_append_of_pos h.2, List.dropWhile_append_of_pos h.2, hstop.1, hstop.2,
    List.append_nil, if_neg h.1]

theorem whole?_append (h : AreDigits ds) (hlead : ds.head? = some '0' → ds.length = 1)
    (hrest : ∀ c, rest.head? = some c → c.isDigit = false) :
    whole? (ds ++ rest) = some (ds, rest) := by
  rw [whole?, digits?_append h hrest, Option.filter_some]
  by_cases hzero : ds.head? = some '0'
  · simp only [hlead hzero, decide_true, Bool.or_true, if_true]
  · simp only [hzero, ne_eq, not_false_eq_true, decide_true, Bool.true_or, if_true]

theorem fraction?_of_head (h : ∀ c, rest.head? = some c → c ≠ '.') :
    fraction? rest = some (none, rest) := by
  unfold fraction?
  split
  · exact absurd rfl (h _ rfl)
  · rfl

theorem power?_of_head (h : ∀ c, rest.head? = some c → c ≠ 'e' ∧ c ≠ 'E') :
    power? rest = some (none, rest) := by
  unfold power?
  split
  · exact absurd rfl (h _ rfl).1
  · exact absurd rfl (h _ rfl).2
  · rfl

theorem sign_append (h : AreDigits ds) (rest : List Char) :
    sign (ds ++ rest) = (false, ds ++ rest) := by
  obtain ⟨c, cs, rfl, hc⟩ := h.exists_head
  rw [List.cons_append]
  unfold sign
  split
  · rename_i he
    obtain ⟨rfl, -⟩ := List.cons.inj he
    exact absurd hc (by decide)
  · rfl

theorem exponent?_append (h : AreDigits ds)
    (hrest : ∀ c, rest.head? = some c → c.isDigit = false) :
    exponent? (ds ++ rest) = some ((false, ds), rest) := by
  have hsign := sign_append h rest
  have hread := digits?_append h hrest
  obtain ⟨c, cs, rfl, hc⟩ := h.exists_head
  rw [List.cons_append] at hsign hread ⊢
  unfold exponent?
  split
  · rename_i he
    obtain ⟨rfl, -⟩ := List.cons.inj he
    exact absurd hc (by decide)
  · rw [hsign, hread]
    rfl

end
end Json

namespace Number.Parts

/-- The written form of digits after a point. -/
def point : Option (List Char) → List Char
  | none => []
  | some ds => '.' :: ds

/-- The written form of an exponent. -/
def power : Option (Bool × List Char) → List Char
  | none => []
  | some (down, ds) => 'e' :: if down then '-' :: ds else ds

/-- The written form of a number by its parts. -/
def chars (p : Parts) : List Char :=
  (if p.negative then ['-'] else []) ++ (p.whole ++ (point p.fraction ++ power p.exponent))

/-- The parts are as a number is written. -/
structure IsWritten (p : Parts) : Prop where
  whole : Json.AreDigits p.whole
  lead : p.whole.head? = some '0' → p.whole.length = 1
  fraction : ∀ ds, p.fraction = some ds → Json.AreDigits ds
  exponent : ∀ x, p.exponent = some x → Json.AreDigits x.2

/-- The forms of an exponent: with a small or a capital letter, and with or without a plus sign. -/
inductive IsPower : Option (Bool × List Char) → List Char → Prop
  | none : IsPower none []
  | up {e : Char} {ds : List Char} (he : e = 'e' ∨ e = 'E') : IsPower (some (false, ds)) (e :: ds)
  | plus {e : Char} {ds : List Char} (he : e = 'e' ∨ e = 'E') :
    IsPower (some (false, ds)) (e :: '+' :: ds)
  | down {e : Char} {ds : List Char} (he : e = 'e' ∨ e = 'E') :
    IsPower (some (true, ds)) (e :: '-' :: ds)

/-- The characters write a number with these parts. -/
def IsSpelt (p : Parts) (cs : List Char) : Prop :=
  p.IsWritten ∧ ∃ ps, IsPower p.exponent ps ∧
    cs = (if p.negative then ['-'] else []) ++ (p.whole ++ (point p.fraction ++ ps))

theorem isPower_power (x : Option (Bool × List Char)) : IsPower x (power x) := by
  match x with
  | none => exact .none
  | some (false, ds) => exact .up (.inl rfl)
  | some (true, ds) => exact .down (.inl rfl)

theorem IsWritten.isSpelt {p : Parts} (h : p.IsWritten) : p.IsSpelt p.chars :=
  ⟨h, _, isPower_power p.exponent, rfl⟩

end Number.Parts

namespace Json
open Number.Parts

variable {rest ps : List Char} {x : Option (Bool × List Char)}

theorem power?_append (hpower : IsPower x ps) (h : ∀ y, x = some y → AreDigits y.2)
    (hrest : Behind rest) : power? (ps ++ rest) = some (x, rest) := by
  have hstop : ∀ c, rest.head? = some c → c.isDigit = false := fun c hc => (hrest c hc).1
  cases hpower with
  | none => exact power?_of_head fun c hc => (hrest c hc).2.2
  | @up e ds he =>
    have hread := exponent?_append (h _ rfl) hstop
    have hpower : power? (e :: ds ++ rest) = (exponent? (ds ++ rest)).map fun x => (some x.1, x.2) := by
      rcases he with rfl | rfl <;> rfl
    rw [hpower, hread]
    rfl
  | @plus e ds he =>
    have hread := digits?_append (h _ rfl) hstop
    have hpower : power? (e :: '+' :: ds ++ rest)
        = (digits? (ds ++ rest)).map fun x => (some (false, x.1), x.2) := by
      rcases he with rfl | rfl <;> exact Option.map_map ..
    rw [hpower, hread]
    rfl
  | @down e ds he =>
    have hread := digits?_append (h _ rfl) hstop
    have hpower : power? (e :: '-' :: ds ++ rest)
        = (digits? (ds ++ rest)).map fun x => (some (true, x.1), x.2) := by
      rcases he with rfl | rfl <;> exact Option.map_map ..
    rw [hpower, hread]
    rfl

/-- what stands behind the whole digits is no digit -/
theorem head_power (hpower : IsPower x ps) (hrest : Behind rest) {c : Char}
    (hc : (ps ++ rest).head? = some c) : c.isDigit = false ∧ c ≠ '.' := by
  have hletter : ∀ {e : Char}, e = 'e' ∨ e = 'E' → e.isDigit = false ∧ e ≠ '.' := by
    rintro e (rfl | rfl) <;> decide
  cases hpower with
  | none => exact ⟨(hrest c hc).1, (hrest c hc).2.1⟩
  | up he =>
    cases hc
    exact hletter he
  | plus he =>
    cases hc
    exact hletter he
  | down he =>
    cases hc
    exact hletter he

theorem fraction?_append {f : Option (List Char)} (h : ∀ ds, f = some ds → AreDigits ds)
    (hpower : IsPower x ps) (hrest : Behind rest) :
    fraction? (point f ++ (ps ++ rest)) = some (f, ps ++ rest) := by
  cases f with
  | none => exact fraction?_of_head fun c hc => (head_power hpower hrest hc).2
  | some ds =>
    have hread := digits?_append (h ds rfl) fun c hc => (head_power hpower hrest hc).1
    show (digits? (ds ++ (ps ++ rest))).map _ = _
    rw [hread]
    rfl

theorem head_point {f : Option (List Char)} (hpower : IsPower x ps) (hrest : Behind rest)
    {c : Char} (hc : (point f ++ (ps ++ rest)).head? = some c) : c.isDigit = false := by
  cases f with
  | none => exact (head_power hpower hrest hc).1
  | some ds =>
    cases hc
    rfl

/-- a number is read by the parts that it is written with -/
theorem numberParts_of_isSpelt {p : Number.Parts} {cs : List Char} (h : p.IsSpelt cs)
    (hrest : Behind rest) : numberParts (cs ++ rest) = some (p, rest) := by
  obtain ⟨hwritten, ps, hpower, rfl⟩ := h
  obtain ⟨negative, whole, fraction, exponent⟩ := p
  have hwhole := whole?_append hwritten.whole hwritten.lead fun c hc =>
    head_point (f := fraction) hpower hrest hc
  have hsign : sign ((if negative then ['-'] else []) ++ (whole ++ (point fraction ++ ps)) ++ rest)
      = (negative, whole ++ (point fraction ++ (ps ++ rest))) := by
    simp only [List.append_assoc]
    cases negative with
    | true => rfl
    | false => exact sign_append hwritten.whole _
  unfold numberParts
  simp only
  rw [hsign]
  simp only
  rw [hwhole, Option.bind_some, fraction?_append hwritten.fraction hpower hrest, Option.bind_some,
    power?_append hpower hwritten.exponent hrest]
  rfl

theorem numberParts_chars {p : Number.Parts} (h : p.IsWritten) (hrest : Behind rest) :
    numberParts (p.chars ++ rest) = some (p, rest) :=
  numberParts_of_isSpelt h.isSpelt hrest

end Json
namespace Number

/-! ## the number that its parts stand for -/

theorem le_ofDigitChars (ds : List Char) (s : Nat) : s ≤ Nat.ofDigitChars 10 ds s := by
  induction ds generalizing s with
  | nil => exact le_rfl
  | cons c cs ih =>
    rw [Nat.ofDigitChars_cons]
    exact le_trans (by omega) (ih _)

/-- digits that fit are all absorbed -/
theorem absorb_eq {ds : List Char} {s : Nat}
    (h : Nat.ofDigitChars 10 ds s ≤ Text.Decimal.uint64Max) :
    absorb s ds = (Nat.ofDigitChars 10 ds s, []) := by
  induction ds generalizing s with
  | nil => rfl
  | cons c cs ih =>
    rw [Nat.ofDigitChars_cons] at h ⊢
    have hstep : s * 10 + digit c = 10 * s + (c.toNat - '0'.toNat) := by
      rw [digit, Nat.mul_comm]
    unfold absorb
    simp only
    rw [hstep, if_pos ((le_ofDigitChars cs _).trans h)]
    exact ih h

theorem scaled_eq {p : Parts} (h : Nat.ofDigitChars 10 (p.whole ++ p.fraction.getD []) 0
    ≤ Text.Decimal.uint64Max) : p.scaled =
      (Nat.ofDigitChars 10 (p.whole ++ p.fraction.getD []) 0, -((p.fraction.getD []).length : Int)) := by
  rw [Nat.ofDigitChars_append] at h ⊢
  have hwhole := absorb_eq ((le_ofDigitChars (p.fraction.getD []) _).trans h)
  unfold Parts.scaled
  rw [hwhole]
  simp only
  rw [absorb_eq h]
  simp only [List.length_nil, Nat.sub_zero]
  rw [Int.natCast_zero, Int.zero_sub]

/-- a double is a number, and so is what is read of digits -/
theorem exists_decimal (negative : Bool) {x : Option Nat} {u : Nat} (hx : x = some u)
    (hu : Magnitude.IsDouble u) :
    ∃ d, x.bind (fun u => (Decimal.ofMagnitude? negative u).map decimal) = some (decimal d) := by
  obtain ⟨d, hd⟩ := Decimal.exists_ofMagnitude? negative hu
  exact ⟨d, by rw [hx, Option.bind_some, hd, Option.map_some]⟩

section
variable {negative : Bool} {whole : List Char}

theorem exists_ofParts?_fraction {ds : List Char}
    (hfit : Nat.ofDigitChars 10 (whole ++ ds) 0 ≤ Text.Decimal.uint64Max)
    (h : (Magnitude.ofParts? (Nat.ofDigitChars 10 (whole ++ ds) 0) (-(ds.length : Int))).isSome
      = true) :
    ∃ d, ofParts? ⟨negative, whole, some ds, none⟩ = some (decimal d) := by
  have hscaled : Parts.scaled ⟨negative, whole, some ds, none⟩ =
      (Nat.ofDigitChars 10 (whole ++ ds) 0, -(ds.length : Int)) := scaled_eq hfit
  obtain ⟨u, hu⟩ := Option.isSome_iff_exists.1 h
  unfold ofParts?
  simp only
  rw [hscaled]
  exact exists_decimal negative hu (Magnitude.isDouble_of_ofParts? hu)

theorem exists_ofParts?_exponent {fraction : Option (List Char)} {down : Bool} {ds : List Char}
    {e : Int} (hfit : Nat.ofDigitChars 10 (whole ++ fraction.getD []) 0 ≤ Text.Decimal.uint64Max)
    (hdown : exponentMax < Nat.ofDigitChars 10 ds 0 → down = true)
    (he : e = (if down then -(Nat.ofDigitChars 10 ds 0 : Int) else Nat.ofDigitChars 10 ds 0)
      - (fraction.getD []).length)
    (h : (Magnitude.ofParts? (Nat.ofDigitChars 10 (whole ++ fraction.getD []) 0) e).isSome = true) :
    ∃ d, ofParts? ⟨negative, whole, fraction, some (down, ds)⟩ = some (decimal d) := by
  have hscaled : Parts.scaled ⟨negative, whole, fraction, some (down, ds)⟩ =
      (Nat.ofDigitChars 10 (whole ++ fraction.getD []) 0, -((fraction.getD []).length : Int)) :=
    scaled_eq hfit
  obtain ⟨u, hu⟩ := Option.isSome_iff_exists.1 h
  unfold ofParts?
  simp only
  rw [hscaled]
  simp only
  generalize Nat.ofDigitChars 10 (whole ++ fraction.getD []) 0 = s at *
  generalize Nat.ofDigitChars 10 ds 0 = n at *
  split
  · have hexp : (if down then -((fraction.getD []).length : Int) - n
        else -((fraction.getD []).length : Int) + n) = e := by
      rw [he]
      split <;> omega
    refine exists_decimal negative ?_ (Magnitude.isDouble_of_ofParts? hu)
    rw [hexp]
    exact hu
  · rename_i hlarge
    rw [if_neg fun hup => by rw [hdown (by omega)] at hup; exact absurd hup.2 (by decide)]
    exact exists_decimal negative rfl Magnitude.isDouble_zero

end

end Number

namespace Text.Decimal

variable {n : Nat}

theorem ofDigitChars_nat (n : Nat) : Nat.ofDigitChars 10 (nat n) 0 = n :=
  Nat.ofDigitChars_toDigits (by decide) (by decide)

theorem areDigits_nat (n : Nat) : Json.AreDigits (nat n) :=
  ⟨nat_ne_nil n, fun _ hc => isDigit_of_mem_nat hc⟩

theorem length_nat_le_iff {k : Nat} (hk : 0 < k) : (nat n).length ≤ k ↔ n < 10 ^ k :=
  Nat.length_toDigits_le_iff (by decide) hk

theorem int_eq (i : Int) : int i = if i < 0 then '-' :: nat i.natAbs else nat i.natAbs := by
  cases i with
  | ofNat n => rw [if_neg (by simp)]; rfl
  | negSucc n => rw [if_pos (Int.negSucc_lt_zero n)]; rfl

theorem sub_zero_le {c : Char} (h : c.isDigit = true) : c.toNat - '0'.toNat ≤ 9 := by
  simp only [Char.isDigit, Bool.and_eq_true, decide_eq_true_eq] at h
  have hhigh : c.toNat ≤ 57 := by exact_mod_cast h.2
  have hzero : '0'.toNat = 48 := rfl
  omega

theorem ofDigitChars_lt {ds : List Char} (h : ∀ c ∈ ds, c.isDigit = true) (s : Nat) :
    Nat.ofDigitChars 10 ds s < (s + 1) * 10 ^ ds.length := by
  induction ds generalizing s with
  | nil =>
    rw [List.length_nil, Nat.pow_zero, Nat.mul_one]
    exact Nat.lt_succ_self s
  | cons c cs ih =>
    have hc := sub_zero_le (h c List.mem_cons_self)
    have hstep := ih (fun d hd => h d (List.mem_cons_of_mem c hd)) (10 * s + (c.toNat - '0'.toNat))
    rw [Nat.ofDigitChars_cons, List.length_cons, Nat.pow_succ, Nat.mul_comm (10 ^ cs.length) 10,
      ← Nat.mul_assoc]
    exact hstep.trans_le (Nat.mul_le_mul_right _ (by omega))

/-- only zero begins with a zero -/
theorem eq_zero_of_head (h : (nat n).head? = some '0') : n = 0 := by
  by_contra hn
  obtain ⟨cs, hcs⟩ := List.head?_eq_some_iff.1 h
  have hval := ofDigitChars_nat n
  have hdigits := (areDigits_nat n).2
  rw [hcs] at hval hdigits
  have hlt := ofDigitChars_lt (fun d hd => hdigits d (List.mem_cons_of_mem _ hd)) 0
  have hcons : Nat.ofDigitChars 10 ('0' :: cs) 0 = Nat.ofDigitChars 10 cs 0 := Nat.ofDigitChars_cons
  rw [hcons] at hval
  rw [hval, Nat.zero_add, Nat.one_mul] at hlt
  have hlen : 0 < cs.length := by
    by_contra hnil
    obtain rfl : cs = [] := List.eq_nil_of_length_eq_zero (by omega)
    exact hn hval.symm
  have hle := (length_nat_le_iff hlen).2 hlt
  rw [hcs, List.length_cons] at hle
  omega

theorem length_eq_one_of_head (h : (nat n).head? = some '0') : (nat n).length = 1 := by
  rw [eq_zero_of_head h]
  rfl

end Text.Decimal
namespace Decimal
open Text.Decimal

/-- The text of a decimal without its sign: it is read, also behind a minus sign. -/
def IsRead (cs : List Char) : Prop := ∀ negative : Bool, ∃ p : Number.Parts, p.IsWritten ∧
  p.chars = (if negative then ['-'] else []) ++ cs ∧
  ∃ d, Number.ofParts? p = some (.decimal d)

variable {whole ds : List Char}

/-- digits around a point are read if they are few -/
theorem isRead_point (hwhole : Json.AreDigits whole)
    (hlead : whole.head? = some '0' → whole.length = 1) (hds : Json.AreDigits ds)
    (hfew : Nat.ofDigitChars 10 (whole ++ ds) 0 < Magnitude.digitLimit) :
    IsRead (whole ++ '.' :: ds) := by
  intro negative
  refine ⟨⟨negative, whole, some ds, none⟩, ⟨hwhole, hlead, ?_, nofun⟩, ?_, ?_⟩
  · rintro _ ⟨⟩
    exact hds
  · show _ ++ (whole ++ ('.' :: ds ++ [])) = _
    rw [List.append_nil]
  · have hfit : Nat.ofDigitChars 10 (whole ++ ds) 0 ≤ uint64Max := hfew.le.trans (by decide)
    have htwenty : Nat.ofDigitChars 10 (whole ++ ds) 0 < 10 ^ 20 := hfew.trans (by decide)
    have hlen := List.length_pos_iff.2 hds.1
    exact Number.exists_ofParts?_fraction hfit
      (Magnitude.isSome_ofParts?_of_neg htwenty (by omega))

/-- a digit, perhaps a point and more digits, and an exponent are read as the number they stand for -/
theorem isRead_exponent {c : Char} {n : Nat} {x e : Int} (hds : ∀ a ∈ c :: ds, a.isDigit = true)
    (hn : Nat.ofDigitChars 10 (c :: ds) 0 = n) (hfew : n < Magnitude.digitLimit)
    (hx : x ≤ Number.exponentMax) (he : e = x - ds.length)
    (h : (Magnitude.ofParts? n e).isSome = true) :
    IsRead (c :: ((if ds = [] then [] else '.' :: ds) ++ 'e' :: int x)) := by
  intro negative
  refine ⟨⟨negative, [c], if ds = [] then none else some ds, some (decide (x < 0), nat x.natAbs)⟩,
    ⟨⟨List.cons_ne_nil _ _, ?_⟩, fun _ => rfl, ?_, ?_⟩, ?_, ?_⟩
  · intro a ha
    rw [List.mem_singleton.1 ha]
    exact hds c List.mem_cons_self
  · intro fs hfs
    simp only at hfs
    split at hfs
    · cases hfs
    · rename_i hne
      cases hfs
      exact ⟨hne, fun a ha => hds a (List.mem_cons_of_mem c ha)⟩
  · rintro _ ⟨⟩
    exact areDigits_nat _
  · have hpower : Number.Parts.power (some (decide (x < 0), nat x.natAbs)) = 'e' :: int x := by
      rw [int_eq, Number.Parts.power]
      simp only [decide_eq_true_eq]
    have hpoint : Number.Parts.point (if ds = [] then none else some ds)
        = if ds = [] then [] else '.' :: ds := by
      split <;> rfl
    unfold Number.Parts.chars
    simp only
    rw [hpower, hpoint]
    rfl
  · have hfraction : (if ds = [] then none else some ds : Option (List Char)).getD [] = ds := by
      split
      · rename_i hnil
        exact hnil.symm
      · rfl
    have hwhole : Nat.ofDigitChars 10 ([c] ++ (if ds = [] then none else some ds).getD []) 0 = n := by
      rw [hfraction]
      exact hn
    refine Number.exists_ofParts?_exponent (e := e) ?_ ?_ ?_ ?_
    · rw [hwhole]
      exact hfew.le.trans (by decide)
    · rw [ofDigitChars_nat]
      intro hlarge
      exact decide_eq_true (by omega)
    · rw [ofDigitChars_nat, hfraction, he]
      simp only [decide_eq_true_eq]
      split <;> omega
    · rw [hwhole]
      exact h

theorem areDigits_append (h : ∀ c ∈ whole, c.isDigit = true) (hds : Json.AreDigits ds) :
    Json.AreDigits (whole ++ ds) := by
  refine ⟨fun hnil => hds.1 (List.append_eq_nil_iff.1 hnil).2, fun c hc => ?_⟩
  rcases List.mem_append.1 hc with hc | hc
  · exact h c hc
  · exact hds.2 c hc

theorem isDigit_of_mem_zeros {k : Nat} {c : Char} (h : c ∈ List.replicate k '0') :
    c.isDigit = true := by
  rw [List.eq_of_mem_replicate h]
  rfl

/-- the digits of a decimal, laid out in one of four ways, are read -/
theorem isRead_layout {n : Nat} {e : Int} (hfew : n < Magnitude.digitLimit)
    (h : (Magnitude.ofParts? n e).isSome = true) (hzero : n = 0 → e = 0) :
    IsRead (layout (nat n) e) := by
  have hlen : (nat n).length ≤ 17 := (length_nat_le_iff (by decide)).2 hfew
  have hpos : 0 < (nat n).length := List.length_pos_iff.2 (nat_ne_nil n)
  have hn := ofDigitChars_nat n
  have hdigits := areDigits_nat n
  have hhead := @eq_zero_of_head n
  generalize hds : nat n = ds at *
  unfold layout
  simp only
  split
  · -- all digits and zeros before the point
    rename_i hwhole
    have hzeros : ∀ c ∈ ds ++ List.replicate e.toNat '0', c.isDigit = true := fun c hc =>
      (List.mem_append.1 hc).elim (hdigits.2 c) isDigit_of_mem_zeros
    have hfront : (ds ++ List.replicate e.toNat '0').head? = ds.head? := by
      obtain ⟨c, cs, hcs, -⟩ := hdigits.exists_head
      rw [hcs]
      rfl
    have hread : IsRead (ds ++ List.replicate e.toNat '0' ++ '.' :: ['0']) := by
      refine isRead_point ⟨fun hnil => hdigits.1 (List.append_eq_nil_iff.1 hnil).1, hzeros⟩
        (fun hlead => ?_) ⟨List.cons_ne_nil _ _, fun _ => isDigit_of_mem_zeros (k := 1)⟩ ?_
      · have hn0 := hhead (hfront ▸ hlead)
        rw [hzero hn0, List.length_append, ← hds, hn0]
        rfl
      · have hall : ∀ c ∈ ds ++ List.replicate e.toNat '0' ++ ['0'], c.isDigit = true := fun c hc =>
          (List.mem_append.1 hc).elim (hzeros c) (isDigit_of_mem_zeros (k := 1))
        refine (ofDigitChars_lt hall 0).trans_le ?_
        rw [Nat.zero_add, Nat.one_mul]
        show _ ≤ 10 ^ 17
        refine Nat.pow_le_pow_right (by decide) ?_
        rw [List.length_append, List.length_append, List.length_replicate, List.length_singleton]
        omega
    exact hread
  split
  · -- the point between the digits
    rename_i hwhole hpoint
    generalize hk : ((ds.length : Int) + e).toNat = k
    have hk1 : 0 < k := by omega
    have hk2 : k < ds.length := by omega
    refine isRead_point ?_ ?_ ?_ ?_
    · exact ⟨fun hnil => (List.take_eq_nil_iff.1 hnil).elim (by omega) hdigits.1,
        fun c hc => hdigits.2 c (List.mem_of_mem_take hc)⟩
    · intro hlead
      rw [List.head?_take, if_neg (by omega)] at hlead
      have hone : ds.length = 1 := by
        rw [← hds, hhead hlead]
        rfl
      omega
    · exact ⟨fun hnil => by rw [List.drop_eq_nil_iff] at hnil; omega,
        fun c hc => hdigits.2 c (List.mem_of_mem_drop hc)⟩
    · rw [List.take_append_drop, hn]
      exact hfew
  split
  · -- zeros between the point and the digits
    have hread (k : Nat) : IsRead (['0'] ++ '.' :: (List.replicate k '0' ++ ds)) := by
      refine isRead_point ⟨List.cons_ne_nil _ _, fun _ => isDigit_of_mem_zeros (k := 1)⟩ (fun _ => rfl)
        (areDigits_append (fun _ => isDigit_of_mem_zeros) hdigits) ?_
      rw [List.singleton_append, Nat.ofDigitChars_cons, Nat.sub_self, Nat.mul_zero, Nat.add_zero,
        Nat.ofDigitChars_append, Nat.ofDigitChars_replicate_zero, Nat.mul_zero, hn]
      exact hfew
    exact hread _
  · -- one digit before the point, and an exponent
    rename_i hwhole hpoint hsmall
    have hn0 : 0 < n := by
      by_contra hnone
      have hn0 : n = 0 := by omega
      have he := hzero hn0
      have hone : ds.length = 1 := by
        rw [← hds, hn0]
        rfl
      omega
    have he := Magnitude.exponent_le hn0 h
    have hmax : Number.exponentMax = 2147483647 := rfl
    obtain ⟨c, cs, rfl, -⟩ := hdigits.exists_head
    rw [List.length_cons] at hlen
    have hread := @isRead_exponent cs c n ((c :: cs).length + e - 1) e hdigits.2 hn hfew
      (by rw [List.length_cons]; omega) (by rw [List.length_cons]; omega) h
    cases cs with
    | nil => exact hread
    | cons a as => exact hread

end Decimal

namespace Number

/-- The numbers that a value can hold: whole ones of 64 bits with a sign or without, and decimals,
zero in one form only. -/
def Held : Number → Prop
  | int i => Text.Decimal.int64Min ≤ i ∧ i ≤ Text.Decimal.uint64Max
  | decimal d => d.digits = 0 → d.exponent = 0

theorem held_of_ofMagnitude? {negative : Bool} {u : Nat} {d : Decimal}
    (h : Decimal.ofMagnitude? negative u = some d) : (decimal d).Held := by
  unfold Decimal.ofMagnitude? at h
  simp only at h
  split at h
  · cases h
    exact Magnitude.exponent_shortest
  · cases h

theorem held_of_bind {negative : Bool} {x : Option Nat} {n : Number}
    (h : (x.bind fun u => (Decimal.ofMagnitude? negative u).map decimal) = some n) : n.Held := by
  obtain ⟨u, -, hu⟩ := Option.bind_eq_some_iff.1 h
  obtain ⟨d, hd, rfl⟩ := Option.map_eq_some_iff.1 hu
  exact held_of_ofMagnitude? hd

/-- what is read can be held -/
theorem held_of_ofParts? {p : Parts} {n : Number} (h : ofParts? p = some n) : n.Held := by
  have hmin : Text.Decimal.int64Min = -9223372036854775808 := rfl
  unfold ofParts? at h
  simp only at h
  split at h
  · split at h
    · split at h
      · rename_i hfit
        cases h
        exact ⟨hfit.2, by omega⟩
      · exact held_of_bind h
    split at h
    · rename_i hfit
      cases h
      exact ⟨by omega, by omega⟩
    · exact held_of_bind h
  · exact held_of_bind h
  split at h
  · exact held_of_bind h
  split at h
  · cases h
  · exact held_of_bind h

/-- The number with nothing of a decimal but that it is one. -/
def outline : Number → Number
  | int i => int i
  | decimal _ => decimal ⟨false, 0, 0, by decide, Magnitude.readable_zero⟩

theorem exists_parts_int {i : Int} (h : (int i).Held) :
    ∃ p : Parts, p.IsWritten ∧ p.chars = Text.Decimal.int i ∧ ofParts? p = some (int i) := by
  obtain ⟨hmin, hmax⟩ := h
  have hn := Text.Decimal.ofDigitChars_nat i.natAbs
  refine ⟨⟨decide (i < 0), Text.Decimal.nat i.natAbs, none, none⟩,
    ⟨Text.Decimal.areDigits_nat _, Text.Decimal.length_eq_one_of_head, nofun, nofun⟩, ?_, ?_⟩
  · rw [Text.Decimal.int_eq]
    by_cases hneg : i < 0
    · simp [Parts.chars, hneg, Parts.point, Parts.power]
    · simp [Parts.chars, hneg, Parts.point, Parts.power]
  · unfold ofParts?
    simp only
    rw [hn]
    by_cases hneg : i < 0
    · rw [decide_eq_true hneg, if_pos rfl, if_pos ⟨by omega, by omega⟩]
      exact congrArg (fun j => some (int j)) (by omega)
    · rw [decide_eq_false hneg, if_neg Bool.false_ne_true, if_pos (by omega)]
      exact congrArg (fun j => some (int j)) (by omega)

/-- a number is written by parts that are read as a number -/
theorem exists_parts {n : Number} (h : n.Held) : ∃ p : Parts, p.IsWritten ∧ p.chars = n.chars ∧
    ∃ m, ofParts? p = some m ∧ m.outline = n.outline := by
  cases n with
  | int i =>
    obtain ⟨p, hp, hchars, hread⟩ := exists_parts_int h
    exact ⟨p, hp, hchars, _, hread, rfl⟩
  | decimal d =>
    obtain ⟨p, hp, hchars, m, hread⟩ := Decimal.isRead_layout d.short d.readable h d.negative
    exact ⟨p, hp, hchars, _, hread, rfl⟩

end Number

namespace Json

/-- The first character of a number. -/
def StartsNumber (c : Char) : Prop := c = '-' ∨ c.isDigit = true

theorem StartsNumber.ne {c : Char} (h : StartsNumber c) {a : Char} (hdigit : a.isDigit = false)
    (hminus : a ≠ '-') : c ≠ a := by
  rintro rfl
  rcases h with heq | h
  · exact hminus heq
  · rw [hdigit] at h
    cases h

theorem StartsNumber.cons_ne {c : Char} (h : StartsNumber c) {a : Char} (hdigit : a.isDigit = false)
    (hminus : a ≠ '-') {s t : List Char} : c :: s ≠ a :: t :=
  fun heq => h.ne hdigit hminus (List.cons.inj heq).1

theorem StartsNumber.isGap_eq {c : Char} (h : StartsNumber c) : isGap c = false := by
  simp [isGap, h.ne (a := ' ') rfl (by decide), h.ne (a := '\t') rfl (by decide),
    h.ne (a := '\n') rfl (by decide), h.ne (a := '\r') rfl (by decide)]

theorem exists_head_of_isSpelt {p : Number.Parts} {cs : List Char} (h : p.IsSpelt cs) :
    ∃ c t, cs = c :: t ∧ StartsNumber c := by
  obtain ⟨hwritten, ps, -, rfl⟩ := h
  obtain ⟨c, t, hwhole, hc⟩ := hwritten.whole.exists_head
  rw [hwhole]
  cases p.negative with
  | true => exact ⟨'-', _, rfl, .inl rfl⟩
  | false => exact ⟨c, _, rfl, .inr hc⟩

/-- what begins no array or object is left to the reader of other values -/
theorem Reading.value_eq_scalar {κ α : Type} (g : Reading κ α) (d : Nat) {s t : List Char} {c : Char}
    (hs : skipGap s = c :: t) (harr : c ≠ '[') (hobj : c ≠ '\x7b') :
    g.value d s = g.scalar (c :: t) := by
  cases d with
  | zero => rw [Reading.value, hs]
  | succ d =>
    rw [Reading.value, hs]
    split
    · rename_i heq
      exact absurd (List.cons.inj heq).1 harr
    · rename_i heq
      exact absurd (List.cons.inj heq).1 hobj
    · rfl

/-- what begins as a number is read as a number -/
theorem value_of_head (d : Nat) {c : Char} (cs : List Char) (h : StartsNumber c) :
    reading.value d (c :: cs) = number (c :: cs) := by
  have hgap : skipGap (c :: cs) = c :: cs :=
    List.dropWhile_cons_of_neg (ne_true_of_eq_false h.isGap_eq)
  rw [reading.value_eq_scalar d hgap (h.ne rfl (by decide)) (h.ne rfl (by decide))]
  show scalar (c :: cs) = number (c :: cs)
  unfold scalar
  split
  · rename_i heq
    exact absurd heq (h.cons_ne rfl (by decide))
  · rename_i heq
    exact absurd heq (h.cons_ne rfl (by decide))
  · rename_i heq
    exact absurd heq (h.cons_ne rfl (by decide))
  · rename_i heq
    exact absurd heq (h.cons_ne rfl (by decide))
  · rfl

/-- a written number is read, whatever stands behind it -/
theorem value_number (d : Nat) {n : Number} (h : n.Held) {rest : List Char} (hrest : Behind rest) :
    ∃ m, reading.value d (n.chars ++ rest) = some (num m, rest) ∧ m.outline = n.outline := by
  obtain ⟨p, hp, hchars, m, hread, houtline⟩ := Number.exists_parts h
  obtain ⟨c, cs, hcs, hc⟩ := exists_head_of_isSpelt hp.isSpelt
  refine ⟨m, ?_, houtline⟩
  have hnumber : number (p.chars ++ rest) = some (num m, rest) := by
    unfold number
    rw [numberParts_chars hp hrest]
    simp only
    rw [hread]
  rw [← hchars]
  rw [hcs, List.cons_append] at hnumber ⊢
  rw [value_of_head d _ hc, hnumber]

end Json
end Linkage
