/-!
# Whole numbers in decimal

* `nat`, `int`          the digits of a number, without leading zeros, after `-` if negative;
* `padded`              the digits with zeros before them;
* `nat?`                reads one or more ASCII digits, leading zeros allowed;
* `int64?`, `uint64?`   the same in 64 bits, with the signs a signed or unsigned number may have;
* `leadingInt64`        the number a text begins with, clamped to 64 bits, zero if there is none;
* `Spells`              a text spells a number of any size;
* `int64?_eq_some_iff`  the numbers that are read are those of 64 bits that a text spells;
* `nat?_nat`            what is written reads back;
* `leadingInt64_of_int64?`   a text that is a number begins with it.
-/

namespace Linkage.Text.Decimal

def int64Min : Int := -9223372036854775808

def int64Max : Int := 9223372036854775807

def uint64Max : Nat := 18446744073709551615

def nat (n : Nat) : List Char := Nat.toDigits 10 n

/-- The decimal digits of `i` after its sign. -/
def int : Int → List Char
  | .ofNat n => nat n
  | .negSucc n => '-' :: nat (n + 1)

/-- The digits of `n` with zeros before them, at least `width` of them. -/
def padded (width n : Nat) : List Char :=
  let ds := nat n
  List.replicate (width - ds.length) '0' ++ ds

def text (i : Int) : String := String.ofList (int i)

/-- The number written by one or more digits. -/
def nat? (s : List Char) : Option Nat :=
  if s ≠ [] ∧ s.all Char.isDigit then some (Nat.ofDigitChars 10 s 0) else none

/-- A number of any size with at most one sign. -/
def signed? : List Char → Option Int
  | '-' :: s => (nat? s).map fun n => -(n : Int)
  | '+' :: s => (nat? s).map Int.ofNat
  | s => (nat? s).map Int.ofNat

def int64? (s : List Char) : Option Int :=
  match signed? s with
  | some i => if int64Min ≤ i ∧ i ≤ int64Max then some i else none
  | none => none

/-- An unsigned 64-bit number; a minus sign is refused even before zero. -/
def uint64? (s : List Char) : Option Nat :=
  let digits := match s with
    | '+' :: r => r
    | r => r
  match nat? digits with
  | some n => if n ≤ uint64Max then some n else none
  | none => none

/-- The blanks a number in a text column may follow. -/
def isColumnBlank (c : Char) : Bool :=
  c = ' ' || (0x09 ≤ c.toNat && c.toNat ≤ 0x0d)

/-- `i` moved to the nearest end of the signed 64-bit range if it is outside. -/
def clamp64 (i : Int) : Int := max int64Min (min int64Max i)

/-- The number that a text begins with after blanks, zero if it begins with none. -/
def leadingInt64 (s : List Char) : Int :=
  let number (r : List Char) : Nat := Nat.ofDigitChars 10 (r.takeWhile Char.isDigit) 0
  match s.dropWhile isColumnBlank with
  | '-' :: r => clamp64 (-(number r : Int))
  | '+' :: r => clamp64 (number r)
  | r => clamp64 (number r)

theorem nat_ne_nil (n : Nat) : nat n ≠ [] := Nat.toDigits_ne_nil

theorem isDigit_of_mem_nat {n : Nat} {c : Char} (h : c ∈ nat n) : c.isDigit = true :=
  Nat.isDigit_of_mem_toDigits (by decide) (by decide) h

theorem nat?_nat (n : Nat) : nat? (nat n) = some n := by
  have h : (nat n).all Char.isDigit = true := List.all_eq_true.2 fun _ => isDigit_of_mem_nat
  rw [nat?, if_pos ⟨nat_ne_nil n, h⟩]
  simp [nat]

theorem nat?_eq_some_iff {s : List Char} {n : Nat} : nat? s = some n ↔
    s ≠ [] ∧ (∀ c ∈ s, c.isDigit = true) ∧ Nat.ofDigitChars 10 s 0 = n := by
  unfold nat?
  rw [← List.all_eq_true]
  split
  · rename_i h
    exact ⟨fun he => ⟨h.1, h.2, Option.some.inj he⟩, fun he => congrArg some he.2.2⟩
  · rename_i h
    exact ⟨nofun, fun he => absurd ⟨he.1, he.2.1⟩ h⟩

/-! ## which texts are numbers -/

/-- The text spells the number: one or more digits, with a sign before them or without. -/
def Spells (s : List Char) (i : Int) : Prop :=
  ∃ digits, digits ≠ [] ∧ (∀ c ∈ digits, c.isDigit = true) ∧
    (s = digits ∧ i = Nat.ofDigitChars 10 digits 0 ∨
      s = '+' :: digits ∧ i = Nat.ofDigitChars 10 digits 0 ∨
      s = '-' :: digits ∧ i = -(Nat.ofDigitChars 10 digits 0 : Int))

/-- The text spells the number, which is in the signed 64-bit range. -/
def SpellsInt64 (s : List Char) (i : Int) : Prop := Spells s i ∧ int64Min ≤ i ∧ i ≤ int64Max

theorem signed?_minus (s : List Char) :
    signed? ('-' :: s) = (nat? s).map fun n : Nat => -(n : Int) := by
  rw [signed?]
  cases nat? s <;> rfl

theorem signed?_of_digits {s : List Char} (h : ∀ c ∈ s, c.isDigit = true) :
    signed? s = (nat? s).map Int.ofNat := by
  unfold signed?
  split
  · exact absurd (h '-' List.mem_cons_self) (by decide)
  · exact absurd (h '+' List.mem_cons_self) (by decide)
  · rfl

theorem signed?_eq_some_iff {s : List Char} {i : Int} : signed? s = some i ↔ Spells s i := by
  constructor
  · intro h
    unfold signed? at h
    split at h
    · rename_i digits
      obtain ⟨n, hn, rfl⟩ := Option.map_eq_some_iff.1 ((signed?_minus digits).symm.trans h)
      obtain ⟨hne, hdigits, rfl⟩ := nat?_eq_some_iff.1 hn
      exact ⟨digits, hne, hdigits, .inr (.inr ⟨rfl, rfl⟩)⟩
    · rename_i digits
      obtain ⟨n, hn, rfl⟩ := Option.map_eq_some_iff.1 h
      obtain ⟨hne, hdigits, rfl⟩ := nat?_eq_some_iff.1 hn
      exact ⟨digits, hne, hdigits, .inr (.inl ⟨rfl, rfl⟩)⟩
    · obtain ⟨n, hn, rfl⟩ := Option.map_eq_some_iff.1 h
      obtain ⟨hne, hdigits, rfl⟩ := nat?_eq_some_iff.1 hn
      exact ⟨s, hne, hdigits, .inl ⟨rfl, rfl⟩⟩
  · rintro ⟨digits, hne, hdigits, h⟩
    have hnat := nat?_eq_some_iff.2 ⟨hne, hdigits, rfl⟩
    rcases h with ⟨rfl, rfl⟩ | ⟨rfl, rfl⟩ | ⟨rfl, rfl⟩
    · rw [signed?_of_digits hdigits, hnat]
      rfl
    · show (nat? digits).map Int.ofNat = _
      rw [hnat]
      rfl
    · rw [signed?_minus, hnat]
      rfl

theorem int64?_eq_some_iff {s : List Char} {i : Int} : int64? s = some i ↔ SpellsInt64 s i := by
  unfold int64? SpellsInt64
  rw [← signed?_eq_some_iff]
  cases signed? s with
  | none => exact ⟨nofun, nofun⟩
  | some j =>
    simp only [Option.ite_none_right_eq_some, Option.some.injEq]
    constructor
    · rintro ⟨hrange, rfl⟩
      exact ⟨rfl, hrange⟩
    · rintro ⟨rfl, hrange⟩
      exact ⟨hrange, rfl⟩

theorem spells_int (i : Int) : Spells (int i) i := by
  cases i with
  | ofNat n =>
    obtain ⟨hne, hdigits, hval⟩ := nat?_eq_some_iff.1 (nat?_nat n)
    exact ⟨nat n, hne, hdigits, .inl ⟨rfl, congrArg Int.ofNat hval.symm⟩⟩
  | negSucc n =>
    obtain ⟨hne, hdigits, hval⟩ := nat?_eq_some_iff.1 (nat?_nat (n + 1))
    refine ⟨nat (n + 1), hne, hdigits, .inr (.inr ⟨rfl, ?_⟩)⟩
    rw [hval]
    rfl

theorem signed?_int (i : Int) : signed? (int i) = some i := signed?_eq_some_iff.2 (spells_int i)

/-- different numbers have different digits -/
theorem int_injective {i j : Int} (h : int i = int j) : i = j := by
  have := congrArg signed? h
  rw [signed?_int, signed?_int] at this
  exact Option.some.inj this

theorem text_injective {i j : Int} (h : text i = text j) : i = j := by
  refine int_injective ?_
  simpa [text] using congrArg String.toList h

/-! ## what a text begins with -/

theorem takeWhile_isDigit {s : List Char} (h : ∀ c ∈ s, c.isDigit = true) :
    s.takeWhile Char.isDigit = s := by
  induction s with
  | nil => rfl
  | cons c s ih =>
    rw [List.takeWhile_cons_of_pos (h c List.mem_cons_self),
      ih fun d hd => h d (List.mem_cons_of_mem c hd)]

theorem isColumnBlank_of_isDigit {c : Char} (h : c.isDigit = true) : isColumnBlank c = false := by
  simp only [Char.isDigit, Bool.and_eq_true, decide_eq_true_eq] at h
  have hlow : 48 ≤ c.toNat := by exact_mod_cast h.1
  simp only [isColumnBlank, Bool.or_eq_false_iff, decide_eq_false_iff_not]
  refine ⟨fun hc => ?_, ?_⟩
  · subst hc
    exact absurd hlow (by decide)
  · simp only [Bool.and_eq_false_iff, decide_eq_false_iff_not]
    right
    omega

theorem clamp64_eq {i : Int} (h : int64Min ≤ i ∧ i ≤ int64Max) : clamp64 i = i := by
  simp only [clamp64]
  omega

/-- digits are no blanks -/
theorem dropWhile_isColumnBlank {s : List Char} (h : ∀ c ∈ s, c.isDigit = true) :
    s.dropWhile isColumnBlank = s := by
  cases s with
  | nil => rfl
  | cons c s =>
    have hc := isColumnBlank_of_isDigit (h c List.mem_cons_self)
    rw [List.dropWhile_cons_of_neg (by rw [hc]; exact Bool.false_ne_true)]

/-- what a number of any size begins with is this number, moved into the range -/
theorem leadingInt64_of_spells {s : List Char} {i : Int} (h : Spells s i) :
    leadingInt64 s = clamp64 i := by
  obtain ⟨digits, -, hdigits, h⟩ := h
  have hall := takeWhile_isDigit hdigits
  rcases h with ⟨rfl, rfl⟩ | ⟨rfl, rfl⟩ | ⟨rfl, rfl⟩
  · unfold leadingInt64
    rw [dropWhile_isColumnBlank hdigits]
    split
    · exact absurd (hdigits '-' List.mem_cons_self) (by decide)
    · exact absurd (hdigits '+' List.mem_cons_self) (by decide)
    · simp only [hall]
  · show clamp64 (Nat.ofDigitChars 10 (digits.takeWhile Char.isDigit) 0 : Nat) = _
    rw [hall]
  · show clamp64 (-(Nat.ofDigitChars 10 (digits.takeWhile Char.isDigit) 0 : Nat)) = _
    rw [hall]

/-- a text that is a number begins with it -/
theorem leadingInt64_of_int64? {s : List Char} {i : Int} (h : int64? s = some i) :
    leadingInt64 s = i := by
  obtain ⟨hspells, hrange⟩ := int64?_eq_some_iff.1 h
  rw [leadingInt64_of_spells hspells, clamp64_eq hrange]

end Linkage.Text.Decimal
