/-!
# Blank characters and trimming

White space is what Unicode's property White_Space says, not the ASCII set.

* `isBlank`            the table of that property;
* `trim`               a text without the blanks at its two ends;
* `trim_eq_self_iff`   a text is trimmed when neither end is blank.
-/

namespace Linkage.Text

/-- The characters with the Unicode property White_Space. -/
def isBlank (c : Char) : Bool :=
  let n := c.toNat
  (0x09 ≤ n && n ≤ 0x0d) || n == 0x20 || n == 0x85 || n == 0xa0 || n == 0x1680 ||
    (0x2000 ≤ n && n ≤ 0x200a) || n == 0x2028 || n == 0x2029 || n == 0x202f || n == 0x205f ||
    n == 0x3000

/-- The text without its leading blanks. -/
def trimStart (s : List Char) : List Char := s.dropWhile isBlank

/-- The text without its trailing blanks. -/
def trimEnd (s : List Char) : List Char := (s.reverse.dropWhile isBlank).reverse

/-- The text without the blanks at its two ends. -/
def trim (s : List Char) : List Char := trimEnd (trimStart s)

def Trimmed (s : List Char) : Prop :=
  (∀ c, s.head? = some c → isBlank c = false) ∧ (∀ c, s.getLast? = some c → isBlank c = false)

def trimmed (s : String) : String := String.ofList (trim s.toList)

theorem trimStart_of_head {s : List Char} (h : ∀ c, s.head? = some c → isBlank c = false) :
    trimStart s = s := by
  cases s with
  | nil => rfl
  | cons c s => simp [trimStart, h c rfl]

theorem trimEnd_of_last {s : List Char} (h : ∀ c, s.getLast? = some c → isBlank c = false) :
    trimEnd s = s := by
  have : trimStart s.reverse = s.reverse :=
    trimStart_of_head fun c hc => h c (by rw [← List.head?_reverse]; exact hc)
  unfold trimEnd
  rw [show s.reverse.dropWhile isBlank = trimStart s.reverse from rfl, this, List.reverse_reverse]

theorem trim_eq_self {s : List Char} (h : Trimmed s) : trim s = s := by
  rw [trim, trimStart_of_head h.1, trimEnd_of_last h.2]

theorem head_trimStart (s : List Char) : ∀ c, (trimStart s).head? = some c → isBlank c = false := by
  intro c hc
  have := List.head?_dropWhile_not isBlank s
  unfold trimStart at hc
  rw [hc] at this
  simpa using this

theorem last_trimEnd (s : List Char) : ∀ c, (trimEnd s).getLast? = some c → isBlank c = false := by
  intro c hc
  rw [trimEnd, List.getLast?_reverse] at hc
  exact head_trimStart s.reverse c hc

/-- what is left after cutting blanks off the end begins as the text did -/
theorem exists_trimEnd_append (s : List Char) : ∃ t, trimEnd s ++ t = s := by
  obtain ⟨t, ht⟩ := List.dropWhile_suffix (l := s.reverse) isBlank
  exact ⟨t.reverse, by rw [trimEnd, ← List.reverse_append, ht, List.reverse_reverse]⟩

theorem trimmed_trim (s : List Char) : Trimmed (trim s) := by
  refine ⟨fun c hc => ?_, last_trimEnd _⟩
  obtain ⟨t, ht⟩ := exists_trimEnd_append (trimStart s)
  refine head_trimStart s c ?_
  rw [← ht]
  cases h : trimEnd (trimStart s) with
  | nil => rw [trim, h] at hc; simp at hc
  | cons d r => rw [trim, h] at hc; simpa using hc

theorem trim_eq_self_iff {s : List Char} : trim s = s ↔ Trimmed s :=
  ⟨fun h => h ▸ trimmed_trim s, trim_eq_self⟩

end Linkage.Text
