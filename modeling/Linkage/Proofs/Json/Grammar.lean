import Linkage.Json.Raw
import Linkage.Proofs.Json.Numbers
import Linkage.Proofs.Json.Texts

/-!
# The syntax of JSON

The grammar says what characters write a value and what they leave; the reader reads these characters
and no others, at any depth if it is not bounded.

* `Json.IsValue`           the characters write a value, with blanks before it;
* `Json.Writes`            bytes write a value, with blanks around it;
* `Json.isValue_of_value`  what is read is written so;
* `Json.readsValues`       what is written so is read, if the reader goes deep enough;
* `Json.Raw.parse?_eq_some_iff`   so a body is read exactly when it is written in this syntax.
-/

namespace Linkage.Json

/-! ## the grammar -/

/-- Behind blanks `s` goes on as `r`. -/
def Blanks (s r : List Char) : Prop := ∃ g, s = g ++ r ∧ ∀ c ∈ g, isGap c = true

/-- The parts of a text up to its closing quote. -/
inductive IsQuoted : List Piece → List Char → List Char → Prop
  | close {r : List Char} : IsQuoted [] ('"' :: r) r
  | char {c : Char} {ps : List Piece} {s r : List Char} (hquote : c ≠ '"') (hslash : c ≠ '\\')
    (hcontrol : 0x20 ≤ c.toNat) (h : IsQuoted ps s r) : IsQuoted (.char c :: ps) (c :: s) r
  | escape {e c : Char} {ps : List Piece} {s r : List Char} (he : escape? e = some c)
    (h : IsQuoted ps s r) : IsQuoted (.char c :: ps) ('\\' :: e :: s) r
  | unit {a b c d : Char} {n : Nat} {ps : List Piece} {s r : List Char} (hn : hex4? a b c d = some n)
    (h : IsQuoted ps s r) : IsQuoted (.unit n :: ps) ('\\' :: 'u' :: a :: b :: c :: d :: s) r

section
variable {α : Type}

/-- One or more items with commas between them, and the closing character. -/
inductive Listed (R : α → List Char → List Char → Prop) (close : Char) :
    List α → List Char → List Char → Prop
  | last {x : α} {s t r : List Char} (h : R x s t) (hclose : Blanks t (close :: r)) :
    Listed R close [x] s r
  | more {x : α} {xs : List α} {s t u r : List Char} (h : R x s t) (hcomma : Blanks t (',' :: u))
    (hmore : Listed R close xs u r) : Listed R close (x :: xs) s r

/-- The items of an array or an object whose opening character is read. -/
inductive IsSequence (R : α → List Char → List Char → Prop) (close : Char) :
    List α → List Char → List Char → Prop
  | empty {s r : List Char} (h : Blanks s (close :: r)) : IsSequence R close [] s r
  | items {xs : List α} {s t r : List Char} (hgap : Blanks s t) (h : Listed R close xs t r) :
    IsSequence R close xs s r

/-- A name, a colon and a value. -/
inductive IsMember (R : α → List Char → List Char → Prop) :
    List Piece × α → List Char → List Char → Prop
  | mk {k : List Piece} {v : α} {s t u w r : List Char} (hquote : Blanks s ('"' :: t))
    (hname : IsQuoted k t u) (hcolon : Blanks u (':' :: w)) (h : R v w r) : IsMember R (k, v) s r

end

/-- Behind blanks `s` begins with a value and goes on as `r`. -/
inductive IsValue : Raw → List Char → List Char → Prop
  | null {s r : List Char} (h : Blanks s ('n' :: 'u' :: 'l' :: 'l' :: r)) : IsValue .null s r
  | yes {s r : List Char} (h : Blanks s ('t' :: 'r' :: 'u' :: 'e' :: r)) : IsValue (.bool true) s r
  | no {s r : List Char} (h : Blanks s ('f' :: 'a' :: 'l' :: 's' :: 'e' :: r)) :
    IsValue (.bool false) s r
  | num {p : Number.Parts} {cs s r : List Char} (h : Blanks s (cs ++ r)) (hp : p.IsSpelt cs) :
    IsValue (.num p) s r
  | str {ps : List Piece} {s t r : List Char} (h : Blanks s ('"' :: t)) (hps : IsQuoted ps t r) :
    IsValue (.str ps) s r
  | arr {xs : List Raw} {s t r : List Char} (h : Blanks s ('[' :: t))
    (hxs : IsSequence IsValue ']' xs t r) : IsValue (.arr xs) s r
  | obj {es : List (List Piece × Raw)} {s t r : List Char} (h : Blanks s ('\x7b' :: t))
    (hes : IsSequence (IsMember IsValue) '\x7d' es t r) : IsValue (.obj es) s r

/-- The bytes write a value, with nothing but blanks around it. -/
def Writes (b : ByteArray) (v : Raw) : Prop := ∃ r, IsValue v (Raw.octets b) r ∧ Blanks r []

/-! ## blanks -/

section
variable {s t r : List Char} {c : Char}

theorem blanks_skipGap (s : List Char) : Blanks s (skipGap s) :=
  ⟨s.takeWhile isGap, List.takeWhile_append_dropWhile.symm, List.all_eq_true.1 List.all_takeWhile⟩

theorem Blanks.skipGap_eq (h : Blanks s t) : skipGap s = skipGap t := by
  obtain ⟨g, rfl, hg⟩ := h
  exact List.dropWhile_append_of_pos hg

theorem skipGap_skipGap (s : List Char) : skipGap (skipGap s) = skipGap s :=
  (blanks_skipGap s).skipGap_eq.symm

theorem Blanks.length_le (h : Blanks s t) : t.length ≤ s.length := by
  obtain ⟨g, rfl, -⟩ := h
  rw [List.length_append]
  omega

theorem skipGap_cons (hc : isGap c = false) (r : List Char) : skipGap (c :: r) = c :: r :=
  List.dropWhile_cons_of_neg (ne_true_of_eq_false hc)

theorem blanks_cons_iff (hc : isGap c = false) : Blanks s (c :: r) ↔ skipGap s = c :: r :=
  ⟨fun h => h.skipGap_eq.trans (skipGap_cons hc r), fun h => h ▸ blanks_skipGap s⟩

theorem blanks_nil_iff : Blanks s [] ↔ skipGap s = [] :=
  ⟨fun h => h.skipGap_eq, fun h => h ▸ blanks_skipGap s⟩

/-- blanks do not go on with a number -/
theorem Blanks.behind (h : Blanks s r) (hr : Behind r) : Behind s := by
  obtain ⟨g, rfl, hg⟩ := h
  cases g with
  | nil => exact hr
  | cons a g =>
    rintro _ ⟨⟩
    have ha := hg a List.mem_cons_self
    simp only [isGap, Bool.or_eq_true, decide_eq_true_eq] at ha
    rcases ha with ((rfl | rfl) | rfl) | rfl <;> decide

end

/-! ## texts in quotes -/

section
variable {s r : List Char} {ps : List Piece}

theorem isQuoted_of_pieces (h : pieces s = some (ps, r)) : IsQuoted ps s r := by
  fun_induction pieces s generalizing ps with
  | case1 =>
    cases h
    exact .close
  | case2 _ _ _ _ _ _ _ _ hrest hn ih =>
    cases h
    exact .unit hn (ih hrest)
  | case4 _ _ _ _ _ _ hrest he ih =>
    cases h
    exact .escape he (ih hrest)
  | case7 c s hquote _ _ hok _ _ hrest ih =>
    obtain ⟨hslash, hcontrol⟩ := not_or.1 hok
    cases h
    exact .char hquote hslash (by omega) (ih hrest)
  | _ => cases h

theorem IsQuoted.pieces_eq (h : IsQuoted ps s r) : pieces s = some (ps, r) := by
  induction h with
  | close => rw [pieces]
  | char hquote hslash hcontrol _ ih =>
    rw [pieces_char hquote hslash hcontrol, ih]
    rfl
  | @escape e c ps s r he _ ih =>
    have hunit : e ≠ 'u' := by
      rintro rfl
      cases he
    rw [pieces_escape hunit he, ih]
    rfl
  | unit hn _ ih => rw [pieces, hn, ih]

theorem IsQuoted.length_lt (h : IsQuoted ps s r) : r.length < s.length := by
  induction h with
  | close => exact Nat.lt_succ_self _
  | char _ _ _ _ ih => exact Nat.lt_succ_of_lt ih
  | escape _ _ ih => exact Nat.lt_succ_of_lt (Nat.lt_succ_of_lt ih)
  | unit _ _ ih => exact Nat.lt_add_right 5 (Nat.lt_succ_of_lt ih)

end

/-! ## numbers -/

section
variable {s r : List Char}

theorem of_digits? {ds : List Char} (h : digits? s = some (ds, r)) : AreDigits ds ∧ s = ds ++ r := by
  unfold digits? at h
  simp only at h
  split at h
  · cases h
  · rename_i hne
    cases h
    exact ⟨⟨hne, List.all_eq_true.1 List.all_takeWhile⟩, List.takeWhile_append_dropWhile.symm⟩

theorem of_fraction? {f : Option (List Char)} (h : fraction? s = some (f, r)) :
    (∀ ds, f = some ds → AreDigits ds) ∧ s = Number.Parts.point f ++ r := by
  unfold fraction? at h
  split at h
  · obtain ⟨⟨ds, r'⟩, hds, hx⟩ := Option.map_eq_some_iff.1 h
    obtain ⟨hdigits, rfl⟩ := of_digits? hds
    cases hx
    refine ⟨?_, rfl⟩
    rintro _ ⟨⟩
    exact hdigits
  · cases h
    exact ⟨nofun, rfl⟩

theorem sign_cases (s : List Char) :
    (∃ t, s = '-' :: t ∧ sign s = (true, t)) ∨ sign s = (false, s) := by
  unfold sign
  split
  · exact .inl ⟨_, rfl, rfl⟩
  · exact .inr rfl

/-- the sign and the digits of an exponent are those of one of its forms -/
theorem of_exponent? {e : Char} (he : e = 'e' ∨ e = 'E') {x : Bool × List Char}
    (h : exponent? s = some (x, r)) :
    AreDigits x.2 ∧ ∃ ps, Number.Parts.IsPower (some x) ps ∧ e :: s = ps ++ r := by
  unfold exponent? at h
  split at h
  · obtain ⟨⟨ds, r'⟩, hds, hx⟩ := Option.map_eq_some_iff.1 h
    obtain ⟨hdigits, rfl⟩ := of_digits? hds
    cases hx
    exact ⟨hdigits, _, .plus he, rfl⟩
  · obtain ⟨⟨ds, r'⟩, hds, hx⟩ := Option.map_eq_some_iff.1 h
    obtain ⟨hdigits, hs⟩ := of_digits? hds
    cases hx
    refine ⟨hdigits, ?_⟩
    rcases sign_cases s with ⟨t, rfl, hsign⟩ | hsign
    · rw [hsign] at hs ⊢
      exact ⟨_, .down he, congrArg (fun t => e :: '-' :: t) hs⟩
    · rw [hsign] at hs ⊢
      exact ⟨_, .up he, congrArg (e :: ·) hs⟩

theorem of_power? {x : Option (Bool × List Char)} (h : power? s = some (x, r)) :
    (∀ y, x = some y → AreDigits y.2) ∧ ∃ ps, Number.Parts.IsPower x ps ∧ s = ps ++ r := by
  have hletter : ∀ {e : Char} {t : List Char}, e = 'e' ∨ e = 'E' →
      (exponent? t).map (fun x => (some x.1, x.2)) = some (x, r) →
      (∀ y, x = some y → AreDigits y.2) ∧ ∃ ps, Number.Parts.IsPower x ps ∧ e :: t = ps ++ r := by
    intro e t he h
    obtain ⟨⟨y, r'⟩, hy, hx⟩ := Option.map_eq_some_iff.1 h
    obtain ⟨hdigits, hps⟩ := of_exponent? he hy
    cases hx
    refine ⟨?_, hps⟩
    rintro _ ⟨⟩
    exact hdigits
  unfold power? at h
  split at h
  · exact hletter (.inl rfl) h
  · exact hletter (.inr rfl) h
  · cases h
    exact ⟨nofun, _, .none, rfl⟩

theorem of_numberParts {p : Number.Parts} (h : numberParts s = some (p, r)) :
    ∃ cs, p.IsSpelt cs ∧ s = cs ++ r := by
  obtain ⟨⟨whole, s₁⟩, hwhole, htail⟩ := Option.bind_eq_some_iff.1 h
  obtain ⟨⟨fraction, s₂⟩, hfraction, hend⟩ := Option.bind_eq_some_iff.1 htail
  obtain ⟨⟨exponent, s₃⟩, hpower, hparts⟩ := Option.map_eq_some_iff.1 hend
  obtain ⟨hread, hlead⟩ := Option.filter_eq_some_iff.1 hwhole
  obtain ⟨hdigits, hs⟩ := of_digits? hread
  obtain ⟨hpoint, hs₁⟩ := of_fraction? hfraction
  obtain ⟨hexponent, ps, hps, hs₂⟩ := of_power? hpower
  obtain ⟨rfl, rfl⟩ := Prod.mk.inj hparts
  have hzero : whole.head? = some '0' → whole.length = 1 := fun hzero => by
    simpa [hzero] using hlead
  refine ⟨_, ⟨⟨hdigits, hzero, hpoint, hexponent⟩, ps, hps, rfl⟩, ?_⟩
  have htext : s = (if (sign s).1 then ['-'] else []) ++ (sign s).2 := by
    rcases sign_cases s with ⟨t, rfl, hsign⟩ | hsign
    · rw [hsign]
      rfl
    · rw [hsign]
      rfl
  calc s = (if (sign s).1 then ['-'] else []) ++ (sign s).2 := htext
    _ = (if (sign s).1 then ['-'] else []) ++
          (whole ++ (Number.Parts.point fraction ++ (ps ++ s₃))) := by rw [hs, hs₁, hs₂]
    _ = _ := by simp only [List.append_assoc]

end

/-! ## arrays and objects -/

section
variable {α : Type} {R : α → List Char → List Char → Prop} {close : Char}
  {item : List Char → Option (α × List Char)} {s r rest : List Char} {x : α} {xs : List α}

theorem listed_of_items (h : ∀ s x t, item s = some (x, t) → R x s t) {fuel : Nat}
    (hitems : items item close fuel s = some (xs, r)) : Listed R close xs s r := by
  induction fuel generalizing s xs with
  | zero => cases hitems
  | succ fuel ih =>
    unfold items at hitems
    split at hitems
    · cases hitems
    rename_i x t hx
    have hfirst := h s x t hx
    have hgap := blanks_skipGap t
    split at hitems
    · rename_i u hu
      rw [hu] at hgap
      split at hitems
      · cases hitems
      rename_i ys r' hmore
      cases hitems
      exact .more hfirst hgap (ih hmore)
    · rename_i c u hu
      rw [hu] at hgap
      split at hitems
      · rename_i hc
        cases hitems
        exact .last hfirst (hc ▸ hgap)
      · cases hitems
    · cases hitems

theorem isSequence_of_sequence (h : ∀ s x t, item s = some (x, t) → R x s t)
    (hsequence : sequence item close s = some (xs, r)) : IsSequence R close xs s r := by
  have hgap := blanks_skipGap s
  unfold sequence at hsequence
  split at hsequence
  · cases hsequence
  rename_i c t ht
  rw [ht] at hgap
  split at hsequence
  · rename_i hc
    cases hsequence
    exact .empty (hc ▸ hgap)
  · exact .items hgap (listed_of_items h hsequence)

theorem items_last (fuel : Nat) (h : item s = some (x, r)) (hr : skipGap r = close :: rest)
    (hc : close ≠ ',') : items item close (fuel + 1) s = some ([x], rest) := by
  rw [items, h]
  simp only
  rw [hr]
  split
  · rename_i he
    exact absurd (List.cons.inj he).1 hc
  · rename_i he
    obtain ⟨rfl, rfl⟩ := List.cons.inj he
    exact if_pos rfl
  · rename_i he
    cases he

theorem items_more {fuel : Nat} {r' : List Char} (h : item s = some (x, r))
    (hr : skipGap r = ',' :: r') (hi : items item close fuel r' = some (xs, rest)) :
    items item close (fuel + 1) s = some (x :: xs, rest) := by
  rw [items, h]
  simp only
  rw [hr]
  simp only
  rw [hi]

/-- How a reader of items has to be so that all items of at most `d` characters are read. -/
structure ReadsItems (item : List Char → Option (α × List Char))
    (R : α → List Char → List Char → Prop) (close : Char) (d : Nat) : Prop where
  bracket : close = ']' ∨ close = '\x7d'
  gap : ∀ s, item (skipGap s) = item s
  close : ∀ t, item (close :: t) = none
  complete : ∀ x s t, R x s t → s.length ≤ d → Behind t →
    item s = some (x, t) ∧ t.length < (skipGap s).length

theorem behind_cons {c : Char} (hc : Behind [c]) (t : List Char) : Behind (c :: t) := hc

namespace ReadsItems
variable {d : Nat} (hread : ReadsItems item R close d)
include hread

theorem skipGap_eq (h : Blanks s (close :: r)) : skipGap s = close :: r := by
  rcases hread.bracket with rfl | rfl <;> exact (blanks_cons_iff rfl).1 h

/-- items are read up to their closing character -/
theorem items_eq (h : Listed R close xs s r) (hd : s.length ≤ d) {fuel : Nat}
    (hfuel : (skipGap s).length ≤ fuel) :
    items item close fuel s = some (xs, r) ∧ r.length < (skipGap s).length := by
  -- an item takes up a character at least, so the fuel outlasts the items
  induction h generalizing fuel with
  | @last x s t r hx hend =>
    have hbehind : Behind (close :: r) := by
      rcases hread.bracket with rfl | rfl <;> exact behind_cons (by rintro _ ⟨⟩; decide) r
    have hcomma : close ≠ ',' := by
      rcases hread.bracket with rfl | rfl <;> decide
    obtain ⟨hitem, hlength⟩ := hread.complete x s t hx hd (hend.behind hbehind)
    have hle := hend.length_le
    rw [List.length_cons] at hle
    obtain ⟨n, rfl⟩ : ∃ n, fuel = n + 1 := ⟨fuel - 1, by omega⟩
    exact ⟨items_last n hitem (hread.skipGap_eq hend) hcomma, by omega⟩
  | @more x xs s t u r hx hcomma _ ih =>
    have hbehind : Behind (',' :: u) := behind_cons (by rintro _ ⟨⟩; decide) u
    obtain ⟨hitem, hlength⟩ := hread.complete x s t hx hd (hcomma.behind hbehind)
    have hle := hcomma.length_le
    have hgap := (blanks_skipGap s).length_le
    have hgap' := (blanks_skipGap u).length_le
    rw [List.length_cons] at hle
    obtain ⟨n, rfl⟩ : ∃ n, fuel = n + 1 := ⟨fuel - 1, by omega⟩
    have hfuel : (skipGap u).length ≤ n := by omega
    obtain ⟨hmore, hrest⟩ := ih (by omega) hfuel
    exact ⟨items_more hitem ((blanks_cons_iff rfl).1 hcomma) hmore, by omega⟩

theorem items_skipGap (fuel : Nat) (s : List Char) :
    items item close fuel (skipGap s) = items item close fuel s := by
  cases fuel with
  | zero => rfl
  | succ fuel => rw [items, items, hread.gap]

theorem items_close (fuel : Nat) (t : List Char) : items item close fuel (close :: t) = none := by
  cases fuel with
  | zero => rfl
  | succ fuel => rw [items, hread.close]

theorem sequence_eq (h : IsSequence R close xs s r) (hd : s.length ≤ d) :
    sequence item close s = some (xs, r) ∧ r.length < s.length := by
  cases h with
  | empty hend =>
    have hle := hend.length_le
    rw [List.length_cons] at hle
    unfold sequence
    rw [hread.skipGap_eq hend]
    exact ⟨if_pos rfl, hle⟩
  | items hgap hlisted =>
    rename_i t
    have hlength := (blanks_skipGap s).length_le
    rw [hgap.skipGap_eq] at hlength
    obtain ⟨hitems, hrest⟩ := hread.items_eq hlisted (hgap.length_le.trans hd) le_rfl
    rw [← hread.items_skipGap] at hitems
    refine ⟨?_, by omega⟩
    unfold sequence
    rw [hgap.skipGap_eq]
    cases hs : skipGap t with
    | nil =>
      rw [hs] at hitems
      cases hitems
    | cons c u =>
      rw [hs] at hitems
      have hc : c ≠ close := by
        rintro rfl
        rw [hread.items_close] at hitems
        cases hitems
      exact (if_neg hc).trans hitems

end ReadsItems
end

/-! ## values -/

section
variable {s t r : List Char} {v : Raw}

theorem isValue_of_scalar (hgap : Blanks s t) (h : Raw.scalar t = some (v, r)) : IsValue v s r := by
  unfold Raw.scalar at h
  split at h
  · obtain ⟨⟨ps, r'⟩, hps, hv⟩ := Option.map_eq_some_iff.1 h
    cases hv
    exact .str hgap (isQuoted_of_pieces hps)
  · cases h
    exact .null hgap
  · cases h
    exact .yes hgap
  · cases h
    exact .no hgap
  · obtain ⟨⟨p, r'⟩, hp, hv⟩ := Option.map_eq_some_iff.1 h
    obtain ⟨cs, hspelt, rfl⟩ := of_numberParts hp
    cases hv
    exact .num hgap hspelt

theorem isMember_of_member {R : Raw → List Char → List Char → Prop}
    {value : List Char → Option (Raw × List Char)} {e : List Piece × Raw}
    (hvalue : ∀ s v t, value s = some (v, t) → R v s t) (h : member pieces value s = some (e, r)) :
    IsMember R e s r := by
  have hgap := blanks_skipGap s
  unfold member at h
  split at h
  · rename_i t ht
    rw [ht] at hgap
    split at h
    · cases h
    rename_i k u hk
    have hcolon := blanks_skipGap u
    split at h
    · rename_i w hw
      rw [hw] at hcolon
      split at h
      · cases h
      rename_i v r' hv
      cases h
      exact .mk hgap (isQuoted_of_pieces hk) hcolon (hvalue _ _ _ hv)
    · cases h
  · cases h

/-- what is read as a value is written as this value -/
theorem isValue_of_value {d : Nat} (h : Raw.reading.value d s = some (v, r)) : IsValue v s r := by
  have hgap := blanks_skipGap s
  induction d generalizing s v r with
  | zero =>
    rw [Reading.value] at h
    exact isValue_of_scalar hgap h
  | succ d ih =>
    have hitem (s : List Char) (v : Raw) (t : List Char) (hv : Raw.reading.value d s = some (v, t)) :
        IsValue v s t := ih hv (blanks_skipGap s)
    rw [Reading.value] at h
    split at h
    · rename_i t ht
      rw [ht] at hgap
      split at h
      · cases h
      rename_i xs r' hxs
      cases h
      exact .arr hgap (isSequence_of_sequence hitem hxs)
    · rename_i t ht
      rw [ht] at hgap
      split at h
      · cases h
      rename_i es r' hes
      cases h
      exact .obj hgap (isSequence_of_sequence (fun _ _ _ he => isMember_of_member hitem he) hes)
    · exact isValue_of_scalar hgap h

theorem value_skipGap (d : Nat) (s : List Char) :
    Raw.reading.value d (skipGap s) = Raw.reading.value d s := by
  cases d with
  | zero => rw [Reading.value, Reading.value, skipGap_skipGap]
  | succ d => rw [Reading.value, Reading.value, skipGap_skipGap]

theorem member_skipGap (value : List Char → Option (Raw × List Char)) (s : List Char) :
    member pieces value (skipGap s) = member pieces value s := by
  rw [member, member, skipGap_skipGap]

/-- what begins no array or object is read when its first character and the rest are -/
theorem value_of_scalar (d : Nat) {c : Char} (hs : Blanks s (c :: t))
    (hc : isGap c = false ∧ c ≠ '[' ∧ c ≠ '\x7b') (h : Raw.scalar (c :: t) = some (v, r))
    (hlength : r.length ≤ t.length) :
    Raw.reading.value d s = some (v, r) ∧ r.length < (skipGap s).length := by
  have hskip : skipGap s = c :: t := (blanks_cons_iff hc.1).1 hs
  rw [Raw.reading.value_eq_scalar d hskip hc.2.1 hc.2.2, hskip]
  exact ⟨h, Nat.lt_succ_of_le hlength⟩

theorem scalar_of_isSpelt {p : Number.Parts} {cs : List Char} (h : p.IsSpelt cs) (hr : Behind r) :
    Raw.scalar (cs ++ r) = some (.num p, r) := by
  have hread := numberParts_of_isSpelt h hr
  obtain ⟨c, u, rfl, hc⟩ := exists_head_of_isSpelt h
  rw [List.cons_append] at hread ⊢
  unfold Raw.scalar
  split
  · rename_i heq
    exact absurd heq (hc.cons_ne rfl (by decide))
  · rename_i heq
    exact absurd heq (hc.cons_ne rfl (by decide))
  · rename_i heq
    exact absurd heq (hc.cons_ne rfl (by decide))
  · rename_i heq
    exact absurd heq (hc.cons_ne rfl (by decide))
  · rw [hread]
    rfl

/-- Values of at most `d` characters are read within `d` arrays and objects. -/
def ReadsValues (d : Nat) : Prop := ∀ v s r, IsValue v s r → s.length ≤ d → Behind r →
  Raw.reading.value d s = some (v, r) ∧ r.length < (skipGap s).length

theorem ReadsValues.readsItems {d : Nat} (h : ReadsValues d) :
    ReadsItems (Raw.reading.value d) IsValue ']' d where
  bracket := .inl rfl
  gap := value_skipGap d
  close t := by
    rw [Raw.reading.value_eq_scalar d (skipGap_cons rfl t) (by decide) (by decide)]
    rfl
  complete := h

theorem ReadsValues.readsMembers {d : Nat} (h : ReadsValues d) :
    ReadsItems (member pieces (Raw.reading.value d)) (IsMember IsValue) '\x7d' d where
  bracket := .inr rfl
  gap := member_skipGap (Raw.reading.value d)
  close _ := rfl
  complete := by
    rintro _ s r ⟨hquote, hname, hcolon, hv⟩ hd hr
    rename_i k v t u w
    have hskip : skipGap s = '"' :: t := (blanks_cons_iff rfl).1 hquote
    have hskip' : skipGap u = ':' :: w := (blanks_cons_iff rfl).1 hcolon
    have hlength := hquote.length_le
    have hlength' := hcolon.length_le
    have hgap := (blanks_skipGap w).length_le
    have hlt := hname.length_lt
    rw [List.length_cons] at hlength hlength'
    obtain ⟨hread, hrest⟩ := h v w r hv (by omega) hr
    rw [hskip, List.length_cons]
    refine ⟨?_, by omega⟩
    rw [member, hskip]
    simp only
    rw [hname.pieces_eq]
    simp only
    rw [hskip']
    simp only
    rw [hread]

/-- what is written as a value is read, if the reader goes deep enough -/
theorem readsValues (d : Nat) : ReadsValues d := by
  -- behind an opening bracket fewer characters are left, and one level less is enough for them
  induction d using Nat.strongRecOn with
  | ind d ih =>
    intro v s r h hd hr
    cases h with
    | null h => exact value_of_scalar d h (by decide) rfl (Nat.le_add_right _ 3)
    | yes h => exact value_of_scalar d h (by decide) rfl (Nat.le_add_right _ 3)
    | no h => exact value_of_scalar d h (by decide) rfl (Nat.le_add_right _ 4)
    | num h hp =>
      have hread := scalar_of_isSpelt hp hr
      obtain ⟨c, u, rfl, hc⟩ := exists_head_of_isSpelt hp
      exact value_of_scalar d h ⟨hc.isGap_eq, hc.ne rfl (by decide), hc.ne rfl (by decide)⟩ hread
        (List.length_append ▸ Nat.le_add_left _ _)
    | str h hps =>
      refine value_of_scalar d h (by decide) ?_ hps.length_lt.le
      rw [Raw.scalar, hps.pieces_eq]
      rfl
    | @arr xs s t r h hxs =>
      have hskip : skipGap s = '[' :: t := (blanks_cons_iff rfl).1 h
      have hlength := h.length_le
      rw [List.length_cons] at hlength
      obtain ⟨n, rfl⟩ : ∃ n, d = n + 1 := ⟨d - 1, by omega⟩
      obtain ⟨hread, hrest⟩ := (ih n (Nat.lt_succ_self n)).readsItems.sequence_eq hxs (by omega)
      refine ⟨?_, by rw [hskip]; exact Nat.lt_succ_of_lt hrest⟩
      rw [Reading.value, hskip]
      simp only
      rw [hread]
      rfl
    | @obj es s t r h hes =>
      have hskip : skipGap s = '\x7b' :: t := (blanks_cons_iff rfl).1 h
      have hlength := h.length_le
      rw [List.length_cons] at hlength
      obtain ⟨n, rfl⟩ : ∃ n, d = n + 1 := ⟨d - 1, by omega⟩
      obtain ⟨hread, hrest⟩ := (ih n (Nat.lt_succ_self n)).readsMembers.sequence_eq hes (by omega)
      have hmembers : sequence (member Raw.reading.name fun s => Raw.reading.value n s) '\x7d' t
          = some (es, r) := hread
      refine ⟨?_, by rw [hskip]; exact Nat.lt_succ_of_lt hrest⟩
      rw [Reading.value, hskip]
      simp only
      rw [hmembers]
      rfl

end

/-- a body is read exactly when its bytes write a value -/
theorem Raw.parse?_eq_some_iff {b : ByteArray} {v : Raw} : Raw.parse? b = some v ↔ Writes b v := by
  unfold Raw.parse? Reading.whole? Writes
  constructor
  · intro h
    split at h
    · rename_i w r hread
      split at h
      · rename_i hend
        cases h
        exact ⟨r, isValue_of_value hread, blanks_nil_iff.2 hend⟩
      · cases h
    · cases h
  · rintro ⟨r, hv, hend⟩
    have hbehind : Behind r := hend.behind nofun
    rw [(readsValues _ v _ r hv le_rfl hbehind).1]
    exact if_pos (blanks_nil_iff.1 hend)

end Linkage.Json
