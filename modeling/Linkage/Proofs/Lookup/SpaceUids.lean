import Linkage.Lookup.Basic
import Linkage.Proofs.Store.Table

/-!
# The uid of a space and the row it names

A uid is cut at the first two underscores, and an id may have some of its own or begin with one.  The
lookup in the table of spaces still finds the row whose kind and id the uid was put together from,
because no name of a kind has an underscore.

* `Store.HasSpace`            a row of the table is that of a kind and an id;
* `Lookup.answer_of_space`     the answer for the uid of a space that has a row, by this row;
* `splitUid?_eq_none_iff`     a text that is no uid of a space is not cut;
* `Lookup.answer_of_uncut`    it is refused before the table is looked at;
* `uids_resolve`              all answers of the lookup.
-/

namespace Linkage

theorem splitUid?_eq_none_iff {uid : String} :
    splitUid? uid = none ↔ ∀ k id, uid ≠ spaceUid k id := by
  rw [Option.eq_none_iff_forall_ne_some, Prod.forall]
  exact forall₂_congr fun k id => not_congr splitUid?_eq_some_iff

namespace Store

variable {s : Store} {k : SpaceKind} {id : String} {r : Row Space}

/-- The row is that of the space with this kind and id. -/
structure HasSpace (s : Store) (k : SpaceKind) (id : String) (r : Row Space) : Prop where
  mem : r ∈ s.spaces.rows
  type : r.val.type = k.text
  id : r.val.id = id

theorem HasSpace.unique {x : Row Space} (h : s.HasSpace k id r) (hx : s.HasSpace k id x) : x = r := by
  have hkey : Space.key r.val = Space.key x.val := by
    unfold Space.key
    rw [h.type, h.id, hx.type, hx.id]
  exact Table.eq_of_key hx.mem h.mem rfl hkey

theorem find?_space_eq_some_iff :
    (s.spaces.find? fun r => r.val.type = k.text ∧ r.val.id = id) = some r ↔ s.HasSpace k id r := by
  have hfound {x : Row Space}
      (hx : (s.spaces.find? fun r => r.val.type = k.text ∧ r.val.id = id) = some x) :
      s.HasSpace k id x := by
    obtain ⟨hmem, hp⟩ := Table.of_find? hx
    exact ⟨hmem, (of_decide_eq_true hp).1, (of_decide_eq_true hp).2⟩
  refine ⟨hfound, fun h => ?_⟩
  cases hx : s.spaces.find? fun r => r.val.type = k.text ∧ r.val.id = id with
  | none => exact absurd (decide_eq_true ⟨h.type, h.id⟩) (Table.find?_eq_none_iff.1 hx r h.mem)
  | some x => rw [h.unique (hfound hx)]

theorem find?_space_eq_none_iff :
    (s.spaces.find? fun r => r.val.type = k.text ∧ r.val.id = id) = none ↔
      ∀ r, ¬s.HasSpace k id r := by
  rw [Option.eq_none_iff_forall_ne_some]
  exact forall_congr' fun r => not_congr find?_space_eq_some_iff

end Store

namespace Lookup

variable {s : Store} {k : SpaceKind} {id uid : String} {r : Row Space}

theorem answer_of_absent (h : ∀ r, ¬s.HasSpace k id r) :
    (ofStore s).answer (spaceUid k id) = .error (.space (.notFound (spaceUid k id))) := by
  show inStore s _ = _
  simp only [inStore, splitUid?_spaceUid, Store.find?_space_eq_none_iff.2 h]

theorem answer_of_space (h : s.HasSpace k id r) :
    (ofStore s).answer (spaceUid k id)
      = (businessOf (spaceUid k id) k r).map fun b => ⟨spaceUid k id, b⟩ := by
  show inStore s _ = _
  simp only [inStore, splitUid?_spaceUid, Store.find?_space_eq_some_iff.2 h]

/-- a space that is no business is answered with the negated id of its row -/
theorem answer_of_row (h : s.HasSpace k id r) (hk : k ≠ .business) :
    (ofStore s).answer (spaceUid k id) = .ok ⟨spaceUid k id, -r.id⟩ := by
  rw [answer_of_space h]
  cases k with
  | business => exact absurd rfl hk
  | project => rfl
  | container => rfl

/-- a business is answered with its own number, if its id is one -/
theorem answer_of_number {i : Int} (h : s.HasSpace .business id r)
    (hi : Text.Decimal.int64? id.toList = some i) :
    (ofStore s).answer (spaceUid .business id) = .ok ⟨spaceUid .business id, i⟩ := by
  rw [answer_of_space h]
  simp only [businessOf, h.id, hi]
  rfl

theorem answer_of_no_number (h : s.HasSpace .business id r)
    (hi : Text.Decimal.int64? id.toList = none) :
    (ofStore s).answer (spaceUid .business id)
      = .error (.space (.invalidUid (spaceUid .business id))) := by
  rw [answer_of_space h]
  simp only [businessOf, h.id, hi]
  rfl

theorem answer_notFound_iff_absent :
    (ofStore s).answer (spaceUid k id) = .error (.space (.notFound (spaceUid k id))) ↔
      ∀ r, ¬s.HasSpace k id r := by
  refine ⟨fun hnone r h => ?_, answer_of_absent⟩
  by_cases hk : k = .business
  · subst hk
    cases hi : Text.Decimal.int64? id.toList with
    | some i =>
      rw [answer_of_number h hi] at hnone
      cases hnone
    | none =>
      rw [answer_of_no_number h hi] at hnone
      cases hnone
  · rw [answer_of_row h hk] at hnone
    cases hnone

/-- a text that is not cut is refused, whatever the table holds -/
theorem answer_of_uncut (h : splitUid? uid = none) (s : Store) :
    (ofStore s).answer uid = .error (.space (.invalidUid uid)) := by
  show inStore s uid = _
  simp only [inStore, h]

end Lookup

/-- The lookup in the table of spaces does not find the uid of a space exactly when no row has its kind
and id.  Otherwise one row has them, and the answer is the negated id of this row, or for a business the
number of 64 bits that its id spells; one whose id spells none has an invalid uid.  A text that is no
uid of a space is cut nowhere, and it is refused by the lookup in any table. -/
theorem uids_resolve (s : Store) :
    (∀ k id, (Lookup.ofStore s).answer (spaceUid k id) = .error (.space (.notFound (spaceUid k id))) ↔
      ∀ r, ¬s.HasSpace k id r) ∧
    (∀ k id r, s.HasSpace k id r →
      (∀ x, s.HasSpace k id x → x = r) ∧
      (k ≠ .business → (Lookup.ofStore s).answer (spaceUid k id) = .ok ⟨spaceUid k id, -r.id⟩) ∧
      (k = .business →
        (∀ i, (Lookup.ofStore s).answer (spaceUid k id) = .ok ⟨spaceUid k id, i⟩ ↔
          Text.Decimal.SpellsInt64 id.toList i) ∧
        ((Lookup.ofStore s).answer (spaceUid k id) = .error (.space (.invalidUid (spaceUid k id))) ↔
          ∀ i, ¬Text.Decimal.SpellsInt64 id.toList i))) ∧
    ∀ uid, (∀ k id, uid ≠ spaceUid k id) → splitUid? uid = none ∧
      ∀ t, (Lookup.ofStore t).answer uid = .error (.space (.invalidUid uid)) := by
  refine ⟨fun k id => Lookup.answer_notFound_iff_absent,
    fun k id r h => ⟨fun x => h.unique, Lookup.answer_of_row h, ?_⟩, fun uid h => ?_⟩
  · rintro rfl
    simp only [← Text.Decimal.int64?_eq_some_iff]
    cases hi : Text.Decimal.int64? id.toList with
    | some i =>
      rw [Lookup.answer_of_number h hi]
      simp
    | none =>
      rw [Lookup.answer_of_no_number h hi]
      simp
  · have huncut := splitUid?_eq_none_iff.2 h
    exact ⟨huncut, Lookup.answer_of_uncut huncut⟩

/-- Spaces whose ids have underscores or a sign. -/
def Store.underscored : Store :=
  { Store.empty with
    spaces := .ofList [⟨"bkci", "_x", "", ""⟩, ⟨"bkcc", "-7", "", ""⟩, ⟨"bkcc", "a__b", "", ""⟩]
      (by decide) }

theorem uids_resolve_underscored :
    let answer := (Lookup.ofStore .underscored).answer
    answer "bkci___x" = .ok ⟨"bkci___x", -1⟩ ∧ answer "bkcc__-7" = .ok ⟨"bkcc__-7", -7⟩ ∧
    answer "bkcc__a__b" = .error (.space (.invalidUid "bkcc__a__b")) ∧
    answer "bcs___x" = .error (.space (.notFound "bcs___x")) ∧
    answer "bkci_x" = .error (.space (.invalidUid "bkci_x")) := by
  intro answer
  obtain ⟨habsent, hrow, hother⟩ := uids_resolve .underscored
  have hproject := hrow .project "_x" ⟨1, "bkci", "_x", "", ""⟩ ⟨by decide, rfl, rfl⟩
  have hnumber := hrow .business "-7" ⟨2, "bkcc", "-7", "", ""⟩ ⟨by decide, rfl, rfl⟩
  have hname := hrow .business "a__b" ⟨3, "bkcc", "a__b", "", ""⟩ ⟨by decide, rfl, rfl⟩
  refine ⟨hproject.2.1 (by decide), ?_, ?_, ?_, ?_⟩
  · exact ((hnumber.2.2 rfl).1 (-7)).2 (Text.Decimal.int64?_eq_some_iff.1 (by decide))
  · refine ((hname.2.2 rfl).2).2 fun i hi => ?_
    cases Text.Decimal.int64?_eq_some_iff.2 hi
  · refine (habsent .container "_x").2 fun r h => ?_
    have hnone : ∀ r ∈ Store.underscored.spaces.rows, r.val.type ≠ SpaceKind.container.text := by
      decide
    exact hnone r h.mem h.type
  · refine (hother "bkci_x" fun k id h => ?_).2 .underscored
    have hcut : splitUid? "bkci_x" = none := by decide
    rw [splitUid?_eq_some_iff.2 h] at hcut
    cases hcut

end Linkage
