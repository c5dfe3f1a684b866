import Linkage.Text.Cut

/-!
# Spaces

A space is a place where resources are registered: a business, a project, or the container side of
a project.

* `SpaceKind`       the kinds of spaces the reconciler knows;
* `spaceUid`        the uid of a space, its kind and its id with two underscores between them;
* `splitUid?`       the kind and id of a uid, cut at the first two underscores;
* `splitUid?_spaceUid`   a uid is cut where it was put together;
* `splitUid?_eq_some_iff`   no other text is cut.
-/

namespace Linkage

/-- The kinds of spaces the reconciler knows. -/
inductive SpaceKind where
  | business
  | project
  | container
  deriving DecidableEq

namespace SpaceKind

def text : SpaceKind → String
  | business => "bkcc"
  | project => "bkci"
  | container => "bcs"

def ofText? (s : String) : Option SpaceKind :=
  [business, project, container].find? fun k => k.text = s

theorem ofText?_text (k : SpaceKind) : ofText? k.text = some k := by
  cases k <;> decide

theorem ofText?_eq_some_iff {s : String} {k : SpaceKind} : ofText? s = some k ↔ s = k.text := by
  refine ⟨fun h => ?_, fun h => h ▸ ofText?_text k⟩
  have := List.find?_some h
  simpa [eq_comm] using this

end SpaceKind

/-- What stands between the kind and the id of a space. -/
def uidSeparator : List Char := ['_', '_']

def spaceUid (k : SpaceKind) (id : String) : String :=
  k.text ++ String.ofList uidSeparator ++ id

/-- The kind and id of a uid. -/
def splitUid? (uid : String) : Option (SpaceKind × String) :=
  match Text.cutWord? uidSeparator uid.toList with
  | some (kind, id) => (SpaceKind.ofText? (String.ofList kind)).map (·, String.ofList id)
  | none => none

theorem splitUid?_spaceUid (k : SpaceKind) (id : String) :
    splitUid? (spaceUid k id) = some (k, id) := by
  cases k <;>
    simp [splitUid?, spaceUid, SpaceKind.text, uidSeparator, Text.cutWord?, Text.dropWord?] <;>
    decide

/-- what can be cut is the uid of a space -/
theorem splitUid?_eq_some_iff {uid : String} {k : SpaceKind} {id : String} :
    splitUid? uid = some (k, id) ↔ uid = spaceUid k id := by
  refine ⟨fun h => ?_, fun h => h ▸ splitUid?_spaceUid k id⟩
  unfold splitUid? at h
  cases hcut : Text.cutWord? uidSeparator uid.toList with
  | none => rw [hcut] at h; cases h
  | some p =>
    obtain ⟨kind, rest⟩ := p
    rw [hcut] at h
    obtain ⟨j, hj, he⟩ := Option.map_eq_some_iff.1 h
    cases he
    rw [← String.toList_inj, Text.eq_append_of_cutWord? hcut]
    simp [spaceUid, ← SpaceKind.ofText?_eq_some_iff.1 hj]

end Linkage
