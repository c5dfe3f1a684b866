/-!
# Cluster relations

A relation says that a cluster of a project belongs to a business.  Business ids are texts: the
container side of a project has a negative one.

* `RelationKey`      the identity of a relation, ordered member by member;
* `RelationKey.text` its written form.
-/

namespace Linkage

open Std

/-- The identity of a cluster relation. -/
structure RelationKey where
  related : String
  business : String
  project : String
  cluster : String
  deriving DecidableEq

namespace RelationKey

/-- Members are compared in turn. -/
instance : Ord RelationKey :=
  ⟨compareLex (compareOn related)
    (compareLex (compareOn business) (compareLex (compareOn project) (compareOn cluster)))⟩

instance : TransOrd RelationKey :=
  inferInstanceAs (TransCmp (compareLex (compareOn related)
    (compareLex (compareOn business) (compareLex (compareOn project) (compareOn cluster)))))

instance : LawfulEqOrd RelationKey := ⟨fun {a b} h => by
  obtain ⟨h1, h⟩ := compareLex_eq_eq.1 h
  obtain ⟨h2, h⟩ := compareLex_eq_eq.1 h
  obtain ⟨h3, h4⟩ := compareLex_eq_eq.1 h
  have c1 : compare a.related b.related = .eq := h1
  have c2 : compare a.business b.business = .eq := h2
  have c3 : compare a.project b.project = .eq := h3
  have c4 : compare a.cluster b.cluster = .eq := h4
  have e1 := LawfulEqCmp.eq_of_compare c1
  have e2 := LawfulEqCmp.eq_of_compare c2
  have e3 := LawfulEqCmp.eq_of_compare c3
  have e4 := LawfulEqCmp.eq_of_compare c4
  cases a; cases b
  simp_all⟩

def text (k : RelationKey) : String :=
  "(" ++ k.related ++ ", " ++ k.business ++ ", " ++ k.project ++ ", " ++ k.cluster ++ ")"

end RelationKey
end Linkage
