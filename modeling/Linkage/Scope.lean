/-!
# Scopes

Data-buses, their sinks, result tables and links belong to a namespace of a tenant.  Nothing in one
scope refers to anything in another.
-/

namespace Linkage

structure Scope where
  tenant : String
  name : String
  deriving DecidableEq

/-- The name of the link that is made for a data-bus. -/
def Scope.linkName (s : Scope) (bus : String) : String :=
  "rebuilt__" ++ s.tenant ++ "__" ++ s.name ++ "__" ++ bus

/-- different data-buses of a scope have different links -/
theorem Scope.linkName_injective {s : Scope} {a b : String} (h : s.linkName a = s.linkName b) :
    a = b := by
  have := congrArg String.toList h
  exact String.ext (by simpa [Scope.linkName] using this)

end Linkage
