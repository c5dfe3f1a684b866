import Linkage.Toml.Statement

/-!
# TOML documents

* `Toml.ofStatements?`   the table that statements make, one after the other;
* `Toml.parse?`          the table of a text, which may begin with a byte order mark.
-/

namespace Linkage.Toml

/-- A table that is being read, and the path of the header that was read last. -/
structure Reading where
  header : List String
  root : Section

namespace Reading

def start : Reading := ⟨[], []⟩

def step (r : Reading) : Statement → Option Reading
  | .table p => (r.root.openTable? p).map fun es => ⟨p, es⟩
  | .element p => (r.root.openElement? p).map fun es => ⟨p, es⟩
  | .assign p v => (r.root.assignIn? r.header p v).map fun es => { r with root := es }

end Reading

def ofStatements? (ss : List Statement) : Option Toml :=
  (ss.foldlM Reading.step .start).map fun r => r.root.toToml

/-- The text without a byte order mark. -/
def dropMark : List Char → List Char
  | c :: r => if c.toNat = 0xfeff then r else c :: r
  | [] => []

def parse? (s : String) : Option Toml := (statements? (dropMark s.toList)).bind ofStatements?

end Linkage.Toml
