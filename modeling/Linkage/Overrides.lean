import Linkage.Dict
import Linkage.Text.Blank
import Linkage.Text.Cut

/-!
# Business overrides

An override forces the business that a cluster is related to.  Overrides are written as pairs
`cluster:business` with commas between them.

* `Overrides.item`     what one item between commas is: a pair, blank or malformed;
* `Overrides.parse`    the pairs of a text, of a repeated cluster the last;
* `Overrides.ignored`  the malformed items of a text.
-/

namespace Linkage

/-- The business that is forced for a cluster. -/
abbrev Overrides := Dict String String

namespace Overrides

/-- What an item between commas is. -/
inductive Item where
  | pair (cluster business : String)
  | blank
  | malformed (text : String)
  deriving DecidableEq

/-- What an item between commas is: a pair of two parts that are not blank, with one colon. -/
def item (s : List Char) : Item :=
  let other := if Text.trim s = [] then .blank else .malformed (String.ofList s)
  match (Text.splitAt ':' s).map Text.trim with
  | [c, b] => if c ≠ [] ∧ b ≠ [] then .pair (String.ofList c) (String.ofList b) else other
  | _ => other

def items (s : String) : List Item := (Text.splitAt ',' s.toList).map item

/-- The pair that an item is. -/
def Item.pair? : Item → Option (String × String)
  | pair c b => some (c, b)
  | _ => none

/-- The text of an item that is malformed. -/
def Item.malformed? : Item → Option String
  | malformed s => some s
  | _ => none

def parse (s : String) : Overrides := Dict.ofList ((items s).filterMap Item.pair?)

/-- The malformed items of a text, in order. -/
def ignored (s : String) : List String := (items s).filterMap Item.malformed?

/-- The overrides of a table, in which blank clusters and businesses do not count. -/
def ofTable (t : Dict String String) : Overrides :=
  Dict.ofList ((t.entries.map fun e => (Text.trimmed e.1, Text.trimmed e.2)).filter
    fun e => e.1 ≠ "" ∧ e.2 ≠ "")

end Overrides
end Linkage
