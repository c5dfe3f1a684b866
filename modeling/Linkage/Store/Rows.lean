import Linkage.Error
import Linkage.Json.Parser
import Linkage.Json.Printer
import Linkage.Relation
import Linkage.Report
import Linkage.Store.Table

/-!
# What the store holds

* `Space`, `Resource`    the registry of spaces and of what is bound to them;
* `Relation`             a cluster relation with the time it was last found right;
* `DataSource`           where the data of a data-bus comes from;
* `Component`            something a link can own: a `Bus`, a `Sink` or a `ResultTable`;
* `Link`                 a data link.

Lists in a row are kept as JSON text and read when they are asked for.
-/

namespace Linkage

structure Space where
  type : String
  id : String
  code : String
  name : String
  deriving DecidableEq

/-- A resource of some type that is bound to a space. -/
structure Resource where
  spaceType : String
  spaceId : String
  type : String
  target : Option String
  dimensions : String
  deriving DecidableEq

structure Relation where
  key : RelationKey
  checked : Int
  deriving DecidableEq

/-- Where the data of a data-bus comes from. -/
structure DataSource where
  id : DataId
  name : String
  etlConfig : String
  deriving DecidableEq

/-- Something in a scope that a link can own; the owner is empty while no link does. -/
structure Component (δ : Type) where
  scope : Scope
  name : String
  owner : String
  detail : δ
  deriving DecidableEq

/-- What a data-bus says about itself: its data id and its sink list. -/
structure Feed where
  dataId : DataId
  sinkList : String
  deriving DecidableEq

abbrev Bus := Component Feed

/-- A sink, with the name of the result table it refers to if its kind does. -/
abbrev Sink := Component (Option String)

/-- A result table, with its table id. -/
abbrev ResultTable := Component String

structure Link where
  scope : Scope
  name : String
  strategy : String
  dataId : DataId
  tableIds : String
  created : Int
  updated : Int
  deriving DecidableEq

/-- The text in a column for a list of texts. -/
def listColumn (ss : List String) : String := (Json.texts ss).compact

/-- The text in a column for a value; names in objects are put in order. -/
def valueColumn (v : Json) : String := v.canonical.compact

/-- The list of texts in a column of a table. -/
def readListColumn (table text : String) : Except Error (List String) :=
  match (Json.parse? text).bind (Json.list? Json.text?) with
  | some ss => .ok ss
  | none => .error (.store (.corrupted table "not a JSON array of texts"))

namespace Space

/-- No two spaces have the same type and id. -/
def key (s : Space) : Option (String × String) := some (s.type, s.id)

end Space

namespace Resource

/-- Resources have no key. -/
def key (_ : Resource) : Option Unit := none

/-- The non-empty text under `cluster_id` in an object. -/
def clusterId? (v : Json) : Option String :=
  ((v.member? "cluster_id").bind Json.text?).filter fun s => s ≠ ""

/-- The clusters that the dimensions name, in their order. -/
def clusterIds (r : Resource) : Except Error (List String) :=
  match (Json.parse? r.dimensions).bind Json.array? with
  | some vs => .ok (vs.filterMap clusterId?)
  | none => .error (.store (.corrupted "space_resources" "not a JSON array"))

end Resource

namespace Relation

/-- Relations have no key: the same one may be stored twice. -/
def noKey (_ : Relation) : Option Unit := none

end Relation

namespace Component

/-- No two components of a table have the same name in a scope. -/
def key {δ : Type} (c : Component δ) : Option (Scope × String) := some (c.scope, c.name)

/-- Whether a link owns the component. -/
def isOwned {δ : Type} (c : Component δ) : Bool := c.owner ≠ ""

def own {δ : Type} (owner : String) (c : Component δ) : Component δ := { c with owner }

theorem key_own {δ : Type} (owner : String) (c : Component δ) : (c.own owner).key = c.key := rfl

/-- The entries of the sink list of a data-bus. -/
def sinkEntries (b : Bus) : Except Error (List String) :=
  readListColumn "databus_configs" b.detail.sinkList

end Component

namespace Link

/-- No two links have the same name in a scope. -/
def key (l : Link) : Option (Scope × String) := some (l.scope, l.name)

def readStrategy (l : Link) : Except Error Strategy :=
  match Strategy.ofText? l.strategy with
  | some t => .ok t
  | none => .error (.name (.strategy l.strategy))

/-- The table ids that are stored. -/
def readTableIds (l : Link) : Except Error (List String) :=
  readListColumn "data_links" l.tableIds

end Link
end Linkage
