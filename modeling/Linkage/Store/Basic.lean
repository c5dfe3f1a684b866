import Linkage.Store.Rows

/-!
# The metadata store

* `Store`              all tables;
* `SinkTables`         the table of each kind of sink;
* `TableName`          the tables whose row operations can be refused.
-/

namespace Linkage

/-- The table of each kind of sink. -/
structure SinkTables where
  vm : Table (Component.key (δ := Option String))
  elastic : Table (Component.key (δ := Option String))
  doris : Table (Component.key (δ := Option String))
  conditional : Table (Component.key (δ := Option String))

namespace SinkTables

def get (s : SinkTables) : SinkKind → Table (Component.key (δ := Option String))
  | .vm => s.vm
  | .elastic => s.elastic
  | .doris => s.doris
  | .conditional => s.conditional

/-- The tables with another one for a kind. -/
def set (s : SinkTables) (k : SinkKind) (t : Table (Component.key (δ := Option String))) :
    SinkTables :=
  match k with
  | .vm => { s with vm := t }
  | .elastic => { s with elastic := t }
  | .doris => { s with doris := t }
  | .conditional => { s with conditional := t }

def empty : SinkTables := ⟨.empty, .empty, .empty, .empty⟩

theorem get_set (s : SinkTables) (k j : SinkKind)
    (t : Table (Component.key (δ := Option String))) :
    (s.set k t).get j = if j = k then t else s.get j := by
  cases k <;> cases j <;> rfl

end SinkTables

structure Store where
  spaces : Table Space.key
  resources : Table Resource.key
  relations : Table Relation.noKey
  sources : List DataSource
  buses : Table (Component.key (δ := Feed))
  sinks : SinkTables
  resultTables : Table (Component.key (δ := String))
  links : Table Link.key

namespace Store

def empty : Store := ⟨.empty, .empty, .empty, [], .empty, .empty, .empty, .empty⟩

end Store

/-- The tables whose row operations can be refused. -/
inductive TableName where
  | buses
  | sinks (k : SinkKind)
  | resultTables
  | relations
  | links
  deriving DecidableEq

/-- What can happen to a row. -/
inductive RowEvent where
  | insert
  | update
  | delete
  deriving DecidableEq

/-- The name of the table of a kind of sink. -/
def SinkKind.table : SinkKind → String
  | vm => "vm_storage_bindings"
  | elastic => "es_storage_bindings"
  | doris => "doris_storage_bindings"
  | conditional => "conditional_sinks"

namespace TableName

/-- The tables of components, in the order in which they are listed. -/
def components : List TableName := .buses :: SinkKind.all.map .sinks ++ [.resultTables]

def all : List TableName := components ++ [.relations, .links]

def text : TableName → String
  | buses => "databus_configs"
  | sinks k => k.table
  | resultTables => "result_table_configs"
  | relations => "cluster_relations"
  | links => "data_links"

/-- The table with a written name. -/
def ofText? (s : String) : Option TableName := all.find? fun t => t.text = s

end TableName

namespace RowEvent

def text : RowEvent → String
  | insert => "INSERT"
  | update => "UPDATE"
  | delete => "DELETE"

/-- The event with a written name. -/
def ofText? (s : String) : Option RowEvent := [insert, update, delete].find? fun e => e.text = s

end RowEvent
end Linkage
