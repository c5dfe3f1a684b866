import Linkage.Json.Printer
import Linkage.Record
import Linkage.Store.Basic

/-!
# Snapshots of a store

A store between two runs is a text: each table with its rows, every row as the list of its columns,
and the last id that the table gave.

* `Columns`               the columns of a kind of row;
* `Store.snapshot`        the text of a store;
* `Store.ofSnapshot?`     the store of a text, if its rows can stand in one.
-/

namespace Linkage

/-- The columns of a kind of row. -/
structure Columns (α : Type) where
  names : List String
  write : α → List Json
  read : Record Json → Option α

namespace Columns

def space : Columns Space where
  names := ["type", "id", "code", "name"]
  write s := [.str s.type, .str s.id, .str s.code, .str s.name]
  read r := do
    return ⟨← r.required "type" Json.text?, ← r.required "id" Json.text?,
      ← r.required "code" Json.text?, ← r.required "name" Json.text?⟩

def resource : Columns Resource where
  names := ["space type", "space", "type", "target", "dimensions"]
  write r := [.str r.spaceType, .str r.spaceId, .str r.type, .option .str r.target,
    .str r.dimensions]
  read r := do
    return ⟨← r.required "space type" Json.text?, ← r.required "space" Json.text?,
      ← r.required "type" Json.text?, ← r.optional "target" Json.text?,
      ← r.required "dimensions" Json.text?⟩

def relation : Columns Relation where
  names := ["related", "business", "project", "cluster", "checked"]
  write r := [.str r.key.related, .str r.key.business, .str r.key.project, .str r.key.cluster,
    .int r.checked]
  read r := do
    return ⟨⟨← r.required "related" Json.text?, ← r.required "business" Json.text?,
      ← r.required "project" Json.text?, ← r.required "cluster" Json.text?⟩,
      ← r.required "checked" Json.int64?⟩

/-- The columns of a component, with those of its detail behind them. -/
def component {δ : Type} (detail : Columns δ) : Columns (Component δ) where
  names := ["tenant", "namespace", "name", "owner"] ++ detail.names
  write c := [.str c.scope.tenant, .str c.scope.name, .str c.name, .str c.owner] ++
    detail.write c.detail
  read r := do
    return ⟨⟨← r.required "tenant" Json.text?, ← r.required "namespace" Json.text?⟩,
      ← r.required "name" Json.text?, ← r.required "owner" Json.text?, ← detail.read r⟩

/-- The columns of what a data-bus says about itself. -/
def feed : Columns Feed where
  names := ["data id", "sinks"]
  write f := [.dataId f.dataId, .str f.sinkList]
  read r := do return ⟨← r.required "data id" Json.dataId?, ← r.required "sinks" Json.text?⟩

/-- The column for the result table of a sink. -/
def reference : Columns (Option String) where
  names := ["result table"]
  write s := [.option .str s]
  read r := r.optional "result table" Json.text?

/-- The column for the table id of a result table. -/
def tableId : Columns String where
  names := ["table id"]
  write s := [.str s]
  read r := r.required "table id" Json.text?

def link : Columns Link where
  names := ["tenant", "namespace", "name", "strategy", "data id", "tables", "created", "updated"]
  write l := [.str l.scope.tenant, .str l.scope.name, .str l.name, .str l.strategy,
    .dataId l.dataId, .str l.tableIds, .int l.created, .int l.updated]
  read r := do
    return {
      scope := ⟨← r.required "tenant" Json.text?, ← r.required "namespace" Json.text?⟩
      name := ← r.required "name" Json.text?
      strategy := ← r.required "strategy" Json.text?
      dataId := ← r.required "data id" Json.dataId?
      tableIds := ← r.required "tables" Json.text?
      created := ← r.required "created" Json.int64?
      updated := ← r.required "updated" Json.int64? }

/-- The columns of a data source. -/
def source : Columns DataSource where
  names := ["data id", "name", "etl config"]
  write s := [.dataId s.id, .str s.name, .str s.etlConfig]
  read r := do
    return ⟨← r.required "data id" Json.dataId?, ← r.required "name" Json.text?,
      ← r.required "etl config" Json.text?⟩

section
variable {α κ : Type} {key : α → Option κ}

/-- A row as the list of its columns, its id first. -/
def row (c : Columns α) (r : Row α) : Json := .arr (.int r.id :: c.write r.val)

/-- The row of a list of columns. -/
def row? (c : Columns α) (v : Json) : Option (Row α) := do
  let r ← Record.of? ("row" :: c.names) v
  return ⟨← r.required "row" Json.int64?, ← c.read r⟩

def table (c : Columns α) (t : Table key) : Json :=
  .obj [("last", .int t.last), ("rows", .arr (t.rows.map c.row))]

/-- The table that a value writes. -/
def table? [DecidableEq κ] (c : Columns α) (v : Json) : Option (Table key) := do
  let r ← Record.of? ["last", "rows"] v
  Table.ofRows? (← r.required "rows" (Json.list? c.row?)) (← r.required "last" Json.int64?)

end

end Columns

namespace SinkTables

/-- The tables of sinks as a value. -/
def toJson (s : SinkTables) : Json :=
  .obj (SinkKind.all.map fun k => (k.text, (Columns.component .reference).table (s.get k)))

/-- The tables of sinks that a value writes. -/
def ofJson? (v : Json) : Option SinkTables := do
  let r ← Record.of? (SinkKind.all.map SinkKind.text) v
  let table (k : SinkKind) := r.required k.text (Columns.component .reference).table?
  return ⟨← table .vm, ← table .elastic, ← table .doris, ← table .conditional⟩

end SinkTables

namespace Store

def toJson (s : Store) : Json :=
  .obj [("spaces", Columns.space.table s.spaces), ("resources", Columns.resource.table s.resources),
    ("relations", Columns.relation.table s.relations),
    ("sources", .arr (s.sources.map fun d => .arr (Columns.source.write d))),
    ("buses", (Columns.component .feed).table s.buses), ("sinks", s.sinks.toJson),
    ("result tables", (Columns.component .tableId).table s.resultTables),
    ("links", Columns.link.table s.links)]

/-- The store that a value writes. -/
def ofJson? (v : Json) : Option Store := do
  let r ← Record.of? ["spaces", "resources", "relations", "sources", "buses", "sinks",
    "result tables", "links"] v
  let source (v : Json) : Option DataSource := do
    Columns.source.read (← Record.of? Columns.source.names v)
  return {
    spaces := ← r.required "spaces" Columns.space.table?
    resources := ← r.required "resources" Columns.resource.table?
    relations := ← r.required "relations" Columns.relation.table?
    sources := ← r.required "sources" (Json.list? source)
    buses := ← r.required "buses" (Columns.component .feed).table?
    sinks := ← r.required "sinks" SinkTables.ofJson?
    resultTables := ← r.required "result tables" (Columns.component .tableId).table?
    links := ← r.required "links" Columns.link.table? }

def snapshot (s : Store) : String := s.toJson.compact

def ofSnapshot? (s : String) : Option Store := (Json.parse? s).bind ofJson?

end Store
end Linkage
