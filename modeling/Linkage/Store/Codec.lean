import Linkage.Record
import Linkage.Store.Basic

/-!
# Rows as values

Each kind of row has a written form with its columns by name.  A data-bus and the key of a relation
are also read.
-/

namespace Linkage

/-- The members of a row: its id first. -/
def rowMembers {α : Type} (members : α → List (String × Json)) (r : Row α) : Json :=
  .obj (("id", .int r.id) :: members r.val)

namespace RelationKey

def members (k : RelationKey) : List (String × Json) :=
  [("related_bk_biz_id", .str k.related), ("bk_biz_id", .str k.business),
    ("project_id", .str k.project), ("cluster_id", .str k.cluster)]

/-- The key that a value writes. -/
def ofJson? (v : Json) : Option RelationKey := do
  let r ← Record.of? ["related_bk_biz_id", "bk_biz_id", "project_id", "cluster_id"] v
  return {
    related := ← r.required "related_bk_biz_id" Json.text?
    business := ← r.required "bk_biz_id" Json.text?
    project := ← r.required "project_id" Json.text?
    cluster := ← r.required "cluster_id" Json.text? }

end RelationKey

/-- A row of the table of spaces. -/
def spaceRow : Row Space → Json :=
  rowMembers fun s =>
    [("space_type_id", .str s.type), ("space_id", .str s.id), ("space_code", .str s.code),
      ("space_name", .str s.name)]

/-- A row of the table of resources. -/
def resourceRow : Row Resource → Json :=
  rowMembers fun r =>
    [("space_type_id", .str r.spaceType), ("space_id", .str r.spaceId),
      ("resource_type", .str r.type), ("resource_id", .option .str r.target),
      ("dimension_values", .str r.dimensions)]

/-- A row of the table of relations. -/
def relationRow : Row Relation → Json :=
  rowMembers fun r => r.key.members ++ [("last_check_time", .int r.checked)]

def DataSource.toJson (s : DataSource) : Json :=
  .obj [("bk_data_id", .dataId s.id), ("data_name", .str s.name), ("etl_config", .str s.etlConfig)]

/-- A row of the table of data-buses. -/
def busRow : Row Bus → Json :=
  rowMembers fun b =>
    [("bk_tenant_id", .str b.scope.tenant), ("namespace", .str b.scope.name), ("name", .str b.name),
      ("data_link_name", .str b.owner), ("bk_data_id", .dataId b.detail.dataId),
      ("sink_names", .str b.detail.sinkList)]

/-- The row of a data-bus that a value writes. -/
def busRow? (v : Json) : Option (Row Bus) := do
  let r ← Record.of? ["id", "bk_tenant_id", "namespace", "name", "data_link_name", "bk_data_id",
    "sink_names"] v
  return ⟨← r.required "id" Json.int64?, {
    scope := ⟨← r.required "bk_tenant_id" Json.text?, ← r.required "namespace" Json.text?⟩
    name := ← r.required "name" Json.text?
    owner := ← r.required "data_link_name" Json.text?
    detail := ⟨← r.required "bk_data_id" Json.dataId?, ← r.required "sink_names" Json.text?⟩ }⟩

/-- A row of the table of a kind of sink. -/
def sinkRow (k : SinkKind) : Row Sink → Json :=
  rowMembers fun s =>
    [("kind", .str k.text), ("name", .str s.name), ("data_link_name", .str s.owner),
      ("bkbase_result_table_name", .option .str s.detail)]

/-- A row of the table of result tables. -/
def resultTableRow : Row ResultTable → Json :=
  rowMembers fun t =>
    [("bk_tenant_id", .str t.scope.tenant), ("namespace", .str t.scope.name), ("name", .str t.name),
      ("table_id", .str t.detail), ("data_link_name", .str t.owner)]

/-- A row of the table of links. -/
def linkRow : Row Link → Json :=
  rowMembers fun l =>
    [("bk_tenant_id", .str l.scope.tenant), ("namespace", .str l.scope.name),
      ("data_link_name", .str l.name), ("data_link_strategy", .str l.strategy),
      ("bk_data_id", .dataId l.dataId), ("table_ids", .str l.tableIds),
      ("created_at", .int l.created), ("updated_at", .int l.updated)]

end Linkage
