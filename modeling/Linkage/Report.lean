import Linkage.Record
import Linkage.Scope
import Linkage.Sink
import Linkage.Strategy

/-!
# Reports

* `SkipReason`       why a data-bus was left without a link, in the order of the checks;
* `RelationReport`   the outcome of one pass over the cluster relations;
* `Plan`             what linking a data-bus would write;
* `RebuildReport`    the outcome of one batch over the data-buses.

Every report is written as a JSON object and read back from it, on its own or held in an event.
-/

namespace Linkage

open Std

/-- Why a data-bus was left without a link. -/
inductive SkipReason where
  | malformedSinkEntry
  | unknownSinkKind
  | missingComponent
  | componentConflict
  | emptyTableReference
  | missingResultTable
  | resultTableConflict
  | missingDataSource
  | unmappedEtlConfig
  deriving DecidableEq

namespace SkipReason

/-- All reasons in the order of the checks. -/
def all : List SkipReason :=
  [malformedSinkEntry, unknownSinkKind, missingComponent, componentConflict, emptyTableReference,
    missingResultTable, resultTableConflict, missingDataSource, unmappedEtlConfig]

/-- The place of a reason in the order. -/
def rank : SkipReason → Nat
  | malformedSinkEntry => 0
  | unknownSinkKind => 1
  | missingComponent => 2
  | componentConflict => 3
  | emptyTableReference => 4
  | missingResultTable => 5
  | resultTableConflict => 6
  | missingDataSource => 7
  | unmappedEtlConfig => 8

def text : SkipReason → String
  | malformedSinkEntry => "malformed_sink_entry"
  | unknownSinkKind => "unknown_sink_kind"
  | missingComponent => "missing_component"
  | componentConflict => "component_conflict"
  | emptyTableReference => "empty_result_table_ref"
  | missingResultTable => "missing_result_table"
  | resultTableConflict => "result_table_conflict"
  | missingDataSource => "missing_data_source"
  | unmappedEtlConfig => "unmapped_etl_config"

/-- The reason with a written name. -/
def ofText? (s : String) : Option SkipReason := all.find? fun r => r.text = s

/-- The reason that a value names. -/
def read? (held : Bool) : Json → Option SkipReason := Json.constant? held ofText?

def ofJson? : Json → Option SkipReason := read? false

/-- A component or table that belongs to another link. -/
def isConflict : SkipReason → Bool
  | componentConflict | resultTableConflict => true
  | _ => false

theorem rank_injective {a b : SkipReason} (h : a.rank = b.rank) : a = b := by
  cases a <;> cases b <;> simp [rank] at h ⊢

theorem ofText?_text (r : SkipReason) : ofText? r.text = some r := by cases r <;> decide

instance : Ord SkipReason := ⟨compareOn rank⟩

instance : TransOrd SkipReason := inferInstanceAs (TransCmp (compareOn rank))

instance : LawfulEqOrd SkipReason := ⟨fun {a b} h => by
  have h : compare a.rank b.rank = .eq := h
  exact rank_injective (Std.compare_eq_iff_eq.1 h)⟩

end SkipReason

/-- The id of a data source. -/
abbrev DataId := Int64

/-- The data id that a value is. -/
def Json.dataId? (v : Json) : Option DataId := v.int64?.map Int64.ofInt

/-- The value of a data id. -/
def Json.dataId (i : DataId) : Json := .int i.toInt

theorem Json.dataId?_dataId (i : DataId) : (Json.dataId i).dataId? = some i := by
  have h1 := Int64.toInt_lt i
  have h2 := Int64.le_toInt i
  rw [Json.dataId?, Json.dataId, Json.int64?_int]
  · simp
  · simp only [Text.Decimal.int64Min, Text.Decimal.int64Max]
    omega

/-- The outcome of one pass over the cluster relations. -/
structure RelationReport where
  desired : Nat
  added : Nat
  refreshed : Nat
  deleted : Nat
  lookupFailures : Nat
  duration : Nat
  deriving DecidableEq

namespace RelationReport

/-- The members of a written report. -/
def names : List String :=
  ["desired", "added", "refreshed", "deleted", "lookup_failures", "duration_ms"]

def toJson (r : RelationReport) : Json :=
  .obj (names.zip
    [.nat r.desired, .nat r.added, .nat r.refreshed, .nat r.deleted, .nat r.lookupFailures,
      .nat r.duration])

/-- The report that a value writes. -/
def ofJson? (v : Json) : Option RelationReport := do
  let r ← Record.of? names v
  return {
    desired := ← r.required "desired" Json.nat?
    added := ← r.required "added" Json.nat?
    refreshed := ← r.required "refreshed" Json.nat?
    deleted := ← r.required "deleted" Json.nat?
    lookupFailures := ← r.required "lookup_failures" Json.nat?
    duration := ← r.required "duration_ms" Json.nat? }

end RelationReport

structure PlannedSink where
  kind : SinkKind
  name : String
  deriving DecidableEq

/-- A result table of a plan. -/
structure PlannedTable where
  name : String
  tableId : String
  deriving DecidableEq

/-- What linking a data-bus would write. -/
structure Plan where
  link : String
  strategy : Strategy
  dataId : DataId
  tableIds : List String
  sinks : List PlannedSink
  tables : List PlannedTable
  deriving DecidableEq

/-- The entry that a sink list has for this sink. -/
def PlannedSink.text (s : PlannedSink) : String := s.kind.text ++ ":" ++ s.name

def PlannedSink.toJson (s : PlannedSink) : Json :=
  .obj [("kind", .str s.kind.text), ("name", .str s.name)]

/-- The sink that a value writes. -/
def PlannedSink.read? (held : Bool) (v : Json) : Option PlannedSink := do
  let r ← Record.of? ["kind", "name"] v
  return {
    kind := ← r.required "kind" (Json.constant? held SinkKind.ofText?)
    name := ← r.required "name" Json.text? }

def PlannedTable.toJson (t : PlannedTable) : Json :=
  .obj [("name", .str t.name), ("table_id", .str t.tableId)]

/-- The table that a value writes. -/
def PlannedTable.ofJson? (v : Json) : Option PlannedTable := do
  let r ← Record.of? ["name", "table_id"] v
  return {
    name := ← r.required "name" Json.text?
    tableId := ← r.required "table_id" Json.text? }

namespace Plan

/-- The members of a written plan. -/
def names : List String :=
  ["data_link_name", "strategy", "bk_data_id", "table_ids", "sinks", "result_tables"]

def toJson (p : Plan) : Json :=
  .obj (names.zip
    [.str p.link, .str p.strategy.text, .dataId p.dataId, .texts p.tableIds,
      .arr (p.sinks.map PlannedSink.toJson), .arr (p.tables.map PlannedTable.toJson)])

/-- The plan that a value writes. -/
def read? (held : Bool) (v : Json) : Option Plan := do
  let r ← Record.of? names v
  return {
    link := ← r.required "data_link_name" Json.text?
    strategy := ← r.required "strategy" (Json.constant? held Strategy.ofText?)
    dataId := ← r.required "bk_data_id" Json.dataId?
    tableIds := ← r.required "table_ids" (Json.list? Json.text?)
    sinks := ← r.required "sinks" (Json.list? (PlannedSink.read? held))
    tables := ← r.required "result_tables" (Json.list? PlannedTable.ofJson?) }

def ofJson? : Json → Option Plan := read? false

end Plan

/-- The outcome of one batch over the data-buses. -/
structure RebuildReport where
  scope : Scope
  dryRun : Bool
  total : Nat
  success : Nat
  skipped : Nat
  reasons : Dict SkipReason Nat
  plans : List Plan
  duration : Nat
  deriving DecidableEq

namespace RebuildReport

/-- The report before any data-bus is looked at. -/
def start (scope : Scope) (dryRun : Bool) : RebuildReport :=
  { scope, dryRun, total := 0, success := 0, skipped := 0, reasons := .empty, plans := [],
    duration := 0 }

/-- The report with one more data-bus left unlinked. -/
def skip (r : RebuildReport) (why : SkipReason) : RebuildReport :=
  { r with skipped := r.skipped + 1, reasons := r.reasons.update why 0 (· + 1) }

/-- The report with one more data-bus linked. -/
def link (r : RebuildReport) : RebuildReport := { r with success := r.success + 1 }

/-- The report with one more data-bus planned. -/
def plan (r : RebuildReport) (p : Plan) : RebuildReport :=
  { r with success := r.success + 1, plans := r.plans ++ [p] }

/-- The members of a written report; `plans` is left out when there are none. -/
def names : List String :=
  ["bk_tenant_id", "namespace", "dry_run", "total", "success", "skipped", "skip_reasons", "plans",
    "duration_ms"]

def toJson (r : RebuildReport) : Json :=
  .obj (
    [("bk_tenant_id", .str r.scope.tenant), ("namespace", .str r.scope.name),
      ("dry_run", .bool r.dryRun), ("total", .nat r.total), ("success", .nat r.success),
      ("skipped", .nat r.skipped),
      ("skip_reasons", .obj (r.reasons.entries.map fun e => (e.1.text, .nat e.2)))] ++
    (if r.plans = [] then [] else [("plans", .arr (r.plans.map Plan.toJson))]) ++
    [("duration_ms", .nat r.duration)])

/-- The counts by reason that a value writes; of a repeated reason the last count. -/
def reasons? (v : Json) : Option (Dict SkipReason Nat) := do
  let es ← v.object?
  let pairs ← es.mapM fun e => do return (← SkipReason.ofText? e.1, ← e.2.nat?)
  return Dict.ofList pairs

/-- The report that a value writes. -/
def read? (held : Bool) (v : Json) : Option RebuildReport := do
  let r ← Record.of? names v
  return {
    scope := ⟨← r.required "bk_tenant_id" Json.text?, ← r.required "namespace" Json.text?⟩
    dryRun := ← r.required "dry_run" Json.bool?
    total := ← r.required "total" Json.nat?
    success := ← r.required "success" Json.nat?
    skipped := ← r.required "skipped" Json.nat?
    reasons := ← r.required "skip_reasons" reasons?
    plans := ← r.defaulted "plans" [] (Json.list? (Plan.read? held))
    duration := ← r.required "duration_ms" Json.nat? }

def ofJson? : Json → Option RebuildReport := read? false

end RebuildReport
end Linkage
