import Linkage.Json.Printer
import Linkage.Report
import Linkage.Text.Grid

/-!
# What a command prints

* `CommandResult`          what a command produced;
* `CommandResult.toJson`   as JSON, names in order, over several lines;
* `CommandResult.plain`    as text with grids.
-/

namespace Linkage

/-- What a command produced. -/
inductive CommandResult where
  | relations (report : RelationReport)
  | businesses (cluster : String) (ids : List String)
  | rebuilt (report : RebuildReport)
  | migrated (path : String)
  deriving DecidableEq

namespace CommandResult

def toJson : CommandResult → Json
  | relations r => r.toJson
  | rebuilt r => r.toJson
  | businesses c ids => .obj [("cluster_id", .str c), ("biz_ids", .texts ids)]
  | migrated p => .obj [("db_path", .str p), ("migrated", .bool true)]

def grid (header : List String) (rows : List (List String)) : List String :=
  (Text.Grid.lines ⟨header.map String.toList, rows.map (List.map String.toList)⟩).map String.ofList

def count (n : Nat) : String := Text.Decimal.text n

/-- The lines on a pass over the cluster relations. -/
def relationLines (r : RelationReport) : List String :=
  "Cluster relations reconciled" ::
    grid ["Desired", "Added", "Refreshed", "Deleted", "Lookup failures"]
      [[count r.desired, count r.added, count r.refreshed, count r.deleted,
        count r.lookupFailures]] ++
    ["Completed in " ++ count r.duration ++ " ms"]

def planRow (p : Plan) : List String :=
  [p.link, p.strategy.text, Text.Decimal.text p.dataId.toInt, Text.joined "\n" p.tableIds,
    Text.joined "\n" (p.sinks.map PlannedSink.text)]

/-- The first line on a batch. -/
def rebuildTitle (r : RebuildReport) : String :=
  let scope := r.scope.tenant ++ "/" ++ r.scope.name
  if r.dryRun then "Data-link rebuild plan for " ++ scope ++ " (dry run)"
  else "Data-link rebuild for " ++ scope

def rebuildLines (r : RebuildReport) : List String :=
  [rebuildTitle r,
    "Unlinked: " ++ count r.total ++ "  Rebuilt: " ++ count r.success ++ "  Skipped: " ++
      count r.skipped] ++
    (if r.reasons.entries = [] then [] else
      grid ["Skip reason", "Data-buses"] (r.reasons.entries.map fun e => [e.1.text, count e.2])) ++
    (if r.plans = [] then [] else
      grid ["Data link", "Strategy", "Data id", "Tables", "Sinks"] (r.plans.map planRow)) ++
    ["Completed in " ++ count r.duration ++ " ms"]

def lines : CommandResult → List String
  | relations r => relationLines r
  | rebuilt r => rebuildLines r
  | businesses c [] => ["No businesses related to " ++ c ++ "."]
  | businesses _ ids => ids
  | migrated p => ["Schema up to date: " ++ p]

def plain (r : CommandResult) : String := String.join (r.lines.map (· ++ "\n"))

def printed (json : Bool) (r : CommandResult) : String :=
  if json then r.toJson.canonical.indented ++ "\n" else r.plain

end CommandResult
end Linkage
