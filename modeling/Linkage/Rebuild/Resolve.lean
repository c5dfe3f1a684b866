import Linkage.Store.Links

/-!
# What a data-bus resolves to

The sinks that a data-bus lists must exist and be unowned, and so must the result tables that its
storage bindings refer to; the kinds of its sinks, or else its data source, give the strategy.

* `SinkGroup.ofEntries`   the entries of a list by kind, kinds in the order of their first entry;
* `Skip`                  the first check that fails, with the names it failed on;
* `Query.resolve`         the checks in their order.
-/

namespace Linkage

/-- Why a data-bus is left alone, and the names that were in the way. -/
structure Skip where
  reason : SkipReason
  detail : String
  deriving DecidableEq

/-- The names of the sinks of a kind. -/
structure SinkGroup where
  kind : SinkKind
  names : List String
  deriving DecidableEq

/-- A sink that a data-bus lists. -/
structure ListedSink where
  kind : SinkKind
  row : Row Sink
  deriving DecidableEq

/-- All that a data-bus resolves to. -/
structure Resolution where
  link : String
  strategy : Strategy
  sinks : List ListedSink
  tables : List (Row ResultTable)
  deriving DecidableEq

namespace ListedSink

/-- The entry of the sink list. -/
def text (s : ListedSink) : String := s.kind.text ++ ":" ++ s.row.val.name

end ListedSink

namespace SinkGroup

/-- The groups by the text of their kind with one more entry. -/
def addEntry (e : SinkEntry) : List (String × List String) → List (String × List String)
  | [] => [(e.kind, [e.name])]
  | (k, names) :: gs => if k = e.kind then (k, names ++ [e.name]) :: gs else (k, names) :: addEntry e gs

/-- The names by the text of their kind; an entry without a colon stops. -/
def collect (gs : List (String × List String)) :
    List String → Except Skip (List (String × List String))
  | [] => .ok gs
  | s :: ss => match SinkEntry.ofText? s with
    | none => .error ⟨.malformedSinkEntry, s⟩
    | some e => collect (addEntry e gs) ss

/-- The groups with their kinds; an unknown kind stops. -/
def known : List (String × List String) → Except Skip (List SinkGroup)
  | [] => .ok []
  | (k, names) :: gs => match SinkKind.ofText? k with
    | none => .error ⟨.unknownSinkKind, k⟩
    | some kind => (known gs).map (⟨kind, names⟩ :: ·)

/-- The groups of a list of entries. -/
def ofEntries (entries : List String) : Except Skip (List SinkGroup) :=
  match collect [] entries with
  | .ok gs => known gs
  | .error s => .error s

/-- The groups of the sink list of a data-bus. -/
def ofBus (b : Bus) : Except Skip (List SinkGroup) :=
  match b.sinkEntries with
  | .ok entries => ofEntries entries
  | .error e => .error ⟨.malformedSinkEntry, e.message⟩

end SinkGroup

def rowOf? {δ : Type} (rows : List (Row (Component δ))) (name : String) :
    Option (Row (Component δ)) :=
  rows.find? fun r => r.val.name = name

/-- The names that have no row. -/
def missing {δ : Type} (rows : List (Row (Component δ))) (names : List String) : List String :=
  names.filter fun n => (rowOf? rows n).isNone

/-- The names of result tables that sinks refer to, each once, in the order of the first reference;
an empty one stops. -/
def tableNames (seen : List String) : List ListedSink → Except Skip (List String)
  | [] => .ok seen
  | s :: ss => match s.row.val.detail with
    | none => tableNames seen ss
    | some t =>
      if t = "" then .error ⟨.emptyTableReference, s.text⟩
      else if seen.contains t then tableNames seen ss
      else tableNames (seen ++ [t]) ss

namespace Resolution

/-- The table ids of the link: those of its result tables that have one. -/
def tableIds (r : Resolution) : List String :=
  (r.tables.map (·.val.detail)).filter fun t => t ≠ ""

def plan (r : Resolution) (b : Bus) : Plan where
  link := r.link
  strategy := r.strategy
  dataId := b.detail.dataId
  tableIds := r.tableIds
  sinks := r.sinks.map fun s => ⟨s.kind, s.row.val.name⟩
  tables := r.tables.map fun t => ⟨t.val.name, t.val.detail⟩

def commit (r : Resolution) (b : Row Bus) : LinkCommit where
  draft := {
    scope := b.val.scope
    name := r.link
    strategy := r.strategy
    dataId := b.val.detail.dataId
    tableIds := r.tableIds }
  busId := b.id
  sinkIds := r.sinks.foldl (fun d s => d.update s.kind [] (· ++ [s.row.id])) .empty
  tableRowIds := r.tables.map (·.id)

end Resolution

namespace Query

/-- A query that may leave the data-bus alone. -/
abbrev Check (α : Type) := Query (Except Skip α)

/-- One check after the other, the second only if the first finds nothing in the way. -/
def andThen {α β : Type} (c : Check α) (f : α → Check β) : Check β :=
  c.bind fun
    | .ok a => f a
    | .error s => pure (.error s)

/-- The sinks of a group, in the order of the names. -/
def groupSinks (scope : Scope) (g : SinkGroup) : Check (List ListedSink) :=
  (skipIf (g.names = []) [] (transaction (sinks g.kind scope g.names))).bind fun rows =>
    pure <|
      if missing rows g.names = [] then
        .ok ((g.names.filterMap (rowOf? rows)).map fun r => ⟨g.kind, r⟩)
      else .error ⟨.missingComponent,
        g.kind.text ++ ": " ++ Text.joined ", " (missing rows g.names)⟩

def allSinks (scope : Scope) : List SinkGroup → Check (List ListedSink)
  | [] => pure (.ok [])
  | g :: gs => andThen (groupSinks scope g) fun ss =>
    andThen (allSinks scope gs) fun rest => pure (.ok (ss ++ rest))

/-- No sink may have an owner. -/
def unownedSinks (ss : List ListedSink) : Except Skip Unit :=
  match ss.find? fun s => s.row.val.isOwned with
  | some s => .error ⟨.componentConflict, s.text ++ " owned by " ++ s.row.val.owner⟩
  | none => .ok ()

/-- The result tables of the names, in their order; all must exist and be unowned. -/
def ownableTables (scope : Scope) (names : List String) : Check (List (Row ResultTable)) :=
  (skipIf (names = []) [] (transaction (resultTables scope names))).bind fun rows =>
    pure <|
      if missing rows names = [] then
        let tables := names.filterMap (rowOf? rows)
        match tables.find? fun t => t.val.isOwned with
        | some t => .error ⟨.resultTableConflict, t.val.name ++ " owned by " ++ t.val.owner⟩
        | none => .ok tables
      else .error ⟨.missingResultTable, Text.joined ", " (missing rows names)⟩

/-- The strategy: a log where both Elasticsearch and Doris bindings are listed, else what the data
source says. -/
def strategyOf (b : Bus) (gs : List SinkGroup) : Check Strategy :=
  let has (k : SinkKind) : Bool := gs.any fun g => g.kind = k
  if has .elastic && has .doris then pure (.ok .log)
  else (transaction (source? b.detail.dataId)).bind fun
    | none => pure (.error ⟨.missingDataSource, "bk_data_id " ++ Text.Decimal.text b.detail.dataId.toInt⟩)
    | some source => pure <| match Strategy.ofEtlConfig? source.etlConfig with
      | some t => .ok t
      | none => .error ⟨.unmappedEtlConfig, "etl_config " ++ source.etlConfig⟩

/-- All that a data-bus resolves to, or the first check that fails. -/
def resolve (b : Bus) : Check Resolution :=
  andThen (pure (SinkGroup.ofBus b)) fun groups =>
    andThen (allSinks b.scope groups) fun ss =>
      andThen (pure (unownedSinks ss)) fun _ =>
        andThen (pure (tableNames [] ss)) fun names =>
          andThen (ownableTables b.scope names) fun tables =>
            andThen (strategyOf b groups) fun strategy =>
              pure (.ok ⟨b.scope.linkName b.name, strategy, ss, tables⟩)

end Query
end Linkage
