import Linkage.Event.Basic
import Linkage.Text.Quoted

/-!
# The log of a run

* `LogRecord`        a level and the fields of a record, its message first;
* `Event.record`     the record of an event that comes with a level, a source and a correlation;
* `Note.record`      the record of a finding that is no event;
* `Tally.observe`    the counts of warnings and ownership conflicts after one more event.

Only the record of a skipped data-bus follows the level that comes with the event: it is an error at
that level and a warning at any other.
-/

namespace Linkage

/-- A value in a record. -/
inductive LogValue where
  | text (s : String)
  | count (n : Nat)
  | int (i : Int)
  | flag (b : Bool)
  deriving DecidableEq

structure LogRecord where
  level : Level
  fields : List (String × LogValue)
  deriving DecidableEq

/-- A value in a record as JSON. -/
def LogValue.toJson : LogValue → Json
  | text s => .str s
  | count n => .nat n
  | int i => .int i
  | flag b => .bool b

/-- A record as JSON, its fields as pairs. -/
def LogRecord.toJson (r : LogRecord) : Json :=
  .obj [("level", .str r.level.label),
    ("fields", .arr (r.fields.map fun f => .arr [.str f.1, f.2.toJson]))]

/-- A value in a line of the log. -/
def LogValue.chars : LogValue → List Char
  | text s => s.toList
  | count n => Text.Decimal.nat n
  | int i => Text.Decimal.int i
  | flag b => (if b then "true" else "false").toList

/-- A record as a line: its level, its message and its other fields. -/
def LogRecord.line (r : LogRecord) : String :=
  let field (f : String × LogValue) : List Char :=
    if f.1 = "message" then f.2.chars else f.1.toList ++ '=' :: f.2.chars
  String.ofList (Text.joinWith [' '] (r.level.label.toList :: r.fields.map field))

/-- What comes with an event that is logged. -/
structure Envelope where
  level : Level
  source : Source
  correlation : Option String
  deriving DecidableEq

/-- The envelope an event gets when it is sent. -/
def Event.envelope (e : Event) (correlation : Option String) : Envelope :=
  ⟨e.level, e.source, correlation⟩

/-- The record of an event of a reconciler. -/
def Envelope.record (v : Envelope) (level : Level) (message : String)
    (fields : List (String × LogValue)) : LogRecord :=
  ⟨level, ("message", .text message) :: ("source", .text v.source.text) ::
    ("correlation", .text (Text.quotedOption v.correlation)) :: fields⟩

/-- The record of a command's progress, which has no correlation. -/
def Envelope.progress (v : Envelope) (level : Level) (message : String)
    (fields : List (String × LogValue)) : LogRecord :=
  ⟨level, ("message", .text message) :: ("source", .text v.source.text) :: fields⟩

/-- The record of an event of a command. -/
def GeneralEvent.record (v : Envelope) : GeneralEvent → LogRecord
  | warning m c => v.record .warn "Warning" [("message", .text m), ("context", .text c)]
  | started o => v.progress .info "Operation started" [("operation", .text o)]
  | completed o s =>
    v.progress .info "Operation completed" [("operation", .text o), ("success", .flag s)]
  | failed o e => v.progress .error "Operation failed" [("operation", .text o), ("error", .text e)]

/-- The record of an event of a pass over the cluster relations. -/
def ClusterEvent.record (v : Envelope) : ClusterEvent → LogRecord
  | started p o =>
    v.record .info "Cluster reconcile started" [("projects", .count p), ("overrides", .count o)]
  | lookupFailed p u n e =>
    v.record .warn "Container space lookup failed"
      [("project_code", .text p), ("space_uid", .text u), ("not_found", .flag n),
        ("error", .text e)]
  | completed r =>
    v.record .info "Cluster reconcile completed"
      [("desired", .count r.desired), ("added", .count r.added), ("refreshed", .count r.refreshed),
        ("deleted", .count r.deleted), ("lookup_failures", .count r.lookupFailures),
        ("duration_ms", .count r.duration)]

/-- The record of an event of a batch over the data-buses. -/
def LinkEvent.record (v : Envelope) : LinkEvent → LogRecord
  | started s t d =>
    v.record .info "Data-link rebuild started"
      [("bk_tenant_id", .text s.tenant), ("namespace", .text s.name), ("total", .count t),
        ("dry_run", .flag d)]
  | linked b l s ts c =>
    v.record .info "Data-bus linked"
      [("databus", .text b), ("data_link_name", .text l), ("strategy", .text s.text),
        ("table_ids", .text (Text.quotedList ts)), ("created", .flag c)]
  | planned b l s =>
    v.record .debug "Data-bus planned"
      [("databus", .text b), ("data_link_name", .text l), ("strategy", .text s.text)]
  | skipped b r d =>
    v.record (if v.level = .error then .error else .warn) "Data-bus skipped"
      [("databus", .text b), ("reason", .text r.text), ("detail", .text d)]
  | completed r =>
    v.record .info "Data-link rebuild completed"
      [("bk_tenant_id", .text r.scope.tenant), ("namespace", .text r.scope.name),
        ("total", .count r.total), ("success", .count r.success), ("skipped", .count r.skipped),
        ("dry_run", .flag r.dryRun), ("duration_ms", .count r.duration)]

def Event.record (v : Envelope) : Event → LogRecord
  | general e => e.record v
  | cluster e => e.record v
  | link e => e.record v

/-- A finding on the way that is no event. -/
inductive Note where
  | overrideIgnored (item : String)
  | clusterSkipped (project cluster : String)
  | businessReplaced (project previous : String)
  | spaceResolved (uid : String) (business : Int)
  deriving DecidableEq

def Note.record : Note → LogRecord
  | overrideIgnored i =>
    ⟨.debug, [("message", .text "ignoring malformed cluster biz override"), ("pair", .text i)]⟩
  | clusterSkipped p c =>
    ⟨.debug, [("message", .text "no project id or related business, cluster skipped"),
      ("project_code", .text p), ("cluster_id", .text c)]⟩
  | businessReplaced p b =>
    ⟨.debug, [("message", .text "project bound to several businesses, keeping the latest"),
      ("project_code", .text p), ("previous", .text b)]⟩
  | spaceResolved u b =>
    ⟨.debug, [("message", .text "resolved space from store"), ("space_uid", .text u),
      ("bk_biz_id", .int b)]⟩

/-- What was counted while events were handled. -/
structure Tally where
  warnings : Nat
  conflicts : Nat
  deriving DecidableEq

namespace Tally

def zero : Tally := ⟨0, 0⟩

/-- Whether an event tells of an ownership conflict. -/
def isConflict : Event → Bool
  | .link (.skipped _ reason _) => reason.isConflict
  | _ => false

/-- The counts after one more event; a conflict is no warning. -/
def observe (t : Tally) (e : Event) : Tally where
  warnings := if e.level = .warn then t.warnings + 1 else t.warnings
  conflicts := if isConflict e then t.conflicts + 1 else t.conflicts

/-- The counts after a list of events. -/
def observeAll (t : Tally) (es : List Event) : Tally := es.foldl observe t

end Tally
end Linkage
