import Linkage.Event.Basic
import Linkage.Event.Id
import Linkage.Event.Instant

/-!
# Events as JSON

An event is an object with its domain and, under `event`, an object whose member `type` names the
variant beside the variant's own members.  Both may also be written as arrays of their members.  The
members of a variant are held until its name is known.

* `Event.toJson`, `Event.ofJson?`   an event;
* `EventMessage`                    an event with its id, time, level, source and correlation.
-/

namespace Linkage

/-- The level that a value names. -/
def Level.ofJson? : Json → Option Level := Json.constant? false ofText?

def Json.variant (type : String) (es : List (String × Json)) : Json :=
  .obj (("type", .str type) :: es)

/-- The name of a variant and a value with its members. -/
def Json.variant? : Json → Option (String × Json)
  | .obj es => (Json.last? "type" es).bind fun t => t.text?.map (·, .obj es)
  | .arr (t :: xs) => t.text?.map (·, .arr xs)
  | _ => none

def GeneralEvent.toJson : GeneralEvent → Json
  | warning m c => .variant "Warning" [("message", .str m), ("context", .str c)]
  | started o => .variant "OperationStarted" [("operation", .str o)]
  | completed o s => .variant "OperationCompleted" [("operation", .str o), ("success", .bool s)]
  | failed o e => .variant "OperationFailed" [("operation", .str o), ("error", .str e)]

/-- The event that a value writes. -/
def GeneralEvent.ofJson? (v : Json) : Option GeneralEvent := do
  let (type, v) ← v.variant?
  match type with
  | "Warning" =>
    let r ← Record.of? ["message", "context"] v
    return warning (← r.required "message" Json.text?) (← r.required "context" Json.text?)
  | "OperationStarted" =>
    let r ← Record.of? ["operation"] v
    return started (← r.required "operation" Json.text?)
  | "OperationCompleted" =>
    let r ← Record.of? ["operation", "success"] v
    return completed (← r.required "operation" Json.text?) (← r.required "success" Json.bool?)
  | "OperationFailed" =>
    let r ← Record.of? ["operation", "error"] v
    return failed (← r.required "operation" Json.text?) (← r.required "error" Json.text?)
  | _ => none

def ClusterEvent.toJson : ClusterEvent → Json
  | started p o => .variant "ReconcileStarted" [("projects", .nat p), ("overrides", .nat o)]
  | lookupFailed p u n e =>
    .variant "SpaceLookupFailed"
      [("project_code", .str p), ("space_uid", .str u), ("not_found", .bool n), ("error", .str e)]
  | completed r => .variant "ReconcileCompleted" [("report", r.toJson)]

/-- The event that a value writes. -/
def ClusterEvent.ofJson? (v : Json) : Option ClusterEvent := do
  let (type, v) ← v.variant?
  match type with
  | "ReconcileStarted" =>
    let r ← Record.of? ["projects", "overrides"] v
    return started (← r.required "projects" Json.nat?) (← r.required "overrides" Json.nat?)
  | "SpaceLookupFailed" =>
    let r ← Record.of? ["project_code", "space_uid", "not_found", "error"] v
    return lookupFailed (← r.required "project_code" Json.text?)
      (← r.required "space_uid" Json.text?) (← r.required "not_found" Json.bool?)
      (← r.required "error" Json.text?)
  | "ReconcileCompleted" =>
    let r ← Record.of? ["report"] v
    return completed (← r.required "report" RelationReport.ofJson?)
  | _ => none

def LinkEvent.toJson : LinkEvent → Json
  | started s t d =>
    .variant "RebuildStarted"
      [("bk_tenant_id", .str s.tenant), ("namespace", .str s.name), ("total", .nat t),
        ("dry_run", .bool d)]
  | linked b l s ts c =>
    .variant "Linked"
      [("databus", .str b), ("data_link_name", .str l), ("strategy", .str s.text),
        ("table_ids", .texts ts), ("created", .bool c)]
  | planned b l s =>
    .variant "Planned" [("databus", .str b), ("data_link_name", .str l), ("strategy", .str s.text)]
  | skipped b r d =>
    .variant "Skipped" [("databus", .str b), ("reason", .str r.text), ("detail", .str d)]
  | completed r => .variant "RebuildCompleted" [("report", r.toJson)]

/-- The event that a value writes. -/
def LinkEvent.ofJson? (v : Json) : Option LinkEvent := do
  let (type, v) ← v.variant?
  match type with
  | "RebuildStarted" =>
    let r ← Record.of? ["bk_tenant_id", "namespace", "total", "dry_run"] v
    return started ⟨← r.required "bk_tenant_id" Json.text?, ← r.required "namespace" Json.text?⟩
      (← r.required "total" Json.nat?) (← r.required "dry_run" Json.bool?)
  | "Linked" =>
    let r ← Record.of? ["databus", "data_link_name", "strategy", "table_ids", "created"] v
    return linked (← r.required "databus" Json.text?) (← r.required "data_link_name" Json.text?)
      (← r.required "strategy" (Json.constant? true Strategy.ofText?))
      (← r.required "table_ids" (Json.list? Json.text?)) (← r.required "created" Json.bool?)
  | "Planned" =>
    let r ← Record.of? ["databus", "data_link_name", "strategy"] v
    return planned (← r.required "databus" Json.text?) (← r.required "data_link_name" Json.text?)
      (← r.required "strategy" (Json.constant? true Strategy.ofText?))
  | "Skipped" =>
    let r ← Record.of? ["databus", "reason", "detail"] v
    return skipped (← r.required "databus" Json.text?)
      (← r.required "reason" (SkipReason.read? true))
      (← r.required "detail" Json.text?)
  | "RebuildCompleted" =>
    let r ← Record.of? ["report"] v
    return completed (← r.required "report" (RebuildReport.read? true))
  | _ => none

namespace Event

def tagged (domain : String) (event : Json) : Json :=
  .obj [("domain", .str domain), ("event", event)]

def toJson : Event → Json
  | general e => tagged "general" e.toJson
  | cluster e => tagged "cluster" e.toJson
  | link e => tagged "data_link" e.toJson

/-- The event that a value writes. -/
def ofJson? (v : Json) : Option Event := do
  let r ← Record.of? ["domain", "event"] v
  match ← r.required "domain" (Json.constant? false some) with
  | "general" => return general (← r.required "event" GeneralEvent.ofJson?)
  | "cluster" => return cluster (← r.required "event" ClusterEvent.ofJson?)
  | "data_link" => return link (← r.required "event" LinkEvent.ofJson?)
  | _ => none

end Event

/-- What is known about an event beside itself. -/
structure EventMeta where
  id : EventId
  correlation : Option String
  time : Instant
  level : Level
  source : Source
  deriving DecidableEq

/-- An event with what is known about it. -/
structure EventMessage where
  about : EventMeta
  event : Event
  deriving DecidableEq

namespace EventMeta

/-- The members of a written envelope. -/
def names : List String := ["event_id", "correlation_id", "timestamp", "level", "source"]

def toJson (m : EventMeta) : Json :=
  .obj (names.zip
    [.str m.id.text, .option .str m.correlation, .str m.time.text, .str m.level.text,
      .str m.source.text])

/-- The envelope that a value writes. -/
def ofJson? (v : Json) : Option EventMeta := do
  let r ← Record.of? names v
  return {
    id := ← r.required "event_id" fun v => v.text?.bind EventId.ofText?
    correlation := ← r.optional "correlation_id" Json.text?
    time := ← r.required "timestamp" fun v => v.text?.bind Instant.ofText?
    level := ← r.required "level" Level.ofJson?
    source := ← r.required "source" (Json.constant? false Source.ofText?) }

end EventMeta

namespace EventMessage

def toJson (m : EventMessage) : Json :=
  .obj [("meta", m.about.toJson), ("event", m.event.toJson)]

/-- The message that a value writes. -/
def ofJson? (v : Json) : Option EventMessage := do
  let r ← Record.of? ["meta", "event"] v
  return {
    about := ← r.required "meta" EventMeta.ofJson?
    event := ← r.required "event" Event.ofJson? }

end EventMessage
end Linkage
