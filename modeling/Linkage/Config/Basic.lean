import Linkage.Error
import Linkage.Json.Value
import Linkage.Overrides
import Linkage.Toml.Document

/-!
# Configuration

* `Config`             what can be configured, in four groups;
* `Config.initial`     the values of what is not configured;
* `Config.ofText?`     reads a configuration text; members it does not know are ignored;
* `Config.overrides`   the overrides of the table with those of the flat text on top.
-/

namespace Linkage

/-- How results are printed. -/
inductive OutputFormat where
  | plain
  | json
  deriving DecidableEq

def OutputFormat.text : OutputFormat → String
  | plain => "plain"
  | json => "json"

def OutputFormat.ofText? : String → Option OutputFormat
  | "plain" => some plain
  | "json" => some json
  | _ => none

/-- The metadata store. -/
structure DatabaseConfig where
  path : Option String
  maxConnections : Nat
  /-- in seconds -/
  busyTimeout : Nat
  deriving DecidableEq

/-- The space API; without a URL spaces are looked up in the store. -/
structure SpaceApiConfig where
  baseUrl : Option String
  /-- in seconds -/
  timeout : Nat
  token : Option String
  deriving DecidableEq

/-- Overrides as a table and as a flat text. -/
structure ClusterConfig where
  table : Dict String String
  raw : Option String
  deriving DecidableEq

/-- What can be configured. -/
structure Config where
  output : OutputFormat
  database : DatabaseConfig
  spaceApi : SpaceApiConfig
  cluster : ClusterConfig
  deriving DecidableEq

namespace Config

/-- The configuration where nothing is configured. -/
def initial : Config where
  output := .plain
  database := ⟨none, 5, 30⟩
  spaceApi := ⟨none, 10, none⟩
  cluster := ⟨Dict.empty, none⟩

def countMax : Nat := 4294967295

/-- The format of results that a text configures. -/
def output? (v : Toml) : Option OutputFormat := do
  let r ← Record.of? ["default_output"] v
  r.defaulted "default_output" initial.output (Toml.constant? OutputFormat.ofText?)

/-- The store that a text configures. -/
def database? (v : Toml) : Option DatabaseConfig := do
  let r ← Record.of? ["path", "max_connections", "busy_timeout"] v
  return {
    path := ← r.optional "path" Toml.text?
    maxConnections := ← r.defaulted "max_connections" initial.database.maxConnections
      (Toml.count? countMax)
    busyTimeout := ← r.defaulted "busy_timeout" initial.database.busyTimeout
      (Toml.count? Text.Decimal.uint64Max) }

/-- The space API that a text configures. -/
def spaceApi? (v : Toml) : Option SpaceApiConfig := do
  let r ← Record.of? ["base_url", "timeout", "token"] v
  return {
    baseUrl := ← r.optional "base_url" Toml.text?
    timeout := ← r.defaulted "timeout" initial.spaceApi.timeout
      (Toml.count? Text.Decimal.uint64Max)
    token := ← r.optional "token" Toml.text? }

/-- The overrides that a text configures. -/
def cluster? (v : Toml) : Option ClusterConfig := do
  let r ← Record.of? ["biz_overrides", "biz_overrides_raw"] v
  return {
    table := ← r.defaulted "biz_overrides" Dict.empty fun v => v.texts?.map Dict.ofList
    raw := ← r.optional "biz_overrides_raw" Toml.text? }

/-- The configuration that a value describes. -/
def ofToml? (v : Toml) : Option Config := do
  let r ← Record.of? ["general", "database", "space_api", "cluster"] v
  return {
    output := ← r.defaulted "general" initial.output output?
    database := ← r.defaulted "database" initial.database database?
    spaceApi := ← r.defaulted "space_api" initial.spaceApi spaceApi?
    cluster := ← r.defaulted "cluster" initial.cluster cluster? }

def ofText (s : String) : Except ConfigError Config :=
  match (Toml.parse? s).bind ofToml? with
  | some c => .ok c
  | none => .error (.parse "not a configuration")

def toJson (c : Config) : Json :=
  .obj [
    ("general", .obj [("default_output", .str c.output.text)]),
    ("database", .obj [("path", .option .str c.database.path),
      ("max_connections", .nat c.database.maxConnections),
      ("busy_timeout", .nat c.database.busyTimeout)]),
    ("space_api", .obj [("base_url", .option .str c.spaceApi.baseUrl),
      ("timeout", .nat c.spaceApi.timeout), ("token", .option .str c.spaceApi.token)]),
    ("cluster", .obj [
      ("biz_overrides", .obj (c.cluster.table.entries.map fun e => (e.1, .str e.2))),
      ("biz_overrides_raw", .option .str c.cluster.raw)])]

/-- Where the store is if nothing says so. -/
def standardPath : String := "/var/lib/relsync/relsync.sqlite"

/-- Where the store is. -/
def dbPath (c : Config) : String := c.database.path.getD standardPath

/-- The directory that the store is in, if its path names one. -/
def dbDirectory? (c : Config) : Option String :=
  match Text.cut? '/' c.dbPath.toList.reverse with
  | some (_, r) => some (if r = [] then "/" else String.ofList r.reverse)
  | none => none

/-- The overrides that count. -/
def overrides (c : Config) : Overrides :=
  let table := Overrides.ofTable c.cluster.table
  match c.cluster.raw with
  | some raw => table.layer (Overrides.parse raw)
  | none => table

end Config
end Linkage
