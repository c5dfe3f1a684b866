import Linkage.Command.Arguments
import Linkage.Config.Basic
import Linkage.Url.Basic

/-!
# Layers of configuration

Variables of the environment count more than the configuration file, and options of the command line
more than both.

* `Environment`           the variables that are looked at;
* `Config.merge`          the variables on top, in their order, up to the first bad one;
* `Config.withOptions`    the options of the command line on top;
* `Config.check`          refuses values that cannot work.
-/

namespace Linkage

/-- The variables that are looked at; each may be unset. -/
structure Environment where
  output : Option String
  dbPath : Option String
  apiUrl : Option String
  apiTimeout : Option String
  overrides : Option String
  deriving DecidableEq

namespace Environment

def empty : Environment := ⟨none, none, none, none, none⟩

/-- The environment in which `get` tells the value of a variable. -/
def ofVariables (get : String → Option String) : Environment where
  output := get "RELSYNC_OUTPUT"
  dbPath := get "RELSYNC_DB_PATH"
  apiUrl := get "RELSYNC_SPACE_API_URL"
  apiTimeout := get "RELSYNC_SPACE_API_TIMEOUT"
  overrides := get "RELSYNC_CLUSTER_BIZ_OVERRIDES"

def names : List String :=
  ["RELSYNC_OUTPUT", "RELSYNC_DB_PATH", "RELSYNC_SPACE_API_URL", "RELSYNC_SPACE_API_TIMEOUT",
    "RELSYNC_CLUSTER_BIZ_OVERRIDES"]

end Environment

namespace Config

/-- One layer on a setting: what a value of it does, if there is one. -/
def setBy {α : Type} (value : Option α) (set : α → Except ConfigError Config) (c : Config) :
    Except ConfigError Config :=
  match value with
  | some a => set a
  | none => .ok c

/-- The format of results by its variable. -/
def mergeOutput (e : Environment) (c : Config) : Except ConfigError Config :=
  setBy e.output (fun s => match OutputFormat.ofText? s with
    | some f => .ok { c with output := f }
    | none => .error (.invalidValue "RELSYNC_OUTPUT" s)) c

/-- The path of the store by its variable, which may not be empty. -/
def mergeDbPath (e : Environment) (c : Config) : Except ConfigError Config :=
  setBy e.dbPath (fun s =>
    if s = "" then .error (.invalidValue "RELSYNC_DB_PATH" s)
    else .ok { c with database := { c.database with path := some s } }) c

/-- The URL of the space API by its variable; an empty one removes it. -/
def mergeApiUrl (e : Environment) (c : Config) : Except ConfigError Config :=
  setBy e.apiUrl (fun s =>
    .ok { c with spaceApi := { c.spaceApi with baseUrl := if s = "" then none else some s } }) c

/-- The seconds for an answer of the space API by their variable. -/
def mergeApiTimeout (e : Environment) (c : Config) : Except ConfigError Config :=
  setBy e.apiTimeout (fun s => match Text.Decimal.uint64? s.toList with
    | some n => .ok { c with spaceApi := { c.spaceApi with timeout := n } }
    | none => .error (.invalidValue "RELSYNC_SPACE_API_TIMEOUT" s)) c

/-- The flat text of overrides by its variable. -/
def mergeOverrides (e : Environment) (c : Config) : Except ConfigError Config :=
  setBy e.overrides (fun s => .ok { c with cluster := { c.cluster with raw := some s } }) c

/-- The layers of the environment, in order. -/
def layers (e : Environment) : List (Config → Except ConfigError Config) :=
  [mergeOutput e, mergeDbPath e, mergeApiUrl e, mergeApiTimeout e, mergeOverrides e]

/-- The configuration after the layers up to the first bad one, and what is wrong with that. -/
def applyLayers :
    List (Config → Except ConfigError Config) → Config → Config × Option ConfigError
  | [], c => (c, none)
  | f :: fs, c => match f c with
    | .ok c => applyLayers fs c
    | .error e => (c, some e)

/-- The configuration with the environment on top. -/
def merge (e : Environment) (c : Config) : Config × Option ConfigError :=
  applyLayers (layers e) c

/-- The configuration with the options of the command line on top. -/
def withOptions (o : GlobalOptions) (c : Config) : Config :=
  { c with
    database := { c.database with path := o.db.or c.database.path }
    output := if o.json then .json else c.output }

/-- Refuses a store without connections and a URL that is not one of the web. -/
def check (c : Config) : Except ConfigError Unit :=
  if c.database.maxConnections = 0 then .error (.invalidValue "database.max_connections" "0")
  else match c.spaceApi.baseUrl with
    | some url =>
      if Url.isWeb url then .ok () else .error (.invalidValue "space_api.base_url" url)
    | none => .ok ()

end Config
end Linkage
