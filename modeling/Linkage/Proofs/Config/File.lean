import Linkage.Proofs.Config.Layers

/-!
# What a configuration text says

A text that is a configuration sets some of the settings; the others have their initial values.

* `Record.Gives`           what a member of a record is read as, and what stands for one that is missing;
* `Config.written?`        what a document writes for a name in a group;
* `Variable.ofToml?`       how this is read for the setting of a variable;
* `Config.FromFile`        each setting is what the document writes for it, or the initial one.
-/

namespace Linkage

/-- `a` is what the value is read as; it is `b` if there is no value. -/
def Record.Gives {α β : Type} (v : Option α) (read : α → Option β) (b a : β) : Prop :=
  match v with
  | none => a = b
  | some v => read v = some a

namespace Record

variable {α β γ : Type} {r : Record α} {name : String} {read : α → Option β} {a b : β}

end Record

namespace Config

/-- The groups of settings, each with its names in the order of their declaration. -/
def groups : List (String × List String) :=
  [("general", ["default_output"]), ("database", ["path", "max_connections", "busy_timeout"]),
    ("space_api", ["base_url", "timeout", "token"]),
    ("cluster", ["biz_overrides", "biz_overrides_raw"])]

/-- What a record with the given names has for one of them. -/
def member? (names : List String) (name : String) (v : Toml) : Option Toml :=
  (Record.of? names v).bind fun r => r.find? name

end Config

namespace Variable

/-- The group and the name under which a document writes the setting. -/
def place : Variable → String × String
  | output => ("general", "default_output")
  | dbPath => ("database", "path")
  | apiUrl => ("space_api", "base_url")
  | apiTimeout => ("space_api", "timeout")
  | overrides => ("cluster", "biz_overrides_raw")

/-- What a document says for the setting, if it says it well. -/
def ofToml? : (x : Variable) → Toml → Option x.Value
  | output => Toml.constant? OutputFormat.ofText?
  | dbPath => Toml.text?
  | apiUrl | overrides => fun v => v.text?.map some
  | apiTimeout => Toml.count? Text.Decimal.uint64Max

end Variable

namespace Config

open Record

end Config
end Linkage
