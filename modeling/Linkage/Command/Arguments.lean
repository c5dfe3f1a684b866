import Linkage.Scope
import Linkage.Text.Cut

/-!
# Arguments of the command line

The program has commands within groups of commands; four options may stand behind any of them, and
the deepest one counts.

* `Command`                what is to be done;
* `Menu`                   a command or a group of commands;
* `Seen`                   what was read after the name of one;
* `Request.ofArguments`   the command and the options of a list of arguments.

An option that takes a value waits for the next argument, and its value is checked when the next
option, the next free argument or the last argument is reached.
-/

namespace Linkage

/-- What is to be done. -/
inductive Command where
  | sync
  | businesses (cluster : String)
  | rebuild (scope : Scope) (dryRun : Bool)
  | migrate
  deriving DecidableEq

/-- Options that may stand anywhere. -/
structure GlobalOptions where
  json : Bool
  debug : Bool
  config : Option String
  db : Option String
  deriving DecidableEq

/-- A command with its options. -/
structure Request where
  command : Command
  options : GlobalOptions
  deriving DecidableEq

/-- Why arguments are no request. -/
inductive UsageError where
  | help
  | version
  | missingInput
  | missingSubcommand
  | missingArgument
  | invalidSubcommand
  | unknownArgument
  | invalidValue
  | conflict
  | tooManyValues
  deriving DecidableEq

namespace UsageError

/-- Help and version are what was asked for. -/
def isAnswer : UsageError → Bool
  | help | version => true
  | _ => false

def exitCode (e : UsageError) : Nat := if e.isAnswer then 0 else 2

def message : UsageError → String
  | help => "help"
  | version => "version"
  | missingInput => "a command is needed"
  | missingSubcommand => "a subcommand is needed"
  | missingArgument => "an argument is missing"
  | invalidSubcommand => "no such subcommand"
  | unknownArgument => "unexpected argument"
  | invalidValue => "a value is missing or empty"
  | conflict => "an option is given twice"
  | tooManyValues => "an option takes no value"

end UsageError

/-- The name under which a command is reported. -/
def Command.operation : Command → String
  | sync => "cluster sync"
  | businesses _ => "cluster biz-ids"
  | rebuild .. => "datalink rebuild"
  | migrate => "migrate"

/-- A command or a group of commands. -/
inductive Menu where
  | root
  | cluster
  | dataLink
  | sync
  | businesses
  | rebuild
  | migrate
  deriving DecidableEq

/-- Options that take no value. -/
inductive Switch where
  | json
  | debug
  | dryRun
  | help
  | version
  deriving DecidableEq

/-- Options that take a value. -/
inductive Setting where
  | config
  | db
  | tenant
  | namespace_
  deriving DecidableEq

namespace Menu

/-- The commands of a group, by name. -/
def subcommands : Menu → List (String × Menu)
  | root => [("cluster", cluster), ("datalink", dataLink), ("migrate", migrate)]
  | cluster => [("sync", sync), ("biz-ids", businesses)]
  | dataLink => [("rebuild", rebuild)]
  | _ => []

def isGroup (m : Menu) : Bool := m.subcommands ≠ []

def switches (m : Menu) : List (String × Switch) :=
  [("json", .json), ("debug", .debug), ("help", .help)] ++
    (if m = root then [("version", .version)] else []) ++
    (if m = rebuild then [("dry-run", .dryRun)] else [])

def settings (m : Menu) : List (String × Setting) :=
  [("config", .config), ("db", .db)] ++
    (if m = rebuild then [("tenant", .tenant), ("namespace", .namespace_)] else [])

def letters (m : Menu) : List (Char × Switch) :=
  ('h', .help) :: (if m = root then [('V', .version)] else [])

/-- Whether a free argument is taken. -/
def takesArgument (m : Menu) : Bool := m = businesses

end Menu

/-- What was read after the name of a command or a group. -/
structure Seen where
  /-- the option whose value is not checked yet, with its value if it has one -/
  pending : Option (Setting × Option String)
  switches : List Switch
  settings : List (Setting × String)
  argument : Option String
  /-- whether all that follows is free arguments -/
  trailing : Bool
  deriving DecidableEq

namespace Seen

def start : Seen := ⟨none, [], [], none, false⟩

/-- Whether a value is one for a setting: a path is not empty. -/
def accepts : Setting → String → Bool
  | .config, v | .db, v => v ≠ ""
  | _, _ => true

/-- A setting with its value, which may not be set twice. -/
def set (s : Seen) (k : Setting) (v : String) : Except UsageError Seen :=
  if s.settings.any fun e => e.1 = k then .error .conflict
  else if accepts k v then .ok { s with pending := none, settings := s.settings ++ [(k, v)] }
  else .error .invalidValue

/-- The option that waits for a check, checked. -/
def settle (s : Seen) : Except UsageError Seen :=
  match s.pending with
  | none => .ok s
  | some (_, none) => .error .invalidValue
  | some (k, some v) => s.set k v

/-- A switch, which may not be given twice; help and version end the reading. -/
def switch (s : Seen) (k : Switch) : Except UsageError Seen :=
  match s.settle with
  | .error e => .error e
  | .ok s => match k with
    | .help => .error .help
    | .version => .error .version
    | k => if s.switches.contains k then .error .conflict
      else .ok { s with switches := s.switches ++ [k] }

/-- Switches of one letter behind one another. -/
def letters (m : Menu) (s : Seen) : List Char → Except UsageError Seen
  | [] => .ok s
  | c :: cs => match m.letters.lookup c with
    | none => .error .unknownArgument
    | some k => match s.switch k with
      | .ok s => letters m s cs
      | .error e => .error e

/-- An option by its name, perhaps with a value behind `=`. -/
def long (m : Menu) (s : Seen) (name : String) (value : Option String) : Except UsageError Seen :=
  match m.settings.lookup name, value with
  | some k, some v => match s.settle with
    | .ok s => s.set k v
    | .error e => .error e
  | some k, none => match s.settle with
    | .ok s => .ok { s with pending := some (k, none) }
    | .error e => .error e
  | none, value => match m.switches.lookup name, value with
    | some k, none => s.switch k
    | some _, some _ => .error .tooManyValues
    | none, _ => .error .unknownArgument

def free (m : Menu) (s : Seen) (a : String) : Except UsageError Seen :=
  if m.takesArgument ∧ s.argument = none then
    match s.settle with
    | .ok s => .ok { s with argument := some a }
    | .error e => .error e
  else if m.isGroup then
    if s.trailing ∧ ((m.subcommands.lookup a).isSome ∨ a = "help") then .error .unknownArgument
    else .error .invalidSubcommand
  else .error .unknownArgument

def value (s : Seen) (k : Setting) : Option String := s.settings.lookup k

/-- The options that may stand anywhere. -/
def options (s : Seen) : GlobalOptions where
  json := s.switches.contains .json
  debug := s.switches.contains .debug
  config := s.value .config
  db := s.value .db

end Seen

/-- How an argument is written. -/
inductive Shape where
  | separator
  | long (name : String) (value : Option String)
  | short (letters : List Char)
  | plain
  deriving DecidableEq

/-- How an argument is written: a lone hyphen is plain. -/
def Shape.of (a : String) : Shape :=
  match a.toList with
  | ['-', '-'] => .separator
  | '-' :: '-' :: r => match Text.cut? '=' r with
    | some (n, v) => .long (String.ofList n) (some (String.ofList v))
    | none => .long (String.ofList r) none
  | '-' :: c :: r => .short (c :: r)
  | _ => .plain

/-- The help on a chain of names; a name that is none is refused. -/
def helpOn (m : Menu) : List String → UsageError
  | [] => .help
  | a :: rest => match m.subcommands.lookup a with
    | some n => helpOn n rest
    | none =>
      if m.isGroup ∧ a = "help" then (if rest = [] then .help else .invalidSubcommand)
      else .invalidSubcommand

namespace Request

/-- Options of a group under those of its command. -/
def under (r : Request) (o : GlobalOptions) : Request :=
  { r with options := {
      json := r.options.json || o.json
      debug := r.options.debug || o.debug
      config := r.options.config.or o.config
      db := r.options.db.or o.db } }

def finish (m : Menu) (s : Seen) : Except UsageError Request :=
  match s.settle with
  | .error e => .error e
  | .ok s => match m with
    | .sync => .ok ⟨.sync, s.options⟩
    | .migrate => .ok ⟨.migrate, s.options⟩
    | .businesses => match s.argument with
      | some c => .ok ⟨.businesses c, s.options⟩
      | none => .error .missingArgument
    | .rebuild =>
      let scope : Scope :=
        ⟨(s.value .tenant).getD "system", (s.value .namespace_).getD "bkmonitor"⟩
      .ok ⟨.rebuild scope (s.switches.contains .dryRun), s.options⟩
    | _ =>
      if s.switches = [] ∧ s.settings = [] then .error .missingInput
      else .error .missingSubcommand

/-- The request of the arguments behind the name of a command or group. -/
def read (m : Menu) (s : Seen) : List String → Except UsageError Request
  | [] => finish m s
  | a :: rest =>
    match s.trailing, s.pending with
    | true, _ => match s.free m a with
      | .ok s => read m s rest
      | .error e => .error e
    | false, some (k, none) => match Shape.of a with
      | .separator => read m { s with trailing := true } rest
      | .long name value => match s.long m name value with
        | .ok s => read m s rest
        | .error e => .error e
      | .short cs => match s.letters m cs with
        | .ok s => read m s rest
        | .error e => .error e
      | .plain => read m { s with pending := some (k, some a) } rest
    | false, _ => match m.subcommands.lookup a with
      | some n => match read n .start rest with
        | .error e => .error e
        | .ok r => match s.settle with
          | .ok s => .ok (r.under s.options)
          | .error e => .error e
      | none =>
        if m.isGroup ∧ a = "help" then .error (helpOn m rest)
        else match Shape.of a with
          | .separator => read m { s with trailing := true } rest
          | .long name value => match s.long m name value with
            | .ok s => read m s rest
            | .error e => .error e
          | .short cs => match s.letters m cs with
            | .ok s => read m s rest
            | .error e => .error e
          | .plain => match s.free m a with
            | .ok s => read m s rest
            | .error e => .error e

/-- The request that a list of arguments makes. -/
def ofArguments (args : List String) : Except UsageError Request := read .root .start args

end Request
end Linkage
