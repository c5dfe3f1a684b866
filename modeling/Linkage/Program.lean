import Linkage.Command.Run

/-!
# The program

* `World`            what the program needs from outside: files, variables, a store, a clock;
* `World.configure`  the configuration of a run: file, environment, command line;
* `Request.perform`  a whole run: what is printed, how it fails, and what is logged.
-/

namespace Linkage

/-- A file to be read. -/
inductive FileContent where
  | missing
  | unreadable
  | text (s : String)
  deriving DecidableEq

/-- What the program needs from outside. -/
structure World (m : Type → Type) where
  file : String → m FileContent
  /-- the path of the configuration file that is read if it is there -/
  homeConfig : Option String
  environment : Environment
  openStore : Config → m (Except Failure Db)
  keepStore : Config → Db → m Unit
  names : Url.Naming := .simple
  send : Transport
  clock : Clock

/-- What came of a run. -/
structure Run where
  /-- what is printed -/
  output : String
  failure : Option Failure
  records : List LogRecord
  deriving DecidableEq

namespace Run

def exitCode (r : Run) : Nat := if r.failure.isSome then 1 else 0

/-- What is said about a failure, unless all output is JSON. -/
def complaint (r : Run) (json : Bool) : Option String :=
  if json then none else r.failure.map Failure.text

end Run

/-- A record that is no event. -/
def LogRecord.plain (level : Level) (message : String) (fields : List (String × LogValue)) :
    LogRecord :=
  ⟨level, ("message", .text message) :: fields⟩

def version : String := "0.1.0"

/-- The name and the version of the program. -/
def versionText : String := "relsync " ++ version ++ "\n"

def usageText : String :=
  Text.joined "\n" ["relsync keeps the relation tables of a metadata store consistent.", "",
    "relsync [options] cluster sync", "relsync [options] cluster biz-ids CLUSTER",
    "relsync [options] datalink rebuild [--tenant T] [--namespace N] [--dry-run]",
    "relsync [options] migrate", "",
    "--json            write results as JSON", "--debug           log more",
    "--config PATH     read this configuration file", "--db PATH         use this store",
    "-h, --help        write this text", "-V, --version     write the version", ""]

/-- The path of the configuration file in a directory of configurations. -/
def homeConfigPath (directory : String) : String := directory ++ "/relsync/config.toml"

/-- Where configurations are: the directory that is named if it is absolute, else one in the home
directory. -/
def configDirectory? (named home : Option String) : Option String :=
  (named.filter fun d => d.toList.head? = some '/').or (home.map (· ++ "/.config"))

/-- Whether a record is written; more of them if so asked. -/
def LogRecord.isShown (debug : Bool) (r : LogRecord) : Bool :=
  (if debug then Level.debug else Level.info).rank ≤ r.level.rank

/-- The configuration that a file holds. -/
def Config.ofFile (path : String) : FileContent → Except ConfigError Config
  | .text s => ofText s
  | _ => .error (.notFound path)

/-- The configuration of a file with the environment and the command line on top. -/
def Config.layered (e : Environment) (o : GlobalOptions) (c : Config) : Except ConfigError Config :=
  match c.merge e with
  | (_, some e) => .error e
  | (c, none) => ((c.withOptions o).check).map fun _ => c.withOptions o

namespace World

section
variable {m : Type → Type} [Monad m]

/-- The configuration of the file that is named, or of the standard file if it is there. -/
def load (w : World m) : Option String → m (Except ConfigError Config)
  | some path => do return Config.ofFile path (← w.file path)
  | none => match w.homeConfig with
    | none => return .error (.notFound "config directory")
    | some path => do
      match ← w.file path with
      | .missing => return .ok .initial
      | file => return Config.ofFile path file

def configure (w : World m) (o : GlobalOptions) : m (Except ConfigError Config) := do
  match ← w.load o.config with
  | .error e => return .error e
  | .ok c => return c.layered w.environment o

end

end World

/-- What is logged at the end of a run that succeeded. -/
def Tally.records (t : Tally) : List LogRecord :=
  (if t.conflicts = 0 then [] else
    [.plain .warn "data-buses left unlinked because of ownership conflicts"
      [("conflicts", .count t.conflicts)]]) ++
  [.plain .info "Command completed successfully" [("warnings", .count t.warnings)]]

/-- The run of a program that executed its command, with events and command in any turns. -/
def Execution.toRun (x : Execution) (json : Bool) (turns : List Turn) : Run :=
  let (handler, result) := deliver Handler.handle turns x.work .fresh .start
  let records := x.notes.map Note.record ++ handler.records
  match result with
  | .ok r => ⟨r.printed json, none, records ++ handler.tally.records⟩
  | .error f => ⟨"", some f, records⟩

/-- The run that fails before its command is executed. -/
def Run.failed (f : Failure) : Run := ⟨"", some f, []⟩

namespace Run

/-- The run with the records that every run begins with, and one on how it failed. -/
def logged (r : Run) : Run :=
  { r with records :=
      .plain .info ("Starting relsync v" ++ version) [] :: r.records ++
        (r.failure.map fun f => LogRecord.plain .error ("Application error: " ++ f.text) []).toList }

end Run

def Request.perform {m : Type → Type} [Monad m] (r : Request) (w : World m) (turns : List Turn) :
    m Run := do
  match ← w.configure r.options with
  | .error e => return (Run.failed (.config (.config e))).logged
  | .ok c => match ← w.openStore c with
    | .error f => return (Run.failed f).logged
    | .ok db =>
      let (x, db) := r.command.run c w.names w.send w.clock db
      w.keepStore c db
      return (x.toRun (c.output = .json) turns).logged

end Linkage
