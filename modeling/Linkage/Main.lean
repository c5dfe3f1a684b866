import Linkage.Program
import Linkage.Store.Snapshot
import Std.Time.DateTime

/-!
# The command line

The outermost layer: files, variables, the clock and the streams.  The store is kept as a snapshot in
a file.  There is no way to a space API from here: a request to one fails, and what needs its answer
is left out of the run.
-/

namespace Linkage.Shell

/-- A file, if it can be read. -/
def readFile (path : String) : IO FileContent := do
  try
    return .text (← IO.FS.readFile path)
  catch
    | .noFileOrDirectory .. => return .missing
    | _ => return .unreadable

/-- The store in the file of a configuration, or a new one. -/
def openStore (c : Config) : IO (Except Failure Db) := do
  try
    if let some directory := c.dbDirectory? then IO.FS.createDirAll directory
  catch e => return .error (.io (toString e))
  match ← readFile c.dbPath with
  | .missing => return .ok .empty
  | .unreadable => return .error (.work (.store (.database "the store cannot be read")))
  | .text s => match Store.ofSnapshot? s with
    | some store => return .ok { Db.empty with store }
    | none => return .error (.work (.store (.database "the file is no store")))

def world : IO (World IO) := do
  let values ← Environment.names.mapM fun n => do return (n, ← IO.getEnv n)
  let directory := configDirectory? (← IO.getEnv "XDG_CONFIG_HOME") (← IO.getEnv "HOME")
  let now := (← Std.Time.Timestamp.now).toSecondsSinceUnixEpoch.val
  return {
    file := readFile
    homeConfig := directory.map homeConfigPath
    environment := .ofVariables fun n => (values.lookup n).join
    openStore := openStore
    keepStore := fun c db => IO.FS.writeFile c.dbPath db.store.snapshot
    send := fun _ => .error .failed
    clock := ⟨now, 0⟩ }

/-- The records of a run, on the error stream. -/
def log (o : GlobalOptions) (rs : List LogRecord) : IO Unit :=
  (rs.filter (LogRecord.isShown o.debug)).forM fun r =>
    IO.eprintln (if o.json then r.toJson.compact else r.line)

/-- A run with arguments; the result is the exit code. -/
def main (args : List String) : IO UInt32 := do
  match Request.ofArguments args with
  | .error e =>
    match e with
    | .help => IO.print usageText
    | .version => IO.print versionText
    | e => IO.eprintln ("error: " ++ e.message)
    return UInt32.ofNat e.exitCode
  | .ok r =>
    let run ← r.perform (← world) []
    log r.options run.records
    IO.print run.output
    if let some s := run.complaint r.options.json then IO.eprintln ("Error: " ++ s)
    return UInt32.ofNat run.exitCode

end Linkage.Shell

def main (args : List String) : IO UInt32 := Linkage.Shell.main args
