import Linkage.Command.Failure
import Linkage.Command.Output
import Linkage.Config.Layers
import Linkage.Event.Delivery
import Linkage.Lookup.Api
import Linkage.Rebuild.Run

/-!
# Running a command

* `Config.lookup`      the lookup that a configuration asks for;
* `Command.run`        a command on a store: what it told and what came of it;
* `Execution.work`     the same as a command that sends its events.
-/

namespace Linkage

/-- What a command told and what came of it. -/
structure Execution where
  events : List Message
  notes : List Note
  result : Except Failure CommandResult

/-- The lookup that a configuration asks for: the space API if it has a URL, else the store. -/
def Config.lookup (c : Config) (names : Url.Naming) (send : Transport) (db : Db) :
    Except Error Lookup :=
  match c.spaceApi.baseUrl with
  | some url =>
    (Api.of? url c.spaceApi.timeout c.spaceApi.token).map fun a => .ofApi { a with names } send
  | none => .ok (.ofStore db.store)

/-- The items that a configuration's flat text of overrides cannot use. -/
def Config.ignoredOverrides (c : Config) : List Note :=
  (c.cluster.raw.elim [] Overrides.ignored).map .overrideIgnored

namespace Command

/-- A pass over the cluster relations. -/
def runSync (c : Config) (names : Url.Naming) (send : Transport) (clock : Clock) (db : Db) :
    Execution × Db :=
  match c.lookup names send db with
  | .error e => (⟨[], [], .error (.work e)⟩, db)
  | .ok lookup =>
    let (run, db) := reconcile c.overrides lookup clock db
    (⟨run.events.map fun e => e.message reconcileCorrelation, c.ignoredOverrides ++ run.notes,
      match run.result with
      | .ok r => .ok (.relations r)
      | .error e => .error (.work e)⟩, db)

/-- The businesses related to a cluster. -/
def runBusinesses (c : Config) (names : Url.Naming) (send : Transport) (cluster : String) (db : Db) :
    Execution × Db :=
  match c.lookup names send db with
  | .error e => (⟨[], [], .error (.work e)⟩, db)
  | .ok _ =>
    let (ids, db) := Query.transaction (Query.businessIds cluster) db
    (⟨[], c.ignoredOverrides,
      match ids with
      | .ok ids => .ok (.businesses cluster ids)
      | .error e => .error (.work e)⟩, db)

/-- A batch over the data-buses of a scope. -/
def runRebuild (scope : Scope) (dryRun : Bool) (clock : Clock) (db : Db) : Execution × Db :=
  let (run, db) := Linkage.rebuild scope dryRun clock db
  (⟨run.events.map fun e => e.message none, [],
    match run.result with
    | .ok r => .ok (.rebuilt r)
    | .error e => .error (.work e)⟩, db)

/-- A command on a store that is open, without the events on its own progress. -/
def runOn (c : Config) (names : Url.Naming) (send : Transport) (clock : Clock) (db : Db) :
    Command → Execution × Db
  | sync => runSync c names send clock db
  | businesses cluster => runBusinesses c names send cluster db
  | rebuild scope dryRun => runRebuild scope dryRun clock db
  | migrate => (⟨[], [], .ok (.migrated c.dbPath)⟩, db)

/-- The last event of a command. -/
def closing (operation : String) : Except Failure CommandResult → GeneralEvent
  | .ok _ => .completed operation true
  | .error f => .failed operation f.text

/-- A command on a store that is open. -/
def run (c : Config) (names : Url.Naming) (send : Transport) (clock : Clock) (db : Db)
    (cmd : Command) : Execution × Db :=
  let (x, db) := cmd.runOn c names send clock db
  let general (e : GeneralEvent) : Message := (Event.general e).message none
  ({ x with events :=
      general (.started cmd.operation) :: x.events ++ [general (closing cmd.operation x.result)] },
    db)

end Command

/-- The execution as a command that sends its events. -/
def Execution.work (x : Execution) : Work Message (Except Failure CommandResult) :=
  Work.ofMessages x.result x.events

end Linkage
