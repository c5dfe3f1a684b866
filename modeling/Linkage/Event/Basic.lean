import Linkage.Report

/-!
# Events

What happens while a command runs is told by events, each with the level and the source that
`Event.level` and `Event.source` give it.
-/

namespace Linkage

/-- How severe an event is, from the least. -/
inductive Level where
  | trace
  | debug
  | info
  | warn
  | error
  deriving DecidableEq

/-- The part of the program that an event is about. -/
inductive Source where
  | general
  | cluster
  | dataLink
  deriving DecidableEq

/-- Events of a command as a whole. -/
inductive GeneralEvent where
  | warning (message context : String)
  | started (operation : String)
  | completed (operation : String) (success : Bool)
  | failed (operation error : String)
  deriving DecidableEq

/-- Events of a pass over the cluster relations. -/
inductive ClusterEvent where
  | started (projects overrides : Nat)
  | lookupFailed (project uid : String) (notFound : Bool) (error : String)
  | completed (report : RelationReport)
  deriving DecidableEq

/-- Events of a batch over the data-buses. -/
inductive LinkEvent where
  | started (scope : Scope) (total : Nat) (dryRun : Bool)
  | linked (bus link : String) (strategy : Strategy) (tableIds : List String) (created : Bool)
  | planned (bus link : String) (strategy : Strategy)
  | skipped (bus : String) (reason : SkipReason) (detail : String)
  | completed (report : RebuildReport)
  deriving DecidableEq

/-- What happens while a command runs. -/
inductive Event where
  | general (e : GeneralEvent)
  | cluster (e : ClusterEvent)
  | link (e : LinkEvent)
  deriving DecidableEq

namespace Level

/-- The place of a level in the order. -/
def rank : Level → Nat
  | trace => 0
  | debug => 1
  | info => 2
  | warn => 3
  | error => 4

def all : List Level := [trace, debug, info, warn, error]

def text : Level → String
  | trace => "trace"
  | debug => "debug"
  | info => "info"
  | warn => "warn"
  | error => "error"

def ofText? (s : String) : Option Level := all.find? fun l => l.text = s

/-- The name of a level in a log. -/
def label : Level → String
  | trace => "TRACE"
  | debug => "DEBUG"
  | info => "INFO"
  | warn => "WARN"
  | error => "ERROR"

/-- Levels from the least, equal ones in the order given. -/
def sorted (ls : List Level) : List Level := ls.mergeSort fun a b => a.rank ≤ b.rank

end Level

namespace Source

def all : List Source := [general, cluster, dataLink]

def text : Source → String
  | general => "general"
  | cluster => "cluster"
  | dataLink => "datalink"

def ofText? (s : String) : Option Source := all.find? fun l => l.text = s

end Source

namespace Event

/-- The part of the program that the event is about. -/
def source : Event → Source
  | general _ => .general
  | cluster _ => .cluster
  | link _ => .dataLink

def level : Event → Level
  | general (.failed ..) => .error
  | link (.skipped _ reason _) => if reason.isConflict then .error else .warn
  | general (.warning ..) => .warn
  | cluster (.lookupFailed ..) => .warn
  | link (.planned ..) => .debug
  | _ => .info

end Event
end Linkage
