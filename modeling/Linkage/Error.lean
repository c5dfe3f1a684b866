import Linkage.Text.Decimal

/-!
# What can go wrong

An error is its cause; `Error.message` is the text with its domain, `Error.userMessage` the short
text for a user, and code, hint and whether to retry follow from the cause.

* `Error.isSpaceNotFound`   a lookup that found no such space;
* `Error.isRetryable`       an error that may go away by itself.
-/

namespace Linkage

/-- Failures on the way to the space API. -/
inductive NetworkError where
  | timeout (url : String)
  | refused (message : String)
  | invalidUrl (url : String)
  | http (status : Nat) (message : String)
  | invalidResponse (url message : String)
  deriving DecidableEq

/-- Failures of the metadata store. -/
inductive StoreError where
  | database (message : String)
  | transaction (message : String)
  | migration (message : String)
  | corrupted (table message : String)
  deriving DecidableEq

/-- Faults of the configuration. -/
inductive ConfigError where
  | notFound (path : String)
  | parse (message : String)
  | invalidValue (field value : String)
  deriving DecidableEq

/-- Answers to a lookup that name no business. -/
inductive SpaceError where
  | notFound (uid : String)
  | invalidUid (uid : String)
  | rejected (uid message : String)
  deriving DecidableEq

/-- Texts that name nothing known. -/
inductive NameError where
  | sinkEntry (entry : String)
  | sinkKind (kind : String)
  | strategy (strategy : String)
  deriving DecidableEq

/-- What can go wrong. -/
inductive Error where
  | network (e : NetworkError)
  | store (e : StoreError)
  | config (e : ConfigError)
  | space (e : SpaceError)
  | name (e : NameError)
  | internal (message : String)
  | io (message : String)
  deriving DecidableEq

/-- The text of a network failure. -/
def NetworkError.message : NetworkError → String
  | timeout url => "connection timeout to " ++ url
  | refused m => "connection refused: " ++ m
  | invalidUrl url => "invalid URL: " ++ url
  | http status m => "HTTP error " ++ Text.Decimal.text status ++ ": " ++ m
  | invalidResponse url m => "unexpected response from " ++ url ++ ": " ++ m

/-- The text of a store failure. -/
def StoreError.message : StoreError → String
  | database m => "database error: " ++ m
  | transaction m => "transaction failed: " ++ m
  | migration m => "migration failed: " ++ m
  | corrupted table m => "corrupted row in " ++ table ++ ": " ++ m

/-- The text of a configuration fault. -/
def ConfigError.message : ConfigError → String
  | notFound path => "config file not found: " ++ path
  | parse m => "parse error: " ++ m
  | invalidValue field value => "invalid value for " ++ field ++ ": " ++ value

/-- The text of a lookup without a business. -/
def SpaceError.message : SpaceError → String
  | notFound uid => "space not found: " ++ uid
  | invalidUid uid => "invalid space uid: " ++ uid
  | rejected uid m => "space lookup rejected " ++ uid ++ ": " ++ m

/-- The text of an unknown name. -/
def NameError.message : NameError → String
  | sinkEntry entry => "invalid sink reference `" ++ entry ++ "`: expected `kind:name`"
  | sinkKind kind => "unknown sink kind: " ++ kind
  | strategy s => "unknown data link strategy: " ++ s

namespace Error

def message : Error → String
  | network e => "network error: " ++ e.message
  | store e => "state error: " ++ e.message
  | config e => "config error: " ++ e.message
  | space e => "space error: " ++ e.message
  | name e => "reconcile error: " ++ e.message
  | internal m => "internal error: " ++ m
  | io m => "I/O error: " ++ m

/-- The short text for a user. -/
def userMessage : Error → String
  | network e => e.message
  | store e => e.message
  | config e => e.message
  | io m => m
  | e => e.message

/-- What a user can do about it. -/
def hint? : Error → Option String
  | network (.timeout _) | network (.refused _) =>
    some "Check that the space API is reachable from this host."
  | network (.invalidUrl _) => some "Fix space_api.base_url in the configuration."
  | store (.migration _) =>
    some "Check that the database file belongs to this version of relsync."
  | store (.corrupted _ _) =>
    some "Inspect the offending row; JSON columns must hold valid arrays."
  | config (.notFound _) => some "Pass --config with an existing file or omit it."
  | config _ => some "Fix the configuration value and retry the command."
  | space (.notFound _) => some "The space uid does not exist on the space API."
  | _ => none

/-- Whether it may go away by itself. -/
def isRetryable : Error → Bool
  | network (.timeout _) | network (.refused _) => true
  | network (.http status _) => 500 ≤ status
  | store (.database _) | store (.transaction _) => true
  | io _ => true
  | _ => false

def code : Error → String
  | network (.timeout _) => "network.timeout"
  | network (.refused _) => "network.connection_refused"
  | network (.invalidUrl _) => "network.invalid_url"
  | network (.http _ _) => "network.http_error"
  | network (.invalidResponse _ _) => "network.invalid_response"
  | store (.database _) => "state.database_error"
  | store (.transaction _) => "state.transaction_failed"
  | store (.migration _) => "state.migration_failed"
  | store (.corrupted _ _) => "state.corrupted_row"
  | config (.notFound _) => "config.not_found"
  | config (.parse _) => "config.parse_error"
  | config (.invalidValue _ _) => "config.invalid_value"
  | space (.notFound _) => "space.not_found"
  | space _ => "space.error"
  | name _ => "reconcile.invalid_input"
  | internal _ => "error.internal"
  | io _ => "error.io"

/-- Whether a lookup found no such space. -/
def isSpaceNotFound : Error → Bool
  | space (.notFound _) => true
  | _ => false

end Error
end Linkage
