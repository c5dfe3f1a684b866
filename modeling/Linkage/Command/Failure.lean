import Linkage.Error

/-!
# How a command fails

* `Failure`        an error of the configuration, of the work itself, or of the file system;
* `Failure.text`   what is shown; for the work itself with code, hint and whether to try again.
-/

namespace Linkage

/-- How a command fails. -/
inductive Failure where
  | config (e : Error)
  | work (e : Error)
  | io (message : String)
  deriving DecidableEq

namespace Failure

/-- A line of detail, if there is one. -/
def detail (label : String) : Option String → String
  | some s => "\n  " ++ label ++ ": " ++ s
  | none => ""

def text : Failure → String
  | config e => "Configuration error: " ++ e.userMessage
  | work e =>
    e.userMessage ++ detail "Code" (some e.code) ++ detail "Hint" e.hint? ++
      detail "Retry" (if e.isRetryable then some "safe to retry this operation." else none)
  | io m => "I/O error: " ++ m

end Failure
end Linkage
