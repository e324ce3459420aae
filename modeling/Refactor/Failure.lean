import Refactor.OsError
import Refactor.Path
import Refactor.Json.Decode
import Refactor.Json.Place

/-!
# Failures

Everything that can go wrong in an operation, with one wording for each cause
(`Failure.message`) and, for most causes, one piece of advice
(`Failure.suggestion?`).
-/

namespace Refactor

/-- Why an operation failed. -/
inductive Failure where
  | config (reason : String)
  | io (reason : String)
  | json (reason : String)
  | protocol (reason : String)
  | timeout (operation : String) (ms : UInt64)
  | server (command reason : String)
  | alreadyRunning
  | notRunning
  | sessionClosed (command : String)
  | invalidEdit (reason : String)
  | internal (reason : String)
deriving DecidableEq, Repr

namespace Failure

/-- A file operation that failed at a path. -/
def ioAt (p : Path) (e : OsError) : Failure := .io (p.spelling ++ ": " ++ e.message)

/-- A fault in JSON that a message tells of. -/
def ofJsonMessage (message : String) : Failure := .json (Json.placed message)

/-- A value that does not decode. -/
def ofDecode (e : Json.DecodeError) : Failure := .json e.message

/-- The wording of a failure. -/
def message : Failure → String
  | .config reason => "Configuration error: " ++ reason
  | .io reason => "I/O error: " ++ reason
  | .json reason => "JSON error: " ++ reason
  | .protocol reason => "Protocol error: " ++ reason
  | .timeout operation ms =>
    "Request '" ++ operation ++ "' timed out after " ++ toString ms.toNat ++ "ms"
  | .server command reason => "tsserver rejected '" ++ command ++ "': " ++ reason
  | .alreadyRunning => "tsserver session is already running"
  | .notRunning => "tsserver session is not running"
  | .sessionClosed command => "tsserver session closed before '" ++ command ++ "' completed"
  | .invalidEdit reason => "Invalid edit: " ++ reason
  | .internal reason => "Internal error: " ++ reason

/-- What to do about a failure. -/
def suggestion? : Failure → Option String
  | .config _ => some "Check the tsmill configuration (.tsmill/config.toml)"
  | .timeout _ _ | .sessionClosed _ =>
    some "Wait a few seconds for tsserver to finish loading, then retry"
  | .notRunning | .alreadyRunning => some "Restart the tsserver session and retry"
  | .server _ _ => some "Check the project configuration (tsconfig.json)"
  | .io _ => some "Verify the file exists and is readable"
  | .json _ | .protocol _ | .invalidEdit _ | .internal _ => none

/-- Whether waiting longer might have helped. -/
def isTimeout : Failure → Bool
  | .timeout _ _ => true
  | _ => false

end Failure

/-- A result or a failure. -/
abbrev Attempt (α : Type) := Except Failure α

end Refactor
