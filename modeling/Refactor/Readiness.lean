import Refactor.Report
import Refactor.Session.Basic
import Refactor.Settings.Basic

/-!
# Waiting for the project

Before an operation asks anything of the server, the session is started if need
be and the project given time to load. The wait looks at the session at fixed
intervals, the last one cut short, and gives up when the time is over.
-/

namespace Refactor

/-- Why an operation cannot start. -/
inductive NotReady where
  | stillIndexing (waitedMs : Nat)
  | startFailed (reason : Failure)
deriving DecidableEq, Repr

namespace NotReady

def message : NotReady → String
  | .stillIndexing ms =>
    "TypeScript server is still loading the project (waited " ++ toString ms ++ "ms)"
  | .startFailed reason => "Failed to start TypeScript server: " ++ reason.message

def suggestion : NotReady → String
  | .stillIndexing _ =>
    "Wait a few seconds and retry the operation. Large projects can take longer to index."
  | .startFailed _ =>
    "Check that TypeScript is installed (npm install typescript) and that tsserver.command is " ++
      "configured correctly."

def report (e : NotReady) : Report := (Report.failed e.message).withSuggestion e.suggestion

end NotReady

namespace Readiness

variable {σ : Type}

/-- Looks until the project is loaded or the time is over, at most `fuel` times more. -/
def poll (S : Session σ) (interval timeout began : Nat) : Nat → StateM σ (Except NotReady Unit)
  | 0 => return .error (.stillIndexing timeout)
  | fuel + 1 => do
    if ← S.isLoaded then return .ok ()
    let elapsed := S.now (← get) - began
    if timeout ≤ elapsed then return .error (.stillIndexing timeout)
    S.sleep (min interval (timeout - elapsed))
    poll S interval timeout began fuel

/-- Starts the session if it does not run. One that someone else has started meanwhile is fine. -/
def ensureStarted (S : Session σ) (root : Path) : StateM σ (Except NotReady Unit) := do
  if ← S.isRunning then return .ok ()
  match ← S.start root with
  | .ok _ | .error .alreadyRunning => return .ok ()
  | .error e => return .error (.startFailed e)

/-- Waits until the project is loaded. -/
def ensureReady (S : Session σ) (root : Path) (interval timeout : Nat) :
    StateM σ (Except NotReady Unit) := do
  let began := S.now (← get)
  match ← ensureStarted S root with
  | .error e => return .error e
  -- each look but the last is followed by a wait of at least a millisecond, or else by another
  -- look of those that the session has in store
  | .ok _ => poll S interval timeout began (timeout + 2 + S.looks (← get))

end Readiness

end Refactor
