import Refactor.Failure
import Refactor.FileTree.Basic

/-!
# Sessions with the server

What an operation needs of a session: whether it runs and has the project
loaded, starting it, asking it, and showing it a file. A session has a state of
some type, and every call may change it; so does waiting. Time is counted in
milliseconds.
-/

namespace Refactor

/-- The calls of a session with states in `σ`. -/
structure Session (σ : Type) where
  isRunning : StateM σ Bool
  isLoaded : StateM σ Bool
  start (root : Path) : StateM σ (Attempt Unit)
  /-- Asks and waits for the body of the answer. -/
  request (command : String) (arguments : Option Json) : StateM σ (Attempt (Option Json))
  /-- Shows the server a file with its content in the tree. -/
  openFile (files : FileTree) (path : Path) : StateM σ (Attempt Unit)
  sleep (ms : Nat) : StateM σ Unit
  now : σ → Nat
  /-- How many looks in a row may find the project not loaded yet and the next one find it loaded,
  with no time in between. -/
  looks : σ → Nat

/-- The longest time that a session sleeps at once, in milliseconds: thirty years. -/
def longestSleep : Nat := 946080000000

end Refactor
