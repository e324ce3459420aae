import Refactor.Session.Basic

/-!
# Scripted sessions

A session that answers every call from a list prepared for it and remembers what
it was asked. The last answer of a list is given again and again. Without a list
the session runs, has the project loaded, can be started and takes every file,
but knows no answer to a request.
-/

namespace Refactor

/-- A call that a session got. -/
inductive Call where
  | isRunning
  | isLoaded
  | start (root : Path)
  | request (command : String) (arguments : Option Json)
  | openFile (path : Path)

/-- Prepared answers and the calls so far. -/
structure Script where
  running : List Bool := []
  loaded : List Bool := []
  starts : List (Attempt Unit) := []
  responses : List (String × List (Attempt (Option Json))) := []
  opens : List (String × List (Attempt Unit)) := []
  /-- Calls so far, the latest first. -/
  calls : List Call := []
  clock : Nat := 0

namespace Script

/-- The first answer of a list, or another if there is none, and the list from then on. -/
def next {α : Type} (otherwise : α) : List α → α × List α
  | [] => (otherwise, [])
  | [a] => (a, [a])
  | a :: as => (a, as)

/-- The first answer of the list under a name, and the lists from then on. -/
def nextOf {α : Type} (otherwise : α) (name : String) :
    List (String × List α) → α × List (String × List α)
  | [] => (otherwise, [])
  | (k, as) :: rest =>
    if k = name then
      let (a, as) := next otherwise as
      (a, (k, as) :: rest)
    else
      let (a, rest) := nextOf otherwise name rest
      (a, (k, as) :: rest)

/-- Remembers a call. -/
def note (c : Call) (s : Script) : Script := { s with calls := c :: s.calls }

/-- The session that follows the script. -/
def session : Session Script where
  isRunning s :=
    let (b, rest) := next true s.running
    (b, ({ s with running := rest }).note .isRunning)
  isLoaded s :=
    let (b, rest) := next true s.loaded
    (b, ({ s with loaded := rest }).note .isLoaded)
  start root s :=
    let (r, rest) := next (.ok ()) s.starts
    (r, ({ s with starts := rest }).note (.start root))
  request command arguments s :=
    let (r, rest) := nextOf (.error (.server command "No Project.")) command s.responses
    (r, ({ s with responses := rest }).note (.request command arguments))
  openFile _ path s :=
    let (r, rest) := nextOf (.ok ()) path.spelling s.opens
    (r, ({ s with opens := rest }).note (.openFile path))
  sleep ms s := ((), { s with clock := s.clock + min ms longestSleep })
  now s := s.clock
  looks s := s.loaded.length

end Script

end Refactor
