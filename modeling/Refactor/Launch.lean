import Refactor.Program
import Refactor.Settings.Basic

/-!
# Launching the server

The server's command is looked for where a project keeps its own programs, then
where programs are installed for the user, and last where the system has its own.
A program named by a path is taken from the project root on. Launching fails if
the root is no directory, or if the program is not there or cannot be run.
-/

namespace Refactor

/-- The surroundings of a launch. -/
structure Surroundings where
  /-- Where programs are installed for the user. -/
  userDir : Option Path := none

namespace Surroundings

/-- The directories to look in, those of the project and of the user only if they are there. -/
def searchPath (s : Surroundings) (files : FileTree) (root : Path) : Text :=
  let own := (root.join ⟨"node_modules"⟩).join ⟨".bin"⟩ :: (s.userDir.map (·.join ⟨"bin"⟩)).toList
  [':'].intercalate ((own.filter fun p => (files.find p).toBool).map (·.spelling.toList) ++
    [Program.systemPath])

/-- The variables that a program is started with. -/
def bindings (s : Surroundings) (files : FileTree) (root : Path) : List (String × Text) :=
  ("PATH", s.searchPath files root) ::
    (s.userDir.map fun p => ("NPM_CONFIG_PREFIX", p.spelling.toList)).toList

/-- The program that a name stands for. -/
def locate (s : Surroundings) (files : FileTree) (root : Path) (name : String) :
    Except OsError Program :=
  match files.find root with
  | .error e => .error e
  | .ok (_, n) =>
    if !n.isDir then .error .notDirectory
    else Program.find files root (s.searchPath files root) name

/-- The program of a command and its arguments. -/
def launch (s : Surroundings) (files : FileTree) (command : List String) (root : Path) :
    Attempt (Program × List String) :=
  match command with
  | [] => .error (.config "tsserver.command cannot be empty")
  | name :: arguments =>
    let located :=
      if (root.spelling :: command).any (·.toList.contains '\x00') then .error .nulInCommand
      else s.locate files root name
    match located with
    | .ok p => .ok (p, arguments)
    | .error e =>
      .error (.io ("Failed to start tsserver '" ++ " ".intercalate command ++ "': " ++ e.message))

end Surroundings

end Refactor
