import Refactor.FileTree.Access

/-!
# Programs

Everything that runs is a program of the system in the end. An executable file
names in its first line the program that interprets it, with at most one argument
of its own; that program may be such a file too. A file that names none is
interpreted by the shell.

A name with a slash in it is a path. Any other name is looked for in the
directories of a search path, one after another. A file there that may not be run
is passed over, but if nothing else is found it decides the error.
-/

namespace Refactor

/-- A program of the system, and the arguments that it gets ahead of those of a command. -/
structure Program where
  tool : String
  arguments : List String := []
deriving DecidableEq, Repr

namespace Program

/-- The programs of the system. -/
def tools : List String :=
  ["sh", "cat", "touch", "sleep", "cut", "sed", "pwd", "env", "true", "false", "echo", "printf",
    "test", "["]

/-- Directories in which the system has its programs. -/
def toolDirs : List (List String) := [["bin"], ["usr", "bin"]]

/-- The search path of the system. -/
def systemPath : Text := "/usr/local/sbin:/usr/local/bin:/usr/sbin:/usr/bin:/sbin:/bin".toList

def isBlank (c : Char) : Bool := c == ' ' || c == '\t'

/-- The interpreter that a file names in its first line, and an argument for it. -/
def interpreter? (content : Bytes) : Option (String × Option String) :=
  match (content.toString?.getD "").toList with
  | '#' :: '!' :: t =>
    let line := (t.takeWhile (· != '\n')).dropWhile isBlank
    let line := (line.reverse.dropWhile isBlank).reverse
    let name := line.takeWhile (!isBlank ·)
    let argument := (line.drop name.length).dropWhile isBlank
    if name.isEmpty then none
    else some (String.ofList name, if argument.isEmpty then none else some (String.ofList argument))
  | _ => none

/-- How many interpreters may stand behind one another. -/
def interpreterLimit : Nat := 5

/-- The program at a path, as seen from a directory, with a number of interpreters to go. -/
def ofPathWithin (files : FileTree) (dir : Path) : Nat → Path → Except OsError Program
  | 0, _ => .error .tooManyLinks
  | limit + 1, p =>
    match files.resolve true (dir.join p) with
    | .error e => .error e
    | .ok (.vacant d name slash) =>
      if !slash && toolDirs.contains d && tools.contains name then .ok ⟨name, []⟩
      else .error .notFound
    | .ok (.found _ (.file content true) false) =>
      match interpreter? content with
      | none => .ok ⟨"sh", [p.spelling]⟩
      | some (name, argument) =>
        match ofPathWithin files dir limit ⟨name⟩ with
        | .ok i => .ok ⟨i.tool, i.arguments ++ argument.toList ++ [p.spelling]⟩
        | .error e => .error e
    | .ok (.found _ (.file _ _) true) => .error .notDirectory
    | .ok (.found _ _ _) => .error .denied

/-- The program at a path, as seen from a directory. -/
def ofPath (files : FileTree) (dir p : Path) : Except OsError Program :=
  ofPathWithin files dir interpreterLimit p

/-- The first program of a name in directories, after an error so far. -/
def searchIn (files : FileTree) (dir : Path) (name : String) (soFar : OsError) :
    List Path → Except OsError Program
  | [] => .error soFar
  | d :: ds =>
    match ofPath files dir (d.join ⟨name⟩) with
    | .ok p => .ok p
    | .error e =>
      if e = .denied then searchIn files dir name .denied ds
      else if e = .notFound ∨ e = .notDirectory then
        searchIn files dir name (if soFar = .denied then .denied else e) ds
      else .error e

/-- The program that a name stands for. -/
def find (files : FileTree) (dir : Path) (searchPath : Text) (name : String) :
    Except OsError Program :=
  if name.isEmpty then .error .notFound
  else if name.toList.contains '/' then ofPath files dir ⟨name⟩
  else if FileTree.nameLimit < name.utf8ByteSize then .error .nameTooLong
  else
    searchIn files dir name .notFound
      ((Text.pieces ':' searchPath).map fun t => ⟨String.ofList t⟩)

end Program

end Refactor
