import Refactor.FileTree.Basic
import Refactor.OsError
import Refactor.Path

/-!
# Resolving paths

A path is followed step by step from the root or the working directory. A link
on the way is replaced by its target, at most forty times. The outcome is a
place: a node with its location, or a free name in a directory.

A slash at the end of a path asks for a directory; what that means for a file is
up to the operation, so the place keeps it.
-/

namespace Refactor

/-- One step along a path. -/
inductive Route.Step where
  | here
  | up
  | name (n : String)
deriving DecidableEq, Repr

/-- A path as steps. -/
structure Route where
  absolute : Bool
  steps : List Route.Step
  /-- Whether the path ends in a slash. -/
  slash : Bool
deriving DecidableEq, Repr

namespace Route

/-- The step of a piece between slashes. -/
def stepOf? (piece : Text) : Option Step :=
  if piece = [] then none
  else if piece = ['.'] then some .here
  else if piece = ['.', '.'] then some .up
  else some (.name (String.ofList piece))

/-- The steps of a spelled path. -/
def ofSpelling (s : String) : Route :=
  let t := s.toList
  { absolute := t.head? == some '/'
    steps := (Text.pieces '/' t).filterMap stepOf?
    slash := t.getLast? == some '/' }

end Route

namespace FileTree

/-- Where a path leads. -/
inductive Place where
  /-- To a node at a location. -/
  | found (loc : List String) (node : Node) (slash : Bool)
  /-- To a name that the directory at a location does not have. -/
  | vacant (dir : List String) (name : String) (slash : Bool)

/-- The longest name, in bytes. -/
def nameLimit : Nat := 255

/-- The longest path, in bytes. -/
def pathLimit : Nat := 4095

/-- The most links followed for one path. -/
def linkLimit : Nat := 40

/-- Follows steps from a directory. A link at the very end is followed if `follow` is set. -/
def walk (t : FileTree) (follow : Bool) (links : Nat) (cur : List String)
    (steps : List Route.Step) (slash : Bool) : Except OsError Place :=
  match steps with
  | [] => .ok (.found cur ((t.get? cur).getD (.dir [])) slash)
  | .here :: rest => walk t follow links cur rest slash
  | .up :: rest => walk t follow links cur.dropLast rest slash
  | .name n :: rest =>
    if nameLimit < n.utf8ByteSize then .error .nameTooLong
    else
      match t.get? (cur ++ [n]) with
      | none => if rest.isEmpty then .ok (.vacant cur n slash) else .error .notFound
      | some (.dir _) => walk t follow links (cur ++ [n]) rest slash
      | some (.file content x) =>
        if rest.isEmpty then .ok (.found (cur ++ [n]) (.file content x) slash)
        else .error .notDirectory
      | some (.link target) =>
        if rest.isEmpty && !follow && !slash then .ok (.found (cur ++ [n]) (.link target) slash)
        else
          match links with
          | 0 => .error .tooManyLinks
          | links + 1 =>
            let r := Route.ofSpelling target
            walk t follow links (if r.absolute then [] else cur) (r.steps ++ rest)
              (slash || (rest.isEmpty && r.slash))
termination_by (links, steps.length)

/-- The directory that a route starts from. -/
def start (t : FileTree) (r : Route) : List String := if r.absolute then [] else t.workingDir

/-- Follows a path step by step, however long its spelling is. From a working directory that is
gone it leads nowhere. -/
def trace (t : FileTree) (follow : Bool) (p : Path) : Except OsError Place :=
  if p.spelling.isEmpty then .error .notFound
  else if p.spelling.toList.contains '\x00' then .error .nulInPath
  else
    let r := Route.ofSpelling p.spelling
    if (t.get? (t.start r)).any Node.isDir then t.walk follow linkLimit (t.start r) r.steps r.slash
    else .error .notFound

/-- Follows a path that is handed over as a whole, so that its spelling is limited. -/
def resolve (t : FileTree) (follow : Bool) (p : Path) : Except OsError Place :=
  if pathLimit < p.spelling.utf8ByteSize && !p.spelling.toList.contains '\x00' then
    .error .nameTooLong
  else t.trace follow p

/-- The node at a place, with its location. A slash at the end asks for a directory. -/
def Place.node : Place → Except OsError (List String × Node)
  | .vacant _ _ _ => .error .notFound
  | .found loc n slash => if slash && !n.isDir then .error .notDirectory else .ok (loc, n)

/-- The node that a path leads to, with its location. -/
def find (t : FileTree) (p : Path) : Except OsError (List String × Node) :=
  match t.resolve true p with
  | .error e => .error e
  | .ok place => place.node

/-- The path of a location. -/
def pathOf (loc : List String) : Path := ⟨"/" ++ "/".intercalate loc⟩

/-- The one path of a file that has neither links nor dots in it. It is found step by step, so
only this path is limited, and not the one that is asked for. -/
def canonical (t : FileTree) (p : Path) : Except OsError Path :=
  match t.trace true p with
  | .error e => .error e
  | .ok place =>
    match place.node with
    | .error e => .error e
    | .ok (loc, _) =>
      if pathLimit < (pathOf loc).spelling.utf8ByteSize then .error .nameTooLong
      else .ok (pathOf loc)

/-- The canonical path of a file that is there, and the path itself otherwise. -/
def canonicalOr (t : FileTree) (p : Path) : Path :=
  match t.canonical p with
  | .ok q => q
  | .error _ => p

/-- Whether a path leads to a directory. -/
def isDir (t : FileTree) (p : Path) : Bool :=
  match t.find p with
  | .ok (_, n) => n.isDir
  | .error _ => false

end FileTree

end Refactor
