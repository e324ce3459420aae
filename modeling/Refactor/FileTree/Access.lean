import Refactor.FileTree.Resolve

/-!
# Reading and writing files

Operations on a tree by path, each with the errors that the operating system
gives. An operation that fails leaves the tree as it was, with two exceptions:
making directories keeps those it made before it failed, and a write that fails
after it opened the file can leave any content there (`Faults`).
-/

namespace Refactor.FileTree

/-- The bytes of a file. -/
def read (t : FileTree) (p : Path) : Except OsError Bytes :=
  match t.find p with
  | .ok (loc, .file content _) =>
    match t.faults.reading loc with
    | none => .ok content
    | some e => .error e.1
  | .ok (_, _) => .error .isDirectory
  | .error e => .error e

/-- The text of a file. -/
def readText (t : FileTree) (p : Path) : Except OsError String :=
  match t.read p with
  | .ok bytes =>
    match bytes.toString? with
    | some s => .ok s
    | none => .error .notText
  | .error e => .error e

/-- Stores a content in the file at a location. -/
def store (t : FileTree) (loc : List String) (content : Bytes) (executable : Bool) :
    FileTree × Except OsError Unit :=
  match t.faults.writing loc with
  | none => (t.set loc (.file content executable), .ok ())
  | some ⟨e, none⟩ => (t, .error e)
  | some ⟨e, some left⟩ => (t.set loc (.file left executable), .error e)

/-- Gives a file a content. The file is made if it is not there, through a link too. -/
def write (t : FileTree) (p : Path) (content : Bytes) : FileTree × Except OsError Unit :=
  match t.resolve true p with
  | .error e => (t, .error e)
  | .ok (.found _ _ true) | .ok (.vacant _ _ true) => (t, .error .isDirectory)
  | .ok (.found loc (.file _ x) false) => t.store loc content x
  | .ok (.found _ _ false) => (t, .error .isDirectory)
  | .ok (.vacant dir name false) => t.store (dir ++ [name]) content false

/-- Makes one directory. -/
def makeDir (t : FileTree) (p : Path) : Except OsError FileTree :=
  match t.resolve false p with
  | .error e => .error e
  | .ok (.found _ _ _) => .error .alreadyExists
  | .ok (.vacant dir name _) =>
    match t.faults.making (dir ++ [name]) with
    | none => .ok (t.set (dir ++ [name]) (.dir []))
    | some e => .error e

/-- Makes a directory unless it is there. -/
def ensureDir (t : FileTree) (p : Path) : FileTree × Except OsError Unit :=
  match t.makeDir p with
  | .ok t => (t, .ok ())
  | .error e => if t.isDir p then (t, .ok ()) else (t, .error e)

/-- Makes a directory and those that it lies in, at most `fuel` of them. -/
def makeDirsWithin : Nat → FileTree → Path → FileTree × Except OsError Unit
  | 0, t, p => t.ensureDir p
  | fuel + 1, t, p =>
    if p.spelling.isEmpty then (t, .ok ())
    else
      match t.makeDir p with
      | .ok t => (t, .ok ())
      | .error e =>
        if e = .notFound then
          match p.parent? with
          | none => (t, .error e)
          | some q =>
            match makeDirsWithin fuel t q with
            | (t, .ok _) => t.ensureDir p
            | (t, .error e) => (t, .error e)
        else if t.isDir p then (t, .ok ())
        else (t, .error e)

/-- Makes a directory and those that it lies in. -/
def makeDirs (t : FileTree) (p : Path) : FileTree × Except OsError Unit :=
  makeDirsWithin p.spelling.length t p

/-- Puts a link at a path where nothing is. -/
def makeLink (t : FileTree) (p : Path) (target : String) : Except OsError FileTree :=
  match t.resolve false p with
  | .error e => .error e
  | .ok (.found _ _ _) => .error .alreadyExists
  | .ok (.vacant dir name _) => .ok (t.set (dir ++ [name]) (.link target))

/-- Lets a file be run. -/
def makeExecutable (t : FileTree) (p : Path) : FileTree :=
  match t.find p with
  | .ok (loc, .file content _) => t.set loc (.file content true)
  | _ => t

/-- Removes what a path leads to, a link itself rather than its target. -/
def remove (t : FileTree) (p : Path) : FileTree :=
  match t.resolve false p with
  | .ok (.found loc _ _) => t.erase loc
  | _ => t

end Refactor.FileTree
