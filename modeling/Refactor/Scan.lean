import Refactor.FileTree.Resolve
import Refactor.Settings.Basic

/-!
# Scanning for source files

A scan walks a directory depth first, the entries of each directory by name, and
collects the source files. Directories whose name starts with a dot or is on the
skip list are passed over, and so are links, except that the walk starts where
its first path leads. A scan stops when its time is up; what it has found by
then is the start of what it would have found.
-/

namespace Refactor.Scan

/-- Something that a walk comes to. -/
structure Visit where
  path : Path
  isFile : Bool
deriving DecidableEq, Repr

/-- Whether a directory of this name is passed over. -/
def isSkipped (skipDirs : List String) (name : String) : Bool :=
  name.toList.head? == some '.' || skipDirs.contains name

/-- Endings of files that hold declarations only. -/
def declarationEndings : List String := [".d.ts", ".d.mts", ".d.cts"]

/-- Whether a file of this name holds source code. -/
def isSource (extensions : List String) (name : String) : Bool :=
  !declarationEndings.any (fun e => e.toList.isSuffixOf name.toList) &&
    match Path.extensionOf? name with
    | some e => extensions.contains e
    | none => false

def isFile : Node → Bool
  | .file _ _ => true
  | _ => false

mutual

/-- What a walk comes to below a node. -/
def below (skipDirs : List String) (path : Path) : Node → List Visit
  | .dir entries =>
    ((ofEntries skipDirs path entries).mergeSort fun a b => decide (a.1 ≤ b.1)).flatMap (·.2)
  | _ => []

/-- What a walk comes to for each entry of a directory. -/
def ofEntries (skipDirs : List String) (path : Path) : List (String × Node) →
    List (String × List Visit)
  | [] => []
  | (name, n) :: rest =>
    let here := path.join ⟨name⟩
    (name, if n.isDir && isSkipped skipDirs name then [] else ⟨here, isFile n⟩ :: below skipDirs here n)
      :: ofEntries skipDirs path rest

end

/-- What a walk from a path comes to, in order. A path that leads nowhere is come to as well. -/
def visits (t : FileTree) (skipDirs : List String) (start : Path) : List Visit :=
  match t.find start with
  | .ok (_, n) => ⟨start, isFile n⟩ :: below skipDirs start n
  | .error _ => [⟨start, false⟩]

/-- Whether a visit is to a source file. -/
def Visit.isSource (extensions : List String) (v : Visit) : Bool :=
  v.isFile && match v.path.fileName? with
    | some name => Scan.isSource extensions name
    | none => false

/-- What a scan found. -/
structure Outcome where
  files : List Path
  timedOut : Bool
deriving DecidableEq, Repr

/-- Collects source files from visits until the time is up; `late i` says whether it is at the
visit of index `i`. -/
def collect (extensions : List String) (late : Nat → Bool) : Nat → List Visit → Outcome
  | _, [] => ⟨[], false⟩
  | i, v :: vs =>
    if late i then ⟨[], true⟩
    else
      let rest := collect extensions late (i + 1) vs
      if v.isSource extensions then ⟨v.path :: rest.files, rest.timedOut⟩ else rest

/-- The source files below a path. -/
def scan (t : FileTree) (s : DiscoverySettings) (late : Nat → Bool) (start : Path) : Outcome :=
  collect s.extensions late 0 (visits t s.skipDirs start)

/-- A clock on which walking takes no time: only a limit of zero is ever reached. -/
def instantClock (s : DiscoverySettings) : Nat → Bool := fun _ => s.scanTimeoutMs == 0

end Refactor.Scan
