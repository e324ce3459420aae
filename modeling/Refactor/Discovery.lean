import Refactor.Report
import Refactor.Scan
import Refactor.Session.Basic
import Refactor.Wire.Body
import Refactor.Wire.Request

/-!
# Finding the files that a change may touch

The server only knows the files that it was shown. So before a change, each file
that it is about is opened, and so is each file that refers to it. If the server
cannot say which those are, the project is scanned and every source file that the
server does not know is opened. Nothing here fails; what was missed is told by
the status.
-/

namespace Refactor.Discovery

variable {σ : Type}

/-- What discovery depends on besides the session. -/
structure Scope where
  files : FileTree
  root : Path
  settings : DiscoverySettings
  /-- Whether the time of the scan for a target is up at its visits, by the target's index. -/
  late : Nat → Nat → Bool

/-- A path as seen from the project. -/
def absolute (root p : Path) : Path := if p.isAbsolute then p else root.join p

/-- The arguments that name a file. -/
def fileArgument (p : Path) : Json := .ofMembers [("file", .str (wirePath p))]

/-- Opens files in order; failures are passed over. -/
def openAll (S : Session σ) (files : FileTree) : List Path → StateM σ Unit
  | [] => return ()
  | p :: ps => do
    let _ ← S.openFile files p
    openAll S files ps

/-- The references of an answer, if it has any. -/
def references? : Attempt (Option Json) → Option (List Path)
  | .ok (some body) =>
    match FileReferences.decode body with
    | .ok b => some (b.refs.map Path.mk)
    | .error _ => none
  | _ => none

/-- Asks for the files that refer to a file, at most the given number of times. -/
def askReferences (S : Session σ) (interval : Nat) (target : Path) :
    Nat → StateM σ (Option (List Path))
  | 0 => return none
  | attempts + 1 => do
    match references? (← S.request "fileReferences" (some (fileArgument target))) with
    | some refs => return some refs
    | none =>
      if attempts = 0 then return none
      S.sleep interval
      askReferences S interval target attempts

/-- The project of an answer, if it has one. -/
def projectInfo? : Attempt (Option Json) → Option ProjectInfo
  | .ok (some body) => (ProjectInfo.decode body).toOption
  | _ => none

/-- Where a scan starts: the directory of the project's configuration if there is one, and the
root otherwise. -/
def scanRoot (s : Scope) (info : Option ProjectInfo) : Path :=
  match (info.bind (·.configFileName)).bind fun c => (Path.mk c).parent? with
  | some dir => if dir.isAbsolute && s.files.isDir dir then dir else s.root
  | none => s.root

/-- The files that the server knows of. -/
def knownFiles (info : Option ProjectInfo) : List Path :=
  ((info.bind (·.fileNames)).getD []).map Path.mk

/-- Opens every source file that the server does not know. Answers whether time ran out. -/
def openUnknown (S : Session σ) (s : Scope) (index : Nat) (target : Path) : StateM σ Bool := do
  let arguments := .ofMembers [("file", .str (wirePath target)), ("needFileNameList", .bool true)]
  let info := projectInfo? (← S.request "projectInfo" (some arguments))
  let found := Scan.scan s.files s.settings (s.late index) (scanRoot s info)
  let known := knownFiles info
  openAll S s.files (found.files.filter fun f => !f.same target && !known.any (f.same ·))
  return found.timedOut

/-- Opens a file and those that it concerns. Answers whether a scan ran out of time. -/
def openRelated (S : Session σ) (s : Scope) (index : Nat) (path : Path) : StateM σ Bool := do
  let target := absolute s.root path
  let _ ← S.openFile s.files target
  match ← askReferences S s.settings.attemptIntervalMs.toNat target
      s.settings.maxReferenceAttempts.toNat with
  | some refs =>
    openAll S s.files (refs.filter fun f => !f.same target)
    return false
  | none => openUnknown S s index target

/-- Opens files, from the one of an index on, and those that they concern. Answers whether any scan
ran out of time. -/
def openEach (S : Session σ) (s : Scope) : Nat → List Path → StateM σ Bool
  | _, [] => return false
  | index, p :: ps => do
    let late ← openRelated S s index p
    let later ← openEach S s (index + 1) ps
    return late || later

/-- Opens what a change to the given files may touch. -/
def discover (S : Session σ) (s : Scope) (paths : List Path) : StateM σ ProjectStatus := do
  let late ← openEach S s 0 paths
  return ⟨← S.isLoaded, late⟩

end Refactor.Discovery
