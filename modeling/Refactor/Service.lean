import Refactor.Batch
import Refactor.Discovery
import Refactor.Readiness

/-!
# Refactorings

An operation waits for the project, opens the files it may touch, asks the
server once, and applies the edits of the answer. Whatever goes wrong before
edits are applied leaves the files alone.
-/

namespace Refactor

/-- What operations on a project share. -/
structure Service (σ : Type) where
  session : Session σ
  root : Path
  settings : Settings
  /-- Whether the time of the scan for a target is up at its visits, by the target's index. -/
  late : Nat → Nat → Bool

/-- How the edits of a command are applied. -/
structure CommandOptions where
  preview : Bool := false
  context : String := "the operation"
  normalize : Bool := false

namespace Service

variable {σ : Type}

/-- A path as seen from the project. -/
def absolute (s : Service σ) (p : Path) : Path := Discovery.absolute s.root p

def scope (s : Service σ) (files : FileTree) : Discovery.Scope :=
  ⟨files, s.root, s.settings.discovery, s.late⟩

/-- Waits for the project as long as the settings say. -/
def ensureReady (s : Service σ) : StateM σ (Except NotReady Unit) :=
  Readiness.ensureReady s.session s.root s.settings.readiness.pollIntervalMs.toNat
    s.settings.readiness.timeoutMs.toNat

/-- Opens what a change to the targets may touch. -/
def discover (s : Service σ) (files : FileTree) (targets : List Path) : StateM σ ProjectStatus :=
  Discovery.discover s.session (s.scope files) targets

/-- Waits, opens files, asks, and reads the edits of the answer. -/
def obtainEdits (s : Service σ) (files : FileTree) (targets : List Path) (command : String)
    (arguments : Json) (decode : Option Json → Attempt (List FileEdits)) :
    StateM σ (Except Report (ProjectStatus × List FileEdits)) := do
  match ← s.ensureReady with
  | .error e => return .error e.report
  | .ok _ =>
    let status ← s.discover files targets
    match ← s.session.request command (some arguments) with
    | .error e => return .error (.ofFailure e)
    | .ok body =>
      match decode body with
      | .error e => return .error (.ofFailure e)
      | .ok edits => return .ok (status, edits)

/-- Applies obtained edits, or reports why there are none. -/
def applyObtained (s : Service σ) (w : Workspace) (options : CommandOptions) :
    Except Report (ProjectStatus × List FileEdits) → Workspace × Report
  | .error report => (w, report)
  | .ok (status, edits) =>
    w.apply s.root ⟨options.preview, status, options.context, options.normalize⟩ edits

/-- Runs a command whose answer is edits. -/
def runCommand (s : Service σ) (w : Workspace) (command : String) (arguments : Json)
    (targets : List Path) (options : CommandOptions) : StateM σ (Workspace × Report) := do
  let obtained ← s.obtainEdits w.files targets command arguments fileEditsOfBody
  return s.applyObtained w options obtained

/-- The edits of the answer to a request to rename. -/
def renameEdits (newName : Text) : Option Json → Attempt (List FileEdits)
  | none => .error (.protocol "rename response has no body")
  | some body =>
    match RenameBody.decode body with
    | .ok b => b.edits newName
    | .error e => .error (.ofDecode e)

/-- Renames what stands at a place in a file. -/
def rename (s : Service σ) (w : Workspace) (file : Path) (line offset : UInt32) (newName : Text)
    (preview : Bool) : StateM σ (Workspace × Report) := do
  let file := s.absolute file
  let arguments := .ofMembers [("file", .str (wirePath file)), ("line", .nat line.toNat),
    ("offset", .nat offset.toNat), ("findInComments", .bool false), ("findInStrings", .bool false)]
  let obtained ← s.obtainEdits w.files [file] "rename" arguments (renameEdits newName)
  return s.applyObtained w ⟨preview, "the rename", false⟩ obtained

/-- Runs a refactoring on a range of a file. What it generates is fitted to the file's
indentation. -/
def refactor (s : Service σ) (w : Workspace) (file : Path) (start stop : Location)
    (refactoring action : String) (preview : Bool) : StateM σ (Workspace × Report) :=
  let file := s.absolute file
  let arguments := .ofMembers [("file", .str (wirePath file)), ("startLine", .nat start.line.toNat),
    ("startOffset", .nat start.offset.toNat), ("endLine", .nat stop.line.toNat),
    ("endOffset", .nat stop.offset.toNat), ("refactor", .str refactoring), ("action", .str action)]
  s.runCommand w "getEditsForRefactor" arguments [file] ⟨preview, "the refactoring", true⟩

end Service

end Refactor
