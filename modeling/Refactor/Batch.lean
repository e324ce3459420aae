import Refactor.FileTree.Access
import Refactor.Lock
import Refactor.Report
import Refactor.SourceText

/-!
# Applying a batch of edits

A batch holds edits for several files. Edits of one file are brought together,
whatever the spellings of its path, and files are taken in the order of their
paths. All files are read and edited in memory before the first is written, so a
batch with a bad edit changes nothing. The first file that cannot be written stops
the batch.
-/

namespace Refactor

/-- How a batch is applied. -/
structure ApplyOptions where
  /-- Only say what would change. -/
  preview : Bool := false
  status : ProjectStatus := .healthy
  /-- What caveats call the operation. -/
  context : String := "the operation"
  /-- Fit generated code to the indentation of the file. -/
  normalize : Bool := false

namespace Batch

/-- The edits of one file. -/
structure Pending where
  path : Path
  edits : List TextEdit
  isNew : Bool
deriving DecidableEq, Repr

/-- One file after its edits. -/
structure Computed where
  path : Path
  text : SourceText
  record : ChangeRecord
  isNew : Bool
deriving DecidableEq, Repr

/-- The path that a file of a batch is known by: the canonical one if the file is there. -/
def resolvePath (t : FileTree) (root : Path) (fileName : String) : Path :=
  let p : Path := ⟨fileName⟩
  t.canonicalOr (if p.isAbsolute then p else root.join p)

/-- Adds edits of a file to those there are, in the order of paths. -/
def insert (path : Path) (edits : List TextEdit) (isNew : Bool) : List Pending → List Pending
  | [] => [⟨path, edits, isNew⟩]
  | p :: ps =>
    match path.compare p.path with
    | .lt => ⟨path, edits, isNew⟩ :: p :: ps
    | .eq => ⟨p.path, p.edits ++ edits, p.isNew || isNew⟩ :: ps
    | .gt => p :: insert path edits isNew ps

/-- Whether an entry of a batch asks for anything. -/
def isRelevant (f : FileEdits) : Bool := !f.changes.isEmpty || f.isNew

/-- The edits of a batch by file. -/
def group (t : FileTree) (root : Path) (fs : List FileEdits) : List Pending :=
  (fs.filter isRelevant).foldl
    (fun ps f => insert (resolvePath t root f.fileName) f.flat f.isNew ps) []

/-- The text of a file; a new file that is not there yet is empty. -/
def readSource (t : FileTree) (path : Path) (isNew : Bool) : Attempt SourceText :=
  match t.readText path with
  | .ok s => .ok (.parse s.toList)
  | .error e => if isNew ∧ e = .notFound then .ok (.parse []) else .error (.ioAt path e)

/-- Edits one file in memory. -/
def compute (t : FileTree) (normalize : Bool) (p : Pending) : Attempt Computed :=
  match readSource t p.path p.isNew with
  | .error e => .error e
  | .ok source =>
    match source.edit normalize p.edits p.path with
    | .ok (text, record) => .ok ⟨p.path, text, record, p.isNew⟩
    | .error e => .error (.invalidEdit (e.message ++ " in " ++ p.path.spelling))

/-- Edits files in memory; the first that fails fails them all. -/
def computeAll (t : FileTree) (normalize : Bool) : List Pending → Attempt (List Computed)
  | [] => .ok []
  | p :: ps =>
    match compute t normalize p with
    | .error e => .error e
    | .ok c =>
      match computeAll t normalize ps with
      | .error e => .error e
      | .ok cs => .ok (c :: cs)

/-- The directory of a new file, made if it is not there. -/
def prepareDir (t : FileTree) (c : Computed) : FileTree × Attempt Unit :=
  match c.isNew, c.path.parent? with
  | true, some dir =>
    match t.makeDirs dir with
    | (t, .ok _) => (t, .ok ())
    | (t, .error e) => (t, .error (.ioAt dir e))
  | _, _ => (t, .ok ())

/-- Writes one file. -/
def writeFile (t : FileTree) (c : Computed) : FileTree × Attempt Unit :=
  match prepareDir t c with
  | (t, .error e) => (t, .error e)
  | (t, .ok _) =>
    match t.write c.path (Bytes.ofString (String.ofList c.text.join)) with
    | (t, .ok _) => (t, .ok ())
    | (t, .error e) => (t, .error (.ioAt c.path e))

/-- Writes files in turn, up to the first that fails. -/
def writeAll : FileTree → List Computed → FileTree × Attempt Unit
  | t, [] => (t, .ok ())
  | t, c :: cs =>
    match writeFile t c with
    | (t, .ok _) => writeAll t cs
    | (t, .error e) => (t, .error e)

/-- Applies a batch by file. -/
def run (t : FileTree) (options : ApplyOptions) (ps : List Pending) :
    FileTree × Attempt (List ChangeRecord) :=
  match computeAll t options.normalize ps with
  | .error e => (t, .error e)
  | .ok cs =>
    if options.preview then (t, .ok (cs.map (·.record)))
    else
      match writeAll t cs with
      | (t, .ok _) => (t, .ok (cs.map (·.record)))
      | (t, .error e) => (t, .error e)

/-- What a batch did, in one sentence. -/
def summary (preview : Bool) (edits files : Nat) : String :=
  let counts := toString edits ++ " edit(s) in " ++ toString files ++ " file(s)"
  if edits = 0 ∧ files = 0 then "No changes needed"
  else if preview then "Preview: " ++ counts ++ "; no files were modified"
  else "Applied " ++ counts

/-- The report of a batch that worked. -/
def summarize (options : ApplyOptions) (records : List ChangeRecord) : Report :=
  ((Report.ok (summary options.preview (ChangeRecord.countAll records) records.length)
    records).withPreview options.preview).withWarning (options.status.caveat options.context)

/-- The report of a batch. -/
def reportOf (options : ApplyOptions) : Attempt (List ChangeRecord) → Report
  | .ok records => summarize options records
  | .error e => .ofFailure e

end Batch

/-- The files of a project and the locks on them. -/
structure Workspace where
  files : FileTree
  locks : Locks := {}

/-- Applies a batch of edits, holding the locks of all its files. -/
def Workspace.apply (w : Workspace) (root : Path) (options : ApplyOptions) (fs : List FileEdits) :
    Workspace × Report :=
  let pending := Batch.group w.files root fs
  let (guards, locks) := w.locks.holdAll (pending.map fun p => Locks.keyOf w.files p.path)
  let (files, outcome) := Batch.run w.files options pending
  (⟨files, locks.releaseAll guards⟩, Batch.reportOf options outcome)

end Refactor
