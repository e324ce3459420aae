import Refactor.Edit.Wire
import Refactor.Failure

/-!
# Reports

The outcome of an operation as it is shown to a caller: whether it worked, a
message, advice, and the log of every changed file.
-/

namespace Refactor

open Json (Decoder Record)

/-- The outcome of an operation. -/
structure Report where
  success : Bool
  message : String
  suggestion : Option String := none
  files : List ChangeRecord := []
  preview : Bool := false
deriving DecidableEq, Repr

/-- How much of the project was seen. It decides caveats only, never edits. -/
structure ProjectStatus where
  isFullyLoaded : Bool
  didScanTimeout : Bool
deriving DecidableEq, Repr

namespace ProjectStatus

/-- Everything was seen. -/
def healthy : ProjectStatus := ⟨true, false⟩

def isHealthy (s : ProjectStatus) : Bool := s.isFullyLoaded && !s.didScanTimeout

/-- The caveats that go with a status, for an operation called `context`. -/
def caveat (s : ProjectStatus) (context : String) : String :=
  " ".intercalate
    ((if s.isFullyLoaded then [] else
      ["Warning: TypeScript is still indexing the project, so " ++ context ++ " may be incomplete."])
    ++ (if s.didScanTimeout then
      ["Warning: file discovery timed out before the whole project was scanned; " ++
        "files outside the scanned area may not be reflected in " ++ context ++ "."] else []))

def decode : Decoder ProjectStatus :=
  Record.decode "ProjectStatus"
    (mk <$> .required "isFullyLoaded" .bool <*> .required "didScanTimeout" .bool)

def toJson (s : ProjectStatus) : Json :=
  .ofMembers [("isFullyLoaded", .bool s.isFullyLoaded), ("didScanTimeout", .bool s.didScanTimeout)]

end ProjectStatus

namespace Report

/-- An operation that worked. -/
def ok (message : String) (files : List ChangeRecord) : Report :=
  { success := true, message := message, files := files }

/-- An operation that did not. -/
def failed (message : String) : Report := { success := false, message := message }

def withSuggestion (r : Report) (s : String) : Report := { r with suggestion := some s }

def withPreview (r : Report) (p : Bool) : Report := { r with preview := p }

/-- Adds a caveat below the message; an empty one adds nothing. -/
def withWarning (r : Report) (w : String) : Report :=
  if w.isEmpty then r else { r with message := r.message ++ "\n\n" ++ w }

/-- The report of a failure. -/
def ofFailure (e : Failure) : Report := { failed e.message with suggestion := e.suggestion? }

/-- The number of logged edits. -/
def totalEdits (r : Report) : Nat := ChangeRecord.countAll r.files

/-- A log entry as lines of text. -/
def renderEntry (e : LogEntry) : String :=
  let place := match e.column with
    | some c => toString e.line.toNat ++ ":" ++ toString c.toNat
    | none => toString e.line.toNat
  "  " ++ place ++ "\n    - " ++ String.ofList e.oldText ++ "\n    + " ++ String.ofList e.newText ++
    "\n"

/-- A file's log as lines of text. -/
def renderFile (f : ChangeRecord) : String :=
  "\n" ++ f.fileName ++ " (" ++ f.path.spelling ++ ")\n" ++ String.join (f.entries.map renderEntry)

/-- The report as plain text. -/
def render (r : Report) : String :=
  (if r.success then "✅ " else "❌ ") ++ r.message ++ "\n" ++
    (match r.suggestion with
      | some s => "Suggestion: " ++ s ++ "\n"
      | none => "") ++
    String.join (r.files.map renderFile)

def record : Record Report :=
  mk <$> .required "success" .bool <*> .required "message" .string <*>
    .nullable "suggestion" .string <*> .defaulted "files" ChangeRecord.decode.list [] <*>
    .defaulted "preview" .bool false

def decode : Decoder Report := record.decode "OperationResult"

def toJson (r : Report) : Json :=
  .ofMembers ([("success", .bool r.success), ("message", .str r.message),
    ("preview", .bool r.preview)]
    ++ (r.suggestion.toList.map fun s => ("suggestion", .str s))
    ++ (if r.files.isEmpty then [] else [("files", .arr (r.files.map ChangeRecord.toJson))]))

end Report

end Refactor
