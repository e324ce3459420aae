import Refactor.Edit.Wire
import Refactor.Failure
import Refactor.Json.Writer

/-!
# Bodies of answers

What the server puts into the answers to the requests that are made of it: the
files that refer to a file, the files of a project, the places to rename, and
edits.
-/

namespace Refactor

open Json (Decoder Record)

/-- The files that refer to a file. -/
structure FileReferences where
  refs : List String
  symbolName : Option String
deriving DecidableEq, Repr

namespace FileReferences

def decodeReference : Decoder String := (Record.required "file" .string).decode "FileReference"

def decode : Decoder FileReferences :=
  Record.decode "FileReferencesBody"
    (mk <$> .defaulted "refs" decodeReference.list [] <*> .optional "symbolName" .string)

end FileReferences

/-- The project of a file. -/
structure ProjectInfo where
  configFileName : Option String
  fileNames : Option (List String)
deriving DecidableEq, Repr

namespace ProjectInfo

def decode : Decoder ProjectInfo :=
  Record.decode "ProjectInfoBody"
    (mk <$> .optional "configFileName" .string <*>
      .optional "fileNames" (Decoder.list .string))

end ProjectInfo

/-! ## Renaming -/

/-- A place to rename, with text to put around the new name. -/
structure RenameLocation where
  start : Location
  stop : Location
  prefixText : Option Text
  suffixText : Option Text
deriving DecidableEq, Repr

/-- The places to rename in one file. -/
structure RenameGroup where
  file : String
  locations : List RenameLocation
deriving DecidableEq, Repr

/-- The answer to a request to rename. -/
structure RenameBody where
  canRename : Bool
  reason : Option String
  displayName : Option String
  groups : List RenameGroup
deriving DecidableEq, Repr

namespace RenameBody

def decodeLocation : Decoder RenameLocation :=
  Record.decode "RenameLocation"
    (RenameLocation.mk <$> .required "start" Location.decode <*> .required "end" Location.decode <*>
      .optional "prefixText" .text <*> .optional "suffixText" .text)

def decodeGroup : Decoder RenameGroup :=
  Record.decode "SpanGroup"
    (RenameGroup.mk <$> .required "file" .string <*> .required "locs" decodeLocation.list)

def decodeInfo : Decoder (Bool × Option String × Option String) :=
  Record.decode "RenameInfo"
    ((fun can reason name => (can, reason, name)) <$> .required "canRename" .bool <*>
      .optional "localizedErrorMessage" .string <*> .optional "displayName" .string)

def decode : Decoder RenameBody :=
  Record.decode "RenameBody"
    ((fun (can, reason, name) groups => mk can reason name groups) <$>
      .required "info" decodeInfo <*> .defaulted "locs" decodeGroup.list [])

/-- The change that renames one place. -/
def locationEdit (newName : Text) (l : RenameLocation) : CodeEdit :=
  ⟨l.start, l.stop, l.prefixText.getD [] ++ newName ++ l.suffixText.getD []⟩

/-- The changes that rename every place, unless the server says that it cannot be done. -/
def edits (b : RenameBody) (newName : Text) : Attempt (List FileEdits) :=
  if b.canRename then
    .ok (b.groups.map fun g => ⟨g.file, g.locations.map (locationEdit newName), false⟩)
  else .error (.server "rename" (b.reason.getD "This symbol cannot be renamed"))

end RenameBody

/-! ## Edits -/

/-- The edits of an answer: a list of them, or an object that has the list; no body and null are
no edits. -/
def fileEditsOfBody : Option Json → Attempt (List FileEdits)
  | none | some .null => .ok []
  | some (.arr items) => (FileEdits.decode.list (.arr items)).mapError .ofDecode
  | some (.obj ms) =>
    match ms.lookup "edits" with
    | some v => (FileEdits.decode.list v).mapError .ofDecode
    | none => .error (.protocol "response body has no 'edits' field")
  | some v => .error (.protocol ("unexpected edit response body: " ++ v.compact))

end Refactor
