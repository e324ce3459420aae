import Refactor.Edit.Basic
import Refactor.Json.Decode

/-!
# Edits as JSON

Encoding and decoding of edits and their logs. What is absent, empty or false by
default is left out of the encoding and put back by the decoding.
-/

namespace Refactor

open Json (Decoder Record)

/-- A text as a JSON string. -/
def Json.ofText (t : Text) : Json := .str (String.ofList t)

namespace Location

def record : Record Location :=
  mk <$> .required "line" .word <*> .required "offset" .word

def decode : Decoder Location := record.decode "Location"

def toJson (l : Location) : Json :=
  .ofMembers [("line", .nat l.line.toNat), ("offset", .nat l.offset.toNat)]

end Location

namespace CodeEdit

def record : Record CodeEdit :=
  mk <$> .required "start" Location.decode <*> .required "end" Location.decode <*>
    .defaulted "newText" .text []

def decode : Decoder CodeEdit := record.decode "CodeEdit"

def toJson (e : CodeEdit) : Json :=
  .ofMembers [("start", e.start.toJson), ("end", e.stop.toJson), ("newText", .ofText e.newText)]

end CodeEdit

namespace FileEdits

def record : Record FileEdits :=
  mk <$> .required "fileName" .string <*> .defaulted "textChanges" CodeEdit.decode.list [] <*>
    .defaulted "isNewFile" .bool false

def decode : Decoder FileEdits := record.decode "FileCodeEdits"

def toJson (f : FileEdits) : Json :=
  .ofMembers ([("fileName", .str f.fileName), ("textChanges", .arr (f.changes.map CodeEdit.toJson))]
    ++ if f.isNew then [("isNewFile", .bool true)] else [])

end FileEdits

namespace TextEdit

def record : Record TextEdit :=
  mk <$> .required "startLine" .word <*> .required "startOffset" .word <*>
    .required "endLine" .word <*> .required "endOffset" .word <*> .required "newText" .text

def decode : Decoder TextEdit := record.decode "TextEdit"

def toJson (e : TextEdit) : Json :=
  .ofMembers [("startLine", .nat e.startLine.toNat), ("startOffset", .nat e.startOffset.toNat),
    ("endLine", .nat e.endLine.toNat), ("endOffset", .nat e.endOffset.toNat),
    ("newText", .ofText e.newText)]

end TextEdit

namespace LogEntry

def record : Record LogEntry :=
  mk <$> .required "line" .word <*> .nullable "column" .word <*> .required "oldText" .text <*>
    .required "newText" .text

def decode : Decoder LogEntry := record.decode "EditLogEntry"

def toJson (e : LogEntry) : Json :=
  .ofMembers ([("line", .nat e.line.toNat), ("oldText", .ofText e.oldText),
    ("newText", .ofText e.newText)] ++ e.column.toList.map fun c => ("column", .nat c.toNat))

end LogEntry

namespace ChangeRecord

/-- A path as a JSON string. -/
def decodePath : Decoder Path := fun v => (Decoder.stringAs "path string" v).map Path.mk

def record : Record ChangeRecord :=
  mk <$> .required "fileName" .string <*> .required "path" decodePath <*>
    .required "edits" LogEntry.decode.list

def decode : Decoder ChangeRecord := record.decode "FileChangeRecord"

def toJson (r : ChangeRecord) : Json :=
  .ofMembers [("fileName", .str r.fileName), ("path", .str r.path.spelling),
    ("edits", .arr (r.entries.map LogEntry.toJson))]

end ChangeRecord

end Refactor
