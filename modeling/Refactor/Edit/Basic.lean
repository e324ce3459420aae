import Refactor.Text.Basic
import Refactor.Path

/-!
# Edits

A language server describes changes file by file; each change replaces the text
between two locations. Lines and offsets are counted from one, and offsets are
in UTF-16 code units. `TextEdit` is the flat form that edits are applied in.
-/

namespace Refactor

/-- A place in a file. -/
structure Location where
  line : UInt32
  offset : UInt32
deriving DecidableEq, Repr

/-- A replacement of the text between two locations. -/
structure CodeEdit where
  start : Location
  stop : Location
  newText : Text
deriving DecidableEq, Repr

/-- The changes to one file, named as the server named it. -/
structure FileEdits where
  fileName : String
  changes : List CodeEdit
  isNew : Bool
deriving DecidableEq, Repr

/-- A replacement in flat form. -/
structure TextEdit where
  startLine : UInt32
  startOffset : UInt32
  endLine : UInt32
  endOffset : UInt32
  newText : Text
deriving DecidableEq, Repr

/-- The flat form of a change. -/
def CodeEdit.flat (e : CodeEdit) : TextEdit :=
  ⟨e.start.line, e.start.offset, e.stop.line, e.stop.offset, e.newText⟩

/-- The changes of a file in flat form, in order. -/
def FileEdits.flat (f : FileEdits) : List TextEdit := f.changes.map CodeEdit.flat

/-- What happened at one place: the text that was there and the text that replaced it. -/
structure LogEntry where
  line : UInt32
  column : Option UInt32
  oldText : Text
  newText : Text
deriving DecidableEq, Repr

/-- The changes made to one file. -/
structure ChangeRecord where
  fileName : String
  path : Path
  entries : List LogEntry
deriving DecidableEq, Repr

/-- The number of edits in several logs. -/
def ChangeRecord.countAll : List ChangeRecord → Nat
  | [] => 0
  | r :: rs => r.entries.length + countAll rs

end Refactor
