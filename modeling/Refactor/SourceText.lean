import Refactor.Edit.Apply
import Refactor.Indent

/-!
# Source texts

The content of a file as lines and the line ending it was written with. With
carriage returns as part of the ending, lines are held without them, so that
edits see the same lines whichever ending a file has.
-/

namespace Refactor

/-- How lines end. -/
inductive LineEnding where
  | lf
  | crlf
deriving DecidableEq, Repr

namespace LineEnding

/-- The characters of an ending. -/
def text : LineEnding → Text
  | .lf => ['\n']
  | .crlf => ['\r', '\n']

/-- The ending of the first line; a newline alone if there is only one line. -/
def detect : Text → LineEnding
  | '\r' :: '\n' :: _ => .crlf
  | '\n' :: _ => .lf
  | _ :: t => detect t
  | [] => .lf

/-- A line without the carriage return that belongs to its ending. -/
def strip (e : LineEnding) (line : Text) : Text :=
  match e with
  | .lf => line
  | .crlf => Text.stripEnd '\r' line

end LineEnding

/-- The lines of a file and how they end. -/
structure SourceText where
  lines : List Text
  ending : LineEnding
deriving DecidableEq, Repr

namespace SourceText

/-- The lines of a content. -/
def parse (content : Text) : SourceText :=
  let ending := LineEnding.detect content
  ⟨(Text.lines content).map ending.strip, ending⟩

/-- The same ending with other lines. Carriage returns at their ends are part of the ending. -/
def withLines (t : SourceText) (lines : List Text) : SourceText :=
  ⟨lines.map t.ending.strip, t.ending⟩

/-- The content that a file with these lines has. -/
def join (t : SourceText) : Text := t.ending.text.intercalate t.lines

/-- The edits as they are applied: re-indented if asked, and sorted. -/
def prepare (t : SourceText) (normalize : Bool) (edits : List TextEdit) : List TextEdit :=
  sortEdits (if normalize then edits.map (Indent.normalize t.lines) else edits)

/-- A source text after edits, with their log. -/
def edit (t : SourceText) (normalize : Bool) (edits : List TextEdit) (path : Path) :
    Except EditError (SourceText × ChangeRecord) :=
  let sorted := t.prepare normalize edits
  match applyEdits t.lines sorted with
  | .ok lines => .ok (t.withLines lines, changeRecord t.lines sorted path)
  | .error e => .error e

end SourceText

end Refactor
