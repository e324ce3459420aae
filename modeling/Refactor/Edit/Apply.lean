import Refactor.Edit.Span

/-!
# Applying edits

Edits are applied one after the other, each to the lines that the ones before
it left. Sorted from the end of the file to its start (`sortEdits`) an edit never
moves the place of one that is still to come. The log of a file (`changeRecord`)
quotes the lines as they were before any edit.
-/

namespace Refactor

namespace TextEdit

/-- The span of an edit as one number: its positions are digits in base 2^32. -/
def rank (e : TextEdit) : Nat :=
  ((e.startLine.toNat * UInt32.size + e.startOffset.toNat) * UInt32.size + e.endLine.toNat) * UInt32.size +
    e.endOffset.toNat

end TextEdit

/-- Edits from the last span to the first, spans with the same start by their ends. Edits with one
and the same span come in reverse, so that their texts end up in the order given. -/
def sortEdits (edits : List TextEdit) : List TextEdit :=
  edits.reverse.mergeSort fun a b => decide (b.rank ≤ a.rank)

/-- Applies one edit. New text with newlines makes new lines. -/
def applyEdit (lines : List Text) (e : TextEdit) : Except EditError (List Text) :=
  match Span.resolve lines e with
  | .ok s => .ok (s.replace lines e.newText)
  | .error err => .error err

/-- Applies edits in turn; the first that does not fit fails them all. -/
def applyEdits (lines : List Text) : List TextEdit → Except EditError (List Text)
  | [] => .ok lines
  | e :: es =>
    match applyEdit lines e with
    | .ok lines => applyEdits lines es
    | .error err => .error err

/-- The text that an edit covers; empty if the edit does not fit. -/
def coveredText (lines : List Text) (e : TextEdit) : Text :=
  match Span.resolve lines e with
  | .ok s => s.text lines
  | .error _ => []

/-- The log entry of an edit to the lines. -/
def logEntry (lines : List Text) (e : TextEdit) : LogEntry :=
  ⟨e.startLine, some e.startOffset, coveredText lines e, e.newText⟩

/-- The log of edits to a file that had the given lines. -/
def changeRecord (lines : List Text) (edits : List TextEdit) (path : Path) : ChangeRecord :=
  ⟨path.displayName, path, edits.map (logEntry lines)⟩

end Refactor
