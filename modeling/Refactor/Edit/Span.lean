import Refactor.Edit.Basic

/-!
# Spans

A span is the place of an edit in given lines: line indices from zero and byte
positions inside the lines. An edit has no span when its lines are not there or
when it ends before it starts (`EditError`). Offsets past the end of a line mean
the end of the line.
-/

namespace Refactor

/-- Why an edit does not fit the lines. -/
inductive EditError where
  | outside (startLine endLine lineCount : Nat)
  | linesReversed (startLine endLine : Nat)
  | offsetsReversed (startOffset endOffset line : Nat)
deriving DecidableEq, Repr

/-- The wording of an edit error. -/
def EditError.message : EditError → String
  | .outside s e n =>
    "lines " ++ toString s ++ "-" ++ toString e ++ " outside file of " ++ toString n ++ " lines"
  | .linesReversed s e => "end line " ++ toString e ++ " before start line " ++ toString s
  | .offsetsReversed s e l =>
    "end offset " ++ toString e ++ " before start offset " ++ toString s ++ " on line " ++ toString l

/-- Line indices and byte positions of an edit. -/
structure Span where
  startLine : Nat
  startByte : Nat
  endLine : Nat
  endByte : Nat
deriving DecidableEq, Repr

namespace Span

/-- The byte position of a one-based offset in a line. -/
def byteOfOffset (line : Text) (offset : Nat) : Nat := Text.boundaryAt (offset - 1) line

/-- The line of an index, empty past the last one. -/
def lineAt (lines : List Text) (i : Nat) : Text := lines.getD i []

/-- The span of an edit in the lines. -/
def resolve (lines : List Text) (e : TextEdit) : Except EditError Span :=
  let sl := e.startLine.toNat
  let el := e.endLine.toNat
  let n := lines.length
  if ¬ (1 ≤ sl ∧ sl ≤ n ∧ 1 ≤ el ∧ el ≤ n) then .error (.outside sl el n)
  else if el < sl then .error (.linesReversed sl el)
  else
    let sb := byteOfOffset (lineAt lines (sl - 1)) e.startOffset.toNat
    let eb := byteOfOffset (lineAt lines (el - 1)) e.endOffset.toNat
    if sl = el ∧ eb < sb then
      .error (.offsetsReversed e.startOffset.toNat e.endOffset.toNat sl)
    else .ok ⟨sl - 1, sb, el - 1, eb⟩

/-- The text before the span in its first line. -/
def before (s : Span) (lines : List Text) : Text :=
  Text.takeBytes s.startByte (lineAt lines s.startLine)

/-- The text after the span in its last line. -/
def after (s : Span) (lines : List Text) : Text :=
  Text.dropBytes s.endByte (lineAt lines s.endLine)

/-- The text of the span, lines joined by newlines. -/
def text (s : Span) (lines : List Text) : Text :=
  if s.startLine = s.endLine then
    Text.dropBytes s.startByte (Text.takeBytes s.endByte (lineAt lines s.startLine))
  else
    Text.unlines (Text.dropBytes s.startByte (lineAt lines s.startLine) ::
      ((lines.take s.endLine).drop (s.startLine + 1) ++
        [Text.takeBytes s.endByte (lineAt lines s.endLine)]))

/-- The lines with the text of the span replaced. -/
def replace (s : Span) (lines : List Text) (newText : Text) : List Text :=
  lines.take s.startLine ++ Text.lines (s.before lines ++ newText ++ s.after lines) ++
    lines.drop (s.endLine + 1)

end Span

end Refactor
