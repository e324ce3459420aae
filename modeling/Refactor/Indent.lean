import Refactor.Edit.Basic
import Refactor.Text.Blank

/-!
# Indentation

Generated code is indented by four spaces a level. The unit of a file is the
step by which the indentation of consecutive lines changes most often
(`indentUnit`); generated text is re-indented to it (`reindent`). Only spaces and
tabs indent; a line of nothing but blank characters takes no part.
-/

namespace Refactor.Indent

/-- Spaces and tabs. -/
def isIndent (c : Char) : Bool := c == ' ' || c == '\t'

/-- The spaces and tabs that a line starts with. -/
def leading (line : Text) : Text := line.takeWhile isIndent

/-- What the longer of two indentations has beyond the shorter, if it starts with it. -/
def step? (a b : Text) : Option Text :=
  if a.length < b.length then if a.isPrefixOf b then some (b.drop a.length) else none
  else if b.length < a.length then if b.isPrefixOf a then some (a.drop b.length) else none
  else none

/-- The steps between consecutive indentations. -/
def stepsBetween : List Text → List Text
  | a :: b :: rest => (step? a b).toList ++ stepsBetween (b :: rest)
  | _ => []

/-- The steps between consecutive lines that are not blank, in order. -/
def steps (lines : List Text) : List Text :=
  stepsBetween ((lines.filter fun l => !Text.isBlank l).map leading)

/-- A step, how often it occurs, and how many other steps occurred before it. -/
structure Tally where
  step : Text
  count : Nat
  seen : Nat
deriving DecidableEq, Repr

/-- Counts one more occurrence. -/
def tallyStep (ts : List Tally) (s : Text) : List Tally :=
  if ts.any (·.step == s) then ts.map fun t => if t.step = s then { t with count := t.count + 1 } else t
  else ts ++ [⟨s, 1, ts.length⟩]

/-- The tallies of steps, by first occurrence. -/
def tally (ss : List Text) : List Tally := ss.foldl tallyStep []

/-- The more frequent of two tallies, or the one seen first. -/
def Tally.better (a b : Tally) : Tally :=
  if b.count < a.count ∨ (b.count = a.count ∧ a.seen < b.seen) then a else b

/-- The best tally of a list. -/
def best? : List Tally → Option Tally
  | [] => none
  | t :: ts => some (ts.foldl Tally.better t)

/-- The most frequent step, the first one among equals; empty if there is none. -/
def indentUnit (lines : List Text) : Text :=
  match best? (tally (steps lines)) with
  | some t => t.step
  | none => []

/-- One level of generated code. -/
def serviceUnit : Text := [' ', ' ', ' ', ' ']

/-- How many units a line is indented by. Tabs are counted one by one. -/
def nestingLevel (line unit : Text) : Nat :=
  if unit = ['\t'] then (leading line).count '\t'
  else if unit = [] then 0
  else (leading line).length / Text.byteSize unit

/-- A line with each four spaces at its start turned into a unit; spaces left over stay. -/
def reindentLine (unit line : Text) : Text :=
  if Text.isBlank line then line
  else
    let spaces := (line.takeWhile (· == ' ')).length
    if spaces = 0 then line
    else (List.replicate (spaces / 4) unit).flatten ++ List.replicate (spaces % 4) ' ' ++
      line.dropWhile (· == ' ')

/-- Whether text for a file with this unit stays as it was generated. -/
def keepsAsIs (unit : Text) : Bool := unit == [] || unit == serviceUnit

/-- Generated text with its indentation in units of the file. -/
def reindent (fragment unit : Text) : Text :=
  if keepsAsIs unit then fragment
  else Text.unlines ((Text.lines fragment).map (reindentLine unit))

/-- An edit with its text re-indented for the lines it lands in, if it has several lines. -/
def normalize (lines : List Text) (e : TextEdit) : TextEdit :=
  if e.newText.contains '\n' then { e with newText := reindent e.newText (indentUnit lines) } else e

end Refactor.Indent
