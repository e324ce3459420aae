import Refactor.Json.Reader

/-!
# Places in messages about JSON

A message about JSON may end in the place of the fault, as ` at line 3 column 4`.
The place is a pair of numbers, so it is written without needless zeros. Lines
are counted from one: line zero stands for a fault without a place, and such a
place is not written at all.
-/

namespace Refactor.Json

/-- What stands before the last occurrence of a pattern, and what follows it. -/
def cutLast? (pattern : Text) : Text → Option (Text × Text)
  | [] => none
  | c :: t =>
    match cutLast? pattern t with
    | some (before, rest) => some (c :: before, rest)
    | none =>
      if pattern.isPrefixOf (c :: t) then some ([], (c :: t).drop pattern.length) else none

/-- A number of 64 bits in decimal digits. -/
def index? (t : Text) : Option Nat :=
  if t.isEmpty || !t.all Char.isDigit then none
  else
    let n := digitsValue t
    if n < UInt64.size then some n else none

/-- A message without the place at its end, and the line and column of that place. -/
def splitPlace? (t : Text) : Option (Text × Nat × Nat) :=
  match cutLast? " at line ".toList t with
  | none => none
  | some (message, place) =>
    let mark := " column ".toList
    let rest := place.dropWhile Char.isDigit
    if mark.isPrefixOf rest then do
      let line ← index? (place.takeWhile Char.isDigit)
      let column ← index? (rest.drop mark.length)
      return (message, line, column)
    else none

/-- A message with its place, if it has one, in normal form. -/
def placed (message : String) : String :=
  match splitPlace? message.toList with
  | none => message
  | some (t, line, column) =>
    if line = 0 then String.ofList t
    else String.ofList t ++ " at line " ++ toString line ++ " column " ++ toString column

end Refactor.Json
