import Refactor.Text.Basic

/-!
# Wildcard patterns

A pattern matches a whole text: a star stands for any characters, a question
mark for one, and a list in brackets for one of its own. Quoted characters stand
for themselves. `stripStart` and `stripEnd` take away the shortest or the longest
piece that a pattern matches.
-/

namespace Refactor.Shell

/-- A pattern: characters, each with whether it is quoted. -/
abbrev Glob := List (Char × Bool)

namespace Glob

/-- Whether a character is in a list of characters and ranges. -/
def inList (c : Char) : Text → Bool
  | a :: '-' :: b :: rest => (a ≤ c && c ≤ b) || inList c rest
  | a :: rest => a == c || inList c rest
  | [] => false

/-- The list after an opening bracket: whether it is negated, its characters, and what follows. -/
def readList (g : Glob) : Option (Bool × Text × Glob) :=
  let (negated, g) := match g with
    | ('!', false) :: g => (true, g)
    | ('^', false) :: g => (true, g)
    | g => (false, g)
  let (first, g) := match g with
    | (']', false) :: g => ([']'], g)
    | g => ([], g)
  match g.dropWhile (fun c => c.1 != ']') with
  | _ :: rest => some (negated, first ++ (g.takeWhile (fun c => c.1 != ']')).map Prod.fst, rest)
  | [] => none

/-- Whether a pattern matches a whole text. -/
def matchesWithin : Nat → Glob → Text → Bool
  | 0, _, _ => false
  | _ + 1, [], t => t.isEmpty
  | fuel + 1, ('*', false) :: g, t =>
    matchesWithin fuel g t || match t with
      | _ :: t => matchesWithin fuel (('*', false) :: g) t
      | [] => false
  | _ + 1, _ :: _, [] => false
  | fuel + 1, ('?', false) :: g, _ :: t => matchesWithin fuel g t
  | fuel + 1, ('[', false) :: g, c :: t =>
    match readList g with
    | some (negated, list, g') => (inList c list != negated) && matchesWithin fuel g' t
    | none => c == '[' && matchesWithin fuel g t
  | fuel + 1, (p, _) :: g, c :: t => p == c && matchesWithin fuel g t

/-- Whether a pattern matches a whole text. -/
def covers (g : Glob) (t : Text) : Bool := matchesWithin (g.length + t.length + 1) g t

/-- A text without the shortest or longest start that a pattern matches. -/
def stripStart (longest : Bool) (g : Glob) (t : Text) : Text :=
  let sizes := List.range (t.length + 1)
  match (if longest then sizes.reverse else sizes).find? fun n => g.covers (t.take n) with
  | some n => t.drop n
  | none => t

/-- A text without the shortest or longest end that a pattern matches. -/
def stripEnd (longest : Bool) (g : Glob) (t : Text) : Text :=
  let sizes := List.range (t.length + 1)
  match (if longest then sizes else sizes.reverse).find? fun n => g.covers (t.drop n) with
  | some n => t.take n
  | none => t

end Glob

end Refactor.Shell
