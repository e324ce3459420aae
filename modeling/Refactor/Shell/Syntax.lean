import Refactor.Text.Basic

/-!
# Commands of the shell

Server commands are often short shell scripts. A script is a list of commands;
a command is made of words, and a word of parts that are put in when the command
runs. Quoted parts stay whole, the others are split into fields at blanks.
-/

namespace Refactor.Shell

/-- What a redirection does with its target. -/
inductive RedirectKind where
  | read
  | write
  | append
  | duplicate
  /-- Reads the target itself, a text in the script. -/
  | here
deriving DecidableEq, Repr

mutual

/-- A part of a word. -/
inductive Part where
  | text (t : Text) (quoted : Bool)
  /-- The value of a variable. -/
  | value (name : String) (change : Change) (quoted : Bool)
  /-- What commands write. -/
  | output (body : List Command) (quoted : Bool)
  /-- The result of a calculation. -/
  | sum (term : List Part) (quoted : Bool)

/-- What is done to the value of a variable. Where a word stands in for a value, it may do so for
an empty value too. -/
inductive Change where
  | keep
  | length
  | orElse (evenIfEmpty : Bool) (word : List Part)
  | orAssign (evenIfEmpty : Bool) (word : List Part)
  | replaced (evenIfEmpty : Bool) (word : List Part)
  /-- The value without what a pattern matches at its start or at its end. -/
  | without (atStart longest : Bool) (pattern : List Part)

/-- Where a descriptor of a command leads. -/
inductive Redirect where
  | mk (descriptor : Nat) (kind : RedirectKind) (target : List Part)

/-- A command. -/
inductive Command where
  /-- Variables that are set, a name and its arguments. -/
  | simple (assignments : List (String × List Part)) (words : List (List Part))
  | redirected (c : Command) (redirects : List Redirect)
  | group (body : List Command)
  | subshell (body : List Command)
  | pipeline (negated : Bool) (stages : List Command)
  | both (a b : Command)
  | either (a b : Command)
  | background (c : Command)
  /-- Repeats while the test succeeds, or while it fails. -/
  | loop (whileFailing : Bool) (test body : List Command)
  /-- The first body whose test succeeds. -/
  | branch (arms : List (List Command × List Command)) (otherwise : List Command)
  | each (name : String) (words : Option (List (List Part))) (body : List Command)
  /-- The first body with a pattern that matches. -/
  | select (subject : List Part) (arms : List (List (List Part) × List Command))
  | define (name : String) (body : Command)

end

/-- A word of plain text. -/
def Part.word (t : Text) : List Part := [.text t true]

end Refactor.Shell
