import Refactor.Text.Basic

/-!
# Levels of log messages

Messages have a level of importance, and a verbosity says down to which level
they are written.
-/

namespace Refactor.Log

/-- How important a message is, the most important first. -/
inductive Level where
  | error
  | warn
  | info
  | debug
  | trace
deriving DecidableEq, Repr

/-- A number in decimal digits, which may have a plus sign. -/
def number? (s : Text) : Option Nat :=
  let digits := match s with
    | '+' :: t => t
    | t => t
  if digits.isEmpty || !digits.all Char.isDigit then none
  else some (digits.foldl (fun n c => n * 10 + (c.toNat - '0'.toNat)) 0)

namespace Level

/-- All levels, the most important first. -/
def all : List Level := [error, warn, info, debug, trace]

def name : Level → String
  | error => "error"
  | warn => "warn"
  | info => "info"
  | debug => "debug"
  | trace => "trace"

/-- The number of a level, from one. -/
def number : Level → Nat
  | error => 1
  | warn => 2
  | info => 3
  | debug => 4
  | trace => 5

/-- The level with a number. -/
def ofNumber? (n : Nat) : Option Level := all.find? (·.number = n)

/-- The level with a name, in either case. -/
def ofName? (s : Text) : Option Level :=
  all.find? fun l => l.name.toList = s.map Char.toLower

/-- A level by its number or by its name. -/
def parse? (s : Text) : Option Level :=
  match number? s with
  | some n => ofNumber? n
  | none => ofName? s

end Level

/-- Down to which level messages are written: none at all, or up to that of a number. -/
abbrev Verbosity := Nat

namespace Verbosity

/-- Whether messages of a level are written. -/
def writes (v : Verbosity) (l : Level) : Bool := l.number ≤ v

/-- Every message is written. -/
def most : Verbosity := 5

/-- A verbosity by its number, by the name of a level, or by the word for none at all. -/
def parse? (s : Text) : Option Verbosity :=
  match number? s with
  | some n => if n ≤ most then some n else none
  | none =>
    if s.map Char.toLower = ['o', 'f', 'f'] then some 0 else (Level.ofName? s).map Level.number

end Verbosity

end Refactor.Log
