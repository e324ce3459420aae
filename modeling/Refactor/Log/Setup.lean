import Refactor.Log.Filter
import Refactor.Settings.Basic

/-!
# Setting up logging

What is written is decided by the verbosity of the settings unless a variable
gives directives; the form of the lines is the one of the settings unless a
variable names another. What is set up first stays for the whole run.
-/

namespace Refactor.Log

/-- The variables that logging looks at. -/
structure Variables where
  /-- Directives on the verbosity. -/
  directives : Option String
  /-- The name of a form. -/
  format : Option String

/-- The form that a variable names, in either case; other texts name none. -/
def formatOfName? (s : String) : Option LogFormat :=
  let name := s.toList.map Char.toLower
  if name = "json".toList then some .json
  else if name = "pretty".toList ∨ name = "human".toList then some .pretty
  else none

/-- What logging does in a run. -/
structure Setup where
  filter : Filter
  format : LogFormat

/-- The set-up that settings and variables give. A level that cannot be read counts as
information. It breaks off at a directive that would be cut inside a character. -/
def Setup.of (settings : LogSettings) (vars : Variables) : Except Refusal Setup :=
  (Directive.parseAll (vars.directives.getD "").toList).map fun ds =>
    { filter := .of ((Level.parse? settings.level.toList).getD .info).number ds
      format := (vars.format.bind formatOfName?).getD settings.format }

/-- Sets logging up once: what was set up earlier stays. -/
def install (installed : Option Setup) (settings : LogSettings) (vars : Variables) :
    Except Refusal Setup :=
  match installed with
  | some s => .ok s
  | none => Setup.of settings vars

/-- The span of an operation on a file, which a module announces as information. -/
def operationSpan (target operation file : String) : Span where
  target := target.toList
  name := "operation".toList
  level := .info
  fields := [("operation".toList, operation.toList), ("file".toList, file.toList)]

/-- The levels of the messages that a place in the program gets written inside a span. -/
def Setup.written (s : Setup) (span : Span) (source : Source) : List Level :=
  Level.all.filter (s.filter.writes span source)

/-- Whether lines tell the span: only structured ones do, if the span was entered. -/
def Setup.tellsSpan (s : Setup) (span : Span) : Bool :=
  s.format = .json && s.filter.enters span

end Refactor.Log
