import Refactor.Json.Writer
import Refactor.Path

/-!
# Requests

A request is written as one line: a JSON object with its number, its type, its
command and, if it has any, its arguments.
-/

namespace Refactor

/-- A request to the server. -/
structure Request where
  seq : Nat
  command : String
  arguments : Option Json

namespace Request

/-- The members of a request in the order in which they are written. -/
def members (r : Request) : List (String × Json) :=
  [("seq", .nat r.seq), ("type", .str "request"), ("command", .str r.command)] ++
    r.arguments.toList.map fun v => ("arguments", v)

/-- A request without the newline that ends its line. -/
def text (r : Request) : Text := (Json.obj r.members).write

/-- A request as a line. -/
def line (r : Request) : Text := r.text ++ ['\n']

end Request

/-- A path as the server expects it. -/
def wirePath (p : Path) : String := p.spelling

end Refactor
