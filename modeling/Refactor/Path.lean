import Refactor.Text.Basic

/-!
# Paths

A path is kept as it was spelled. Two spellings are the same path when they have
the same parts: repeated slashes, slashes at the end and dots in the middle have
no part of their own, while `..` and a dot at the very start do. Paths are
ordered part by part.
-/

namespace Refactor

/-- A path as it was spelled. -/
structure Path where
  spelling : String
deriving DecidableEq, Repr

namespace Path

/-- One part of a path. -/
inductive Part where
  | root
  | here
  | up
  | name (n : String)
deriving DecidableEq, Repr

/-- The part that a piece between slashes stands for, other than at the start. -/
def Part.ofPiece? (piece : Text) : Option Part :=
  if piece = [] ∨ piece = ['.'] then none
  else if piece = ['.', '.'] then some .up
  else some (.name (String.ofList piece))

/-- Root first, then a leading dot, then `..`, then names by their characters. -/
def Part.compare : Part → Part → Ordering
  | .root, .root => .eq
  | .root, _ => .lt
  | _, .root => .gt
  | .here, .here => .eq
  | .here, _ => .lt
  | _, .here => .gt
  | .up, .up => .eq
  | .up, _ => .lt
  | _, .up => .gt
  | .name a, .name b => if a < b then .lt else if a = b then .eq else .gt

/-- The pieces of the spelling between slashes. -/
def pieces (p : Path) : List Text := Text.pieces '/' p.spelling.toList

/-- The parts of a path. -/
def parts (p : Path) : List Part :=
  match p.pieces with
  | [] => []
  | [[]] => []
  | first :: rest =>
    let start : Option Part :=
      if first = [] then some .root
      else if first = ['.'] then some .here
      else Part.ofPiece? first
    start.toList ++ rest.filterMap Part.ofPiece?

/-- Whether two spellings name the same path. -/
def same (p q : Path) : Bool := p.parts == q.parts

/-- The order of parts, part by part. -/
def compareParts : List Part → List Part → Ordering
  | [], [] => .eq
  | [], _ :: _ => .lt
  | _ :: _, [] => .gt
  | a :: as, b :: bs => (a.compare b).then (compareParts as bs)

/-- The order of paths. -/
def compare (p q : Path) : Ordering := compareParts p.parts q.parts

/-- Whether the path starts at the root. -/
def isAbsolute (p : Path) : Bool := p.spelling.toList.head? == some '/'

/-- `q` as seen from `p`: an absolute `q` stands for itself. -/
def join (p q : Path) : Path :=
  if q.isAbsolute then q
  else if p.spelling.isEmpty ∨ p.spelling.toList.getLast? = some '/' then ⟨p.spelling ++ q.spelling⟩
  else ⟨p.spelling ++ "/" ++ q.spelling⟩

/-- Pieces in reverse, without those at the end that have no part. The first piece always stays. -/
def trimPieces : List Text → List Text
  | [] => []
  | [p] => [p]
  | p :: q :: ps => if p = [] ∨ p = ['.'] then trimPieces (q :: ps) else p :: q :: ps

/-- The path spelled by pieces in reverse. -/
def ofReversed (ps : List Text) : Path :=
  match ps with
  | [[]] => ⟨"/"⟩
  | ps => ⟨String.ofList (['/'].intercalate ps.reverse)⟩

/-- The path without its last part, spelled as it was; none for the root and for no parts. -/
def parent? (p : Path) : Option Path :=
  match trimPieces p.pieces.reverse with
  | [] | [[]] => none
  | [_] => some ⟨""⟩
  | _ :: rest => some (ofReversed (trimPieces rest))

/-- The name of the last part. -/
def fileName? (p : Path) : Option String :=
  match p.parts.getLast? with
  | some (.name n) => some n
  | _ => none

/-- The name without its directory for display, or the whole spelling if there is none. -/
def displayName (p : Path) : String := p.fileName?.getD p.spelling

/-- What follows the last dot of a name, unless the name has no other dot than one at its start. -/
def extensionOf? (name : String) : Option String :=
  let r := name.toList.reverse
  match r.dropWhile (· ≠ '.') with
  | [] => none
  | [_] => none
  | _ :: _ :: _ => some (String.ofList (r.takeWhile (· ≠ '.')).reverse)

end Path

end Refactor
