import Refactor.Regex

/-!
# Editing lines by script

A script of editing commands is applied to each line in turn. A command may be
limited to lines by an address. What is left of a line at the end is written,
unless the script is quiet.
-/

namespace Refactor.Shell.Sed

/-- The lines that a command is for. -/
inductive Address where
  | number (n : Nat)
  | last
  | like (r : Regex)

/-- A piece of a replacement. -/
inductive Piece where
  | text (t : Text)
  | whole
  | group (n : Nat)

/-- What a command does. -/
inductive Action where
  | substitute (r : Regex) (pieces : List Piece) (everywhere writes : Bool)
  | write
  | delete
  | quit

/-- A command. -/
structure Command where
  address : Option Address
  negated : Bool
  action : Action

/-! ## Reading -/

/-- The text up to a delimiter, which a backslash may protect. -/
def readUntil (delimiter : Char) : Text → Option (Text × Text)
  | [] => none
  | '\\' :: c :: t =>
    (readUntil delimiter t).map fun (s, r) => (if c = delimiter then c :: s else '\\' :: c :: s, r)
  | c :: t =>
    if c = delimiter then some ([], t) else (readUntil delimiter t).map fun (s, r) => (c :: s, r)

/-- The pieces of a replacement. -/
def readPieces : Text → List Piece
  | '\\' :: c :: t =>
    (if c.isDigit then .group (c.toNat - '0'.toNat) else .text [Regex.escapedChar c]) :: readPieces t
  | '&' :: t => .whole :: readPieces t
  | c :: t => .text [c] :: readPieces t
  | [] => []

/-- An address, if there is one. -/
def readAddress (dialect : Regex.Dialect) (t : Text) : Option (Option Address × Text) :=
  match t with
  | '$' :: r => some (some .last, r)
  | '/' :: r => do
    let (s, r) ← readUntil '/' r
    return (some (.like (← Regex.parse? dialect s)), r)
  | _ =>
    match Regex.readCount t with
    | (some n, r) => some (some (.number n), r)
    | (none, _) => some (none, t)

/-- What a command does, and what follows it. -/
def readAction (dialect : Regex.Dialect) (t : Text) : Option (Action × Text) :=
  match t with
  | 's' :: d :: r => do
    let (pattern, r) ← readUntil d r
    let (replacement, r) ← readUntil d r
    let isFlag (c : Char) : Bool := c == 'g' || c == 'p'
    let flags := r.takeWhile isFlag
    return (.substitute (← Regex.parse? dialect pattern) (readPieces replacement)
      (flags.contains 'g') (flags.contains 'p'), r.dropWhile isFlag)
  | 'p' :: r => some (.write, r)
  | 'd' :: r => some (.delete, r)
  | 'q' :: r => some (.quit, r)
  | _ => none

/-- What stands between commands. -/
def isGap (c : Char) : Bool := c == ' ' || c == '\t' || c == '\n' || c == ';'

/-- The commands of a script. -/
def readCommands (dialect : Regex.Dialect) : Nat → Text → Option (List Command)
  | 0, _ => none
  | fuel + 1, t =>
    match t.dropWhile isGap with
    | [] => some []
    | t => do
      let (address, r) ← readAddress dialect t
      let (negated, r) := match r.dropWhile (· == ' ') with
        | '!' :: r => (true, r)
        | r => (false, r)
      let (action, r) ← readAction dialect r
      match r.head? with
      | none => return [⟨address, negated, action⟩]
      | some c =>
        if isGap c then return ⟨address, negated, action⟩ :: (← readCommands dialect fuel r) else none

/-- Reads a script. -/
def parse? (dialect : Regex.Dialect) (t : Text) : Option (List Command) :=
  readCommands dialect (t.length + 1) t

/-! ## Running -/

/-- The text of a replacement. -/
def Piece.fill (whole : Text) (groups : List (Nat × Text)) : Piece → Text
  | .text t => t
  | .whole => whole
  | .group 0 => whole
  | .group n => (groups.lookup n).getD []

/-- A line with the matches of an expression replaced: the first, or all of them. None if there
is no match. -/
def substitute (r : Regex) (replacement : List Piece) (everywhere : Bool) :
    Nat → Nat → Text → Option Text
  | 0, _, _ => none
  | fuel + 1, pos, t => do
    let (before, matched, spot) ← r.find? pos [] t
    let filled := before ++ replacement.flatMap (Piece.fill matched spot.groups)
    if !everywhere then return filled ++ spot.rest
    else
      match matched, spot.rest with
      | [], [] => return filled
      | [], c :: rest =>
        return filled ++ c :: ((substitute r replacement true fuel (spot.pos + 1) rest).getD rest)
      | _, [] => return filled
      | _, rest => return filled ++ ((substitute r replacement true fuel spot.pos rest).getD rest)

/-- A line being edited. -/
structure Edit where
  line : Text
  /-- Lines written so far, the latest first. -/
  written : List Text := []
  deleted : Bool := false
  quits : Bool := false

/-- Whether a command is for a line. -/
def Command.appliesTo (c : Command) (number : Nat) (isLast : Bool) (line : Text) : Bool :=
  (match c.address with
    | none => true
    | some (.number n) => n == number
    | some .last => isLast
    | some (.like r) => (r.find? 0 [] line).isSome) != c.negated

/-- Applies a command. -/
def Command.apply (number : Nat) (isLast : Bool) (e : Edit) (c : Command) : Edit :=
  if e.deleted || e.quits || !c.appliesTo number isLast e.line then e
  else
    match c.action with
    | .write => { e with written := e.line :: e.written }
    | .delete => { e with deleted := true }
    | .quit => { e with quits := true }
    | .substitute r replacement everywhere writes =>
      match substitute r replacement everywhere (e.line.length + 2) 0 e.line with
      | some line =>
        { e with line := line, written := if writes then line :: e.written else e.written }
      | none => e

/-- What a script writes for a line, and whether it ends there. -/
def editLine (quiet : Bool) (script : List Command) (number : Nat) (isLast : Bool) (line : Text) :
    List Text × Bool :=
  let e := script.foldl (Command.apply number isLast) { line := line }
  (e.written.reverse ++ (if quiet || e.deleted then [] else [e.line]), e.quits)

end Refactor.Shell.Sed
