import Refactor.Shell.Feed
import Refactor.Shell.Sed

/-!
# Small programs

What the programs that scripts use do with their arguments and with text:
writing by a format, cutting lines, calculating and comparing.
-/

namespace Refactor.Shell

/-- The value of digits in a base, as far as there are any, at most `limit` of them. -/
def octal (limit : Nat) (t : Text) : Option (Char × Text) :=
  match (t.take limit).takeWhile (fun c => '0' ≤ c && c ≤ '7') with
  | [] => none
  | ds => some (Char.ofNat (ds.foldl (fun n c => n * 8 + (c.toNat - '0'.toNat)) 0), t.drop ds.length)

/-- What the text after a backslash stands for. -/
def readEscape (t : Text) : Text × Text :=
  match t with
  | 'n' :: r => (['\n'], r)
  | 't' :: r => (['\t'], r)
  | 'r' :: r => (['\r'], r)
  | 'a' :: r => (['\x07'], r)
  | 'b' :: r => (['\x08'], r)
  | 'f' :: r => (['\x0c'], r)
  | 'v' :: r => (['\x0b'], r)
  | '\\' :: r => (['\\'], r)
  | _ => (['\\'], t)

/-- A text with its escapes replaced, and whether it goes on after that. -/
def unescape : Nat → Text → Text × Bool
  | 0, t => (t, true)
  | _ + 1, [] => ([], true)
  | fuel + 1, '\\' :: t =>
    match t with
    | 'c' :: _ => ([], false)
    | '0' :: r =>
      let (c, r) := (octal 3 r).getD (Char.ofNat 0, r)
      let (s, more) := unescape fuel r
      (c :: s, more)
    | _ =>
      let (e, r) := readEscape t
      let (s, more) := unescape fuel r
      (e ++ s, more)
  | fuel + 1, c :: t =>
    let (s, more) := unescape fuel t
    (c :: s, more)

/-- The text that `echo` writes. -/
def echo (args : List Text) : Text :=
  let (newline, args) := match args with
    | ['-', 'n'] :: args => (false, args)
    | args => (true, args)
  let t := [' '].intercalate args
  let (s, more) := unescape (t.length + 1) t
  s ++ (if newline && more then ['\n'] else [])

/-! ## Numbers -/

/-- An integer with an optional sign, without blanks around it. -/
def integer? (t : Text) : Option Int :=
  let t := (t.dropWhile (· == ' ')).reverse.dropWhile (· == ' ') |>.reverse
  let (negative, ds) := match t with
    | '-' :: r => (true, r)
    | '+' :: r => (false, r)
    | r => (false, r)
  if ds.isEmpty || !ds.all Char.isDigit then none
  else
    let n := ds.foldl (fun n c => n * 10 + (c.toNat - '0'.toNat)) 0
    some (if negative then -(n : Int) else n)

/-- An integer as text. -/
def ofInt (i : Int) : Text := (toString i).toList

/-! ## Writing by a format -/

/-- How a value is written: to the left or not, with zeros or not, how wide, how many characters. -/
structure Layout where
  left : Bool := false
  zeros : Bool := false
  width : Nat := 0
  precision : Option Nat := none

/-- A text brought to a width. -/
def Layout.pad (l : Layout) (t : Text) : Text :=
  let fill := List.replicate (l.width - t.length) (if l.zeros && !l.left then '0' else ' ')
  if l.left then t ++ fill else fill ++ t

/-- The layout after a percent sign. -/
def readLayout (t : Text) : Layout × Text :=
  let isFlag (c : Char) : Bool := c == '-' || c == '0' || c == '+' || c == ' ' || c == '#'
  let flags := t.takeWhile isFlag
  let (width, r) := Regex.readCount (t.dropWhile isFlag)
  let (precision, r) := match r with
    | '.' :: r =>
      let (p, r) := Regex.readCount r
      (some (p.getD 0), r)
    | r => (none, r)
  (⟨flags.contains '-', flags.contains '0', width.getD 0, precision⟩, r)

/-- One value written by its letter. -/
def Layout.write (l : Layout) (letter : Char) (value : Text) : Text :=
  if letter = 's' then l.pad ((l.precision.map value.take).getD value)
  else if letter = 'b' then l.pad (unescape (value.length + 1) value).1
  else if letter = 'c' then l.pad (value.take 1)
  else
    let i := (integer? value).getD 0
    if letter = 'x' then l.pad (Nat.toDigits 16 i.toNat)
    else if letter = 'o' then l.pad (Nat.toDigits 8 i.toNat)
    else l.pad (ofInt i)

/-- Goes through a format once; what is written, and the arguments that are left. -/
def formatOnce : Nat → Text → List Text → Text × List Text
  | 0, _, args => ([], args)
  | _ + 1, [], args => ([], args)
  | fuel + 1, '%' :: '%' :: t, args =>
    let (s, args) := formatOnce fuel t args
    ('%' :: s, args)
  | fuel + 1, '%' :: t, args =>
    let (l, r) := readLayout t
    match r with
    | [] => ([], args)
    | letter :: r =>
      let (s, args') := formatOnce fuel r args.tail
      (l.write letter (args.head?.getD []) ++ s, args')
  | fuel + 1, '\\' :: t, args =>
    let (e, r) := match octal 3 t with
      | some (c, r) => ([c], r)
      | none =>
        match t with
        | '"' :: r => (['"'], r)
        | '\'' :: r => (['\''], r)
        | _ => readEscape t
    let (s, args) := formatOnce fuel r args
    (e ++ s, args)
  | fuel + 1, c :: t, args =>
    let (s, args) := formatOnce fuel t args
    (c :: s, args)

/-- Goes through a format until no arguments are left. -/
def formatAll : Nat → Text → List Text → Text
  | 0, _, _ => []
  | fuel + 1, format, args =>
    let (s, rest) := formatOnce (format.length + 1) format args
    if rest.isEmpty || rest.length = args.length then s else s ++ formatAll fuel format rest

/-- The text that `printf` writes. -/
def printf (args : List Text) : Text :=
  match args with
  | [] => []
  | format :: args => formatAll (args.length + 1) format args

/-! ## Cutting lines -/

/-- Ranges of positions, counted from one; an open end goes as far as there is anything. -/
abbrev Ranges := List (Nat × Option Nat)

/-- Reads ranges divided by commas. -/
def readRanges (t : Text) : Ranges :=
  (Text.pieces ',' t).map fun p =>
    let (a, r) := Regex.readCount p
    match r with
    | '-' :: r => (a.getD 1, (Regex.readCount r).1)
    | _ => (a.getD 1, a)

/-- The items at positions in ranges. -/
def pick {α : Type} (rs : Ranges) (items : List α) : List α :=
  (items.zipIdx 1).filterMap fun (x, i) =>
    if rs.any fun (a, b) => a ≤ i && b.all (i ≤ ·) then some x else none

/-- What `cut` keeps. -/
inductive Cut where
  | fields (delimiter : Char) (rs : Ranges) (onlyDivided : Bool)
  | characters (rs : Ranges)

/-- What is kept of a line, if anything is. -/
def Cut.line (c : Cut) (t : Text) : Option Text :=
  match c with
  | .characters rs => some (pick rs t)
  | .fields d rs onlyDivided =>
    if t.contains d then some ([d].intercalate (pick rs (Text.pieces d t)))
    else if onlyDivided then none
    else some t

/-- Reads the arguments of `cut`, with the names of files that are left. -/
def readCut : List Text → Char → Bool → Option Ranges → Option Ranges → Option (Cut × List Text)
  | ['-', 'd'] :: (d :: _) :: args, _, s, f, c => readCut args d s f c
  | ('-' :: 'd' :: d :: _) :: args, _, s, f, c => readCut args d s f c
  | ['-', 'f'] :: l :: args, d, s, _, c => readCut args d s (some (readRanges l)) c
  | ('-' :: 'f' :: l) :: args, d, s, _, c => readCut args d s (some (readRanges l)) c
  | ['-', 'c'] :: l :: args, d, s, f, _ => readCut args d s f (some (readRanges l))
  | ('-' :: 'c' :: l) :: args, d, s, f, _ => readCut args d s f (some (readRanges l))
  | ['-', 'b'] :: l :: args, d, s, f, _ => readCut args d s f (some (readRanges l))
  | ('-' :: 'b' :: l) :: args, d, s, f, _ => readCut args d s f (some (readRanges l))
  | ['-', 's'] :: args, d, _, f, c => readCut args d true f c
  | args, d, s, some f, _ => some (.fields d f s, args)
  | args, _, _, none, some c => some (.characters c, args)
  | _, _, _, none, none => none

/-! ## Calculating -/

/-- Operators of a calculation with how tightly they bind. -/
def operators : List (Text × Nat × (Int → Int → Int)) :=
  let truth (b : Bool) : Int := if b then 1 else 0
  [("||".toList, 1, fun a b => truth (a != 0 || b != 0)),
   ("&&".toList, 2, fun a b => truth (a != 0 && b != 0)),
   ("==".toList, 3, fun a b => truth (a == b)), ("!=".toList, 3, fun a b => truth (a != b)),
   ("<=".toList, 4, fun a b => truth (a ≤ b)), (">=".toList, 4, fun a b => truth (a ≥ b)),
   ("<".toList, 4, fun a b => truth (a < b)), (">".toList, 4, fun a b => truth (a > b)),
   ("+".toList, 5, fun a b => a + b), ("-".toList, 5, fun a b => a - b),
   ("*".toList, 6, fun a b => a * b), ("/".toList, 6, fun a b => a.tdiv b),
   ("%".toList, 6, fun a b => a.tmod b)]

/-- A text without the blanks at its start. -/
def skipSpaces (t : Text) : Text := t.dropWhile (fun c => c == ' ' || c == '\t' || c == '\n')

mutual

/-- A number, a variable, or a calculation in brackets. -/
def readOperand (value : String → Int) : Nat → Text → Option (Int × Text)
  | 0, _ => none
  | fuel + 1, t =>
    match skipSpaces t with
    | '(' :: r => do
      let (v, r) ← readBinary value fuel 0 r
      match skipSpaces r with
      | ')' :: r => return (v, r)
      | _ => none
    | '-' :: r => (readOperand value fuel r).map fun (v, r) => (-v, r)
    | '+' :: r => readOperand value fuel r
    | '!' :: r => (readOperand value fuel r).map fun (v, r) => (if v = 0 then 1 else 0, r)
    | t =>
      match Regex.readCount t with
      | (some n, r) => some (n, r)
      | (none, _) =>
        match t.takeWhile (fun c => c.isAlphanum || c == '_') with
        | [] => none
        | name => some (value (String.ofList name), t.drop name.length)

/-- Operands joined by operators that bind at least as tightly as `least`. -/
def readBinary (value : String → Int) : Nat → Nat → Text → Option (Int × Text)
  | 0, _, _ => none
  | fuel + 1, least, t => do
    let (v, r) ← readOperand value fuel t
    readOperators value fuel least v r

/-- The operators after an operand. -/
def readOperators (value : String → Int) : Nat → Nat → Int → Text → Option (Int × Text)
  | 0, _, _, _ => none
  | fuel + 1, least, v, t =>
    let t := skipSpaces t
    match operators.find? fun (sign, binds, _) => least ≤ binds && t.take sign.length = sign with
    | none => some (v, t)
    | some (sign, binds, f) => do
      let (w, r) ← readBinary value fuel (binds + 1) (t.drop sign.length)
      readOperators value fuel least (f v w) r

end

/-- The result of a calculation. -/
def calculate? (value : String → Int) (t : Text) : Option Int :=
  match readBinary value (4 * t.length + 8) 0 t with
  | some (v, r) => if (skipSpaces r).isEmpty then some v else none
  | none => none

end Refactor.Shell
