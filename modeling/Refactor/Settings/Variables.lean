import Refactor.Text.Blank
import Refactor.Toml.Scalar

/-!
# Settings from environment variables

A variable whose name starts with `TSMILL_` gives one setting. The rest of the
name, in lower case, is the path of the setting, with two underscores between
each two parts. The value is a truth value, a number, a quoted text, a list in
brackets or a dictionary in braces; whatever is none of these is a plain text.

A quoted text with an escape loses some of what stands before its first escape:
that part keeps as many bytes as it has characters. Where the cut would fall
inside a character, reading breaks off.
-/

namespace Refactor.Variables

/-! ## Values -/

/-- The blanks between the parts of a value. -/
def isSpace (c : Char) : Bool :=
  c == ' ' || c == '\t' || c == '\n' || c == '\x0c' || c == '\r'

/-- A text without the blanks at its start. -/
def skipSpace (t : Text) : Text := t.dropWhile isSpace

/-- The characters that divide values. -/
def isDivider (c : Char) : Bool := c == ',' || c == '{' || c == '}' || c == '[' || c == ']'

/-- A number with a point in it: digits before or after the point or both, and an exponent if one
is given. A number past the largest double counts as none. -/
def pointed? (t : Text) : Option Json := do
  let (negative, t) := Toml.splitSign t
  let whole := t.takeWhile Char.isDigit
  match t.dropWhile Char.isDigit with
  | '.' :: r =>
    let fraction := r.takeWhile Char.isDigit
    let (exponent, rest) ← Json.readExponent (r.dropWhile Char.isDigit)
    if !rest.isEmpty || (whole ++ fraction).isEmpty then none
    else
      return ((Double.ofDecimal negative (Json.digitsValue (whole ++ fraction))
        (exponent.getD 0 - fraction.length)).map fun d => .num (.double d)).getD .null
  | _ => none

/-- An integer of 64 bits, with or without a sign. -/
def integer? (t : Text) : Option Json :=
  let (negative, ds) := Toml.splitSign t
  if ds.isEmpty || !ds.all Char.isDigit then none
  else
    let n := Json.digitsValue ds
    if negative then if n ≤ Json.signedLimit then some (.num (.int (-n))) else none
    else if n < UInt64.size then some (.nat n) else none

/-- A value without quotes or brackets. -/
def bare (t : Text) : Json :=
  let t := Text.trim t
  match pointed? t, integer? t with
  | some v, _ => v
  | none, some v => v
  | none, none => .str (String.ofList t)

/-- Why a text could not be read. -/
inductive Refusal where
  /-- It is no value. -/
  | malformed
  /-- A cut would fall inside a character. -/
  | brokenOff
deriving DecidableEq, Repr

def refuse {α : Type} : Except Refusal α := .error .malformed

/-! ## Quoted texts -/

/-- What stands before the closing quote, with its escapes, and what follows the quote. -/
def splitQuoted : Text → Option (Text × Text)
  | [] => none
  | '"' :: t => some ([], t)
  | '\\' :: c :: t => (splitQuoted t).map fun (s, r) => ('\\' :: c :: s, r)
  | c :: t => (splitQuoted t).map fun (s, r) => (c :: s, r)

/-- A text cut to as many bytes as it has characters. -/
def cutToLength (t : Text) : Except Refusal Text :=
  let cut := t.takeBytes t.length
  if Text.byteSize cut = t.length then .ok cut else .error .brokenOff

/-- The content of a quoted text with its escapes replaced. -/
def unescape (t : Text) : Except Refusal Text :=
  let plain := t.takeWhile (· != '\\')
  if !plain.all Toml.isPlain then refuse
  else
    match t.dropWhile (· != '\\') with
    | [] => .ok plain
    | rest => do
      let start ← cutToLength plain
      match Toml.readQuoted (rest.length + 2) (rest ++ ['"']) with
      | some (s, []) => return start ++ s
      | _ => refuse

/-- The rest of a quoted text. -/
def readQuoted (t : Text) : Except Refusal (String × Text) :=
  match splitQuoted t with
  | none => refuse
  | some (s, r) => (unescape s).map fun s => (String.ofList s, r)

/-! ## Lists and dictionaries -/

/-- The key of a pair in a dictionary. -/
def readKey (t : Text) : Except Refusal (String × Text) :=
  let isKeyChar (c : Char) : Bool := c.isAlphanum || c == '_' || c == '-'
  match t with
  | '"' :: r => readQuoted r
  | _ =>
    match t.takeWhile isKeyChar with
    | [] => refuse
    | k => .ok (String.ofList k, t.dropWhile isKeyChar)

mutual

/-- A value with the blanks around it, and what follows it. -/
def readValue : Nat → Text → Except Refusal (Json × Text)
  | 0, _ => refuse
  | fuel + 1, t => do
    let (v, r) ← match skipSpace t with
      | 't' :: 'r' :: 'u' :: 'e' :: r => pure (.bool true, r)
      | 'f' :: 'a' :: 'l' :: 's' :: 'e' :: r => pure (.bool false, r)
      | '{' :: r => (readPairs fuel r).map fun (ms, r) => (.ofMembers ms, r)
      | '[' :: r => (readItems fuel r).map fun (vs, r) => (.arr vs, r)
      | '"' :: r => (readQuoted r).map fun (s, r) => (.str s, r)
      | '\'' :: c :: '\'' :: r => pure (.str (String.ofList [c]), r)
      | '\'' :: _ => refuse
      | t => pure (bare (t.takeWhile (!isDivider ·)), t.dropWhile (!isDivider ·))
    return (v, skipSpace r)

/-- The items of a list up to the closing bracket. -/
def readItems : Nat → Text → Except Refusal (List Json × Text)
  | 0, _ => refuse
  | fuel + 1, t =>
    match t with
    | ']' :: r => .ok ([], r)
    | _ => do
      let (v, r) ← readValue fuel t
      match r with
      | ']' :: r => return ([v], r)
      | ',' :: r =>
        let (vs, r) ← readItems fuel r
        return (v :: vs, r)
      | _ => refuse

/-- The pairs of a dictionary up to the closing brace. -/
def readPairs : Nat → Text → Except Refusal (List (String × Json) × Text)
  | 0, _ => refuse
  | fuel + 1, t =>
    match t with
    | '}' :: r => .ok ([], r)
    | _ => do
      let (k, r) ← readKey (skipSpace t)
      match skipSpace r with
      | '=' :: r =>
        let (v, r) ← readValue fuel r
        match r with
        | '}' :: r => return ([(k, v)], r)
        | ',' :: r =>
          let (ms, r) ← readPairs fuel r
          return ((k, v) :: ms, r)
        | _ => refuse
      | _ => refuse

end

/-- The value of a variable, without the blanks around it. A text that is no value as a whole is
taken as it stands. None if reading breaks off. -/
def value (s : String) : Option Json :=
  let t := Text.trim s.toList
  match readValue (2 * t.length + 2) t with
  | .ok (v, []) => some v
  | .error .brokenOff => none
  | _ => some (.str (String.ofList t))

/-! ## Names -/

/-- What the name of a variable starts with. -/
def namePrefix : Text := "tsmill_".toList

/-- A text in which each pair of underscores is a point. -/
def pointPairs : Text → Text
  | '_' :: '_' :: t => '.' :: pointPairs t
  | c :: t => c :: pointPairs t
  | [] => []

/-- The path of the setting that a name stands for; no part of it is empty. -/
def path? (name : String) : Option (List String) :=
  let t := (Text.trim name.toList).map Char.toLower
  if t.take namePrefix.length = namePrefix then
    let parts := Text.pieces '.' (Text.trim (pointPairs (t.drop namePrefix.length)))
    if parts.any List.isEmpty then none else some (parts.map String.ofList)
  else none

/-- The object with one value at a path. -/
def nest (v : Json) : List String → Json
  | [] => v
  | k :: path => .obj [(k, nest v path)]

/-- The settings of all variables; of two for one setting the later counts. None if reading one
of them breaks off. -/
def layer (vars : List (String × String)) : Option Json :=
  vars.foldlM (fun acc (name, text) =>
    match path? name with
    | some path => (value text).map fun v => acc.overlay (nest v path)
    | none => some acc) (.obj [])

end Refactor.Variables
