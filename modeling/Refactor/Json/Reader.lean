import Refactor.Json.Value
import Refactor.Text.Basic

/-!
# Reading JSON

The reader takes exactly the JSON grammar: one value with blanks around it, no
byte order mark, no comments, no trailing commas, no lone surrogates. Of several
members with one key the last counts. Nesting is bounded by a limit, and a
number too large for a double is refused.
-/

namespace Refactor.Json

/-- The four blanks of the grammar. -/
def isSpace (c : Char) : Bool := c == ' ' || c == '\t' || c == '\n' || c == '\r'

/-- A text without the blanks at its start. -/
def skipSpace (t : Text) : Text := t.dropWhile isSpace

/-! ## Strings -/

/-- The value of a digit of base sixteen, in either case. -/
def hexValue? (c : Char) : Option Nat :=
  if '0' ≤ c ∧ c ≤ '9' then some (c.toNat - '0'.toNat)
  else if 'a' ≤ c ∧ c ≤ 'f' then some (c.toNat - 'a'.toNat + 10)
  else if 'A' ≤ c ∧ c ≤ 'F' then some (c.toNat - 'A'.toNat + 10)
  else none

/-- Four digits of base sixteen. -/
def hexQuad? (a b c d : Char) : Option Nat := do
  return (((← hexValue? a) * 16 + (← hexValue? b)) * 16 + (← hexValue? c)) * 16 + (← hexValue? d)

/-- The character that a letter after a backslash stands for. -/
def escaped? (c : Char) : Option Char :=
  if c = '"' then some '"'
  else if c = '\\' then some '\\'
  else if c = '/' then some '/'
  else if c = 'b' then some '\x08'
  else if c = 'f' then some '\x0c'
  else if c = 'n' then some '\n'
  else if c = 'r' then some '\r'
  else if c = 't' then some '\t'
  else none

/-- The rest of a string after its opening quote, and what follows the closing one. -/
def readString : Text → Option (Text × Text)
  | [] => none
  | '"' :: t => some ([], t)
  | '\\' :: 'u' :: a :: b :: c :: d :: t =>
    match hexQuad? a b c d with
    | none => none
    | some u =>
      if 0xd800 ≤ u ∧ u < 0xdc00 then
        match t with
        | '\\' :: 'u' :: a' :: b' :: c' :: d' :: t' =>
          match hexQuad? a' b' c' d' with
          | none => none
          | some l =>
            if 0xdc00 ≤ l ∧ l < 0xe000 then
              (readString t').map fun (s, r) =>
                (Char.ofNat (0x10000 + (u - 0xd800) * 0x400 + (l - 0xdc00)) :: s, r)
            else none
        | _ => none
      else if 0xdc00 ≤ u ∧ u < 0xe000 then none
      else (readString t).map fun (s, r) => (Char.ofNat u :: s, r)
  | '\\' :: e :: t =>
    match escaped? e with
    | none => none
    | some c => (readString t).map fun (s, r) => (c :: s, r)
  | c :: t => if c.toNat < 0x20 ∨ c = '\\' then none else (readString t).map fun (s, r) => (c :: s, r)

/-! ## Numbers -/

/-- The value of a run of decimal digits. -/
def digitsValue (ds : Text) : Nat := ds.foldl (fun n c => n * 10 + (c.toNat - '0'.toNat)) 0

/-- A run of at least one digit, and what follows it. -/
def readDigits (t : Text) : Option (Text × Text) :=
  match t.takeWhile Char.isDigit with
  | [] => none
  | ds => some (ds, t.dropWhile Char.isDigit)

/-- The whole part: a lone zero, or digits that do not start with one. -/
def readWhole : Text → Option (Text × Text)
  | '0' :: t => some (['0'], t)
  | t => readDigits t

/-- Digits after a point, if there is a point. -/
def readFraction : Text → Option (Text × Text)
  | '.' :: t => readDigits t
  | t => some ([], t)

/-- A signed exponent, if there is one. -/
def readExponent : Text → Option (Option Int × Text)
  | c :: t =>
    if c = 'e' ∨ c = 'E' then
      let (negative, t) := match t with
        | '+' :: t => (false, t)
        | '-' :: t => (true, t)
        | t => (false, t)
      (readDigits t).map fun (ds, r) =>
        (some (if negative then -(digitsValue ds : Int) else digitsValue ds), r)
    else some (none, c :: t)
  | [] => some (none, [])

/-- The first number past those of 64 bits with a sign. -/
def signedLimit : Nat := 9223372036854775808

/-- The number that an integer numeral stands for: itself if it fits 64 bits, else a double. A
negative zero is a double. -/
def numberOfInteger? (negative : Bool) (n : Nat) : Option Number :=
  if negative then
    if n ≠ 0 ∧ n ≤ signedLimit then some (.int (-(n : Int)))
    else (Double.ofDecimal true n 0).map .double
  else if n < UInt64.size then some (.int n)
  else (Double.ofDecimal false n 0).map .double

/-- A number. -/
def readNumber (t : Text) : Option (Number × Text) := do
  let (negative, t) := match t with
    | '-' :: t => (true, t)
    | t => (false, t)
  let (whole, t) ← readWhole t
  match t with
  | '.' :: _ | 'e' :: _ | 'E' :: _ =>
    let (fraction, t) ← readFraction t
    let (exponent, t) ← readExponent t
    let d ← Double.ofDecimal negative (digitsValue (whole ++ fraction))
      (exponent.getD 0 - fraction.length)
    return (.double d, t)
  | _ => return (← numberOfInteger? negative (digitsValue whole), t)

/-! ## Values -/

mutual

/-- A value, and what follows it. `depth` bounds the nesting. -/
def readValue : Nat → Nat → Text → Option (Json × Text)
  | 0, _, _ => none
  | fuel + 1, depth, t =>
    match skipSpace t with
    | 'n' :: 'u' :: 'l' :: 'l' :: r => some (.null, r)
    | 't' :: 'r' :: 'u' :: 'e' :: r => some (.bool true, r)
    | 'f' :: 'a' :: 'l' :: 's' :: 'e' :: r => some (.bool false, r)
    | '"' :: r => (readString r).map fun (s, r) => (.str (String.ofList s), r)
    | '[' :: r =>
      match depth with
      | 0 => none
      | depth + 1 =>
        match skipSpace r with
        | ']' :: r => some (.arr [], r)
        | r => (readItems fuel depth r).map fun (vs, r) => (.arr vs, r)
    | '{' :: r =>
      match depth with
      | 0 => none
      | depth + 1 =>
        match skipSpace r with
        | '}' :: r => some (.obj [], r)
        | r => (readMembers fuel depth r).map fun (ms, r) => (ofMembers ms, r)
    | r => (readNumber r).map fun (n, r) => (.num n, r)

/-- Items up to the closing bracket. -/
def readItems : Nat → Nat → Text → Option (List Json × Text)
  | 0, _, _ => none
  | fuel + 1, depth, t =>
    match readValue fuel depth t with
    | none => none
    | some (v, r) =>
      match skipSpace r with
      | ']' :: r => some ([v], r)
      | ',' :: r => (readItems fuel depth r).map fun (vs, r) => (v :: vs, r)
      | _ => none

/-- Members up to the closing brace. -/
def readMembers : Nat → Nat → Text → Option (List (String × Json) × Text)
  | 0, _, _ => none
  | fuel + 1, depth, t =>
    match skipSpace t with
    | '"' :: r =>
      match readString r with
      | none => none
      | some (k, r) =>
        match skipSpace r with
        | ':' :: r =>
          match readValue fuel depth r with
          | none => none
          | some (v, r) =>
            match skipSpace r with
            | '}' :: r => some ([(String.ofList k, v)], r)
            | ',' :: r =>
              (readMembers fuel depth r).map fun (ms, r) => ((String.ofList k, v) :: ms, r)
            | _ => none
        | _ => none
    | _ => none

end

/-- Reads a whole text as one value with at most `limit` nested arrays and objects. -/
def parseWithin? (limit : Nat) (t : Text) : Option Json :=
  match readValue (2 * t.length + 2) limit t with
  | some (v, r) => if (skipSpace r).isEmpty then some v else none
  | none => none

/-- The nesting that messages may have. -/
def nestingLimit : Nat := 127

/-- Reads a whole text as one value. -/
def parse? (t : Text) : Option Json := parseWithin? nestingLimit t

end Refactor.Json
