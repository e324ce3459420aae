import Refactor.Json.Reader

/-!
# Scalars of configuration files

Strings, numbers, truth values and times as TOML 1.0 writes them. A scalar is
kept as the JSON value with the same meaning. A time has no such value and is
kept as an object with one member that holds its normal form; an infinity or a
value that is no number is kept as null. A number past the largest double is an
infinity if it is negative, and is refused otherwise.
-/

namespace Refactor.Toml

/-- Spaces and tabs. -/
def isGap (c : Char) : Bool := c == ' ' || c == '\t'

/-- A text without the spaces and tabs at its start. -/
def skipGap (t : Text) : Text := t.dropWhile isGap

/-- What comments and strings may hold: no control character but the tab. -/
def isPlain (c : Char) : Bool := c == '\t' || (0x20 ≤ c.toNat && c.toNat != 0x7f)

/-- What follows a line end: a newline, or a carriage return and a newline. -/
def lineEnd? : Text → Option Text
  | '\n' :: t => some t
  | '\r' :: '\n' :: t => some t
  | _ => none

/-! ## Strings -/

/-- The character with the code that the next `n` digits of base sixteen give. -/
def readCode (n : Nat) (t : Text) : Option (Char × Text) := do
  let digits := t.take n
  let code ← digits.foldlM (fun v c => (Json.hexValue? c).map (v * 16 + ·)) 0
  if digits.length = n ∧ code.isValidChar then some (Char.ofNat code, t.drop n) else none

/-- What a backslash and the text after it stand for. -/
def readEscape : Text → Option (Char × Text)
  | 'u' :: t => readCode 4 t
  | 'U' :: t => readCode 8 t
  | c :: t => if c = '/' then none else (Json.escaped? c).map (·, t)
  | [] => none

/-- The rest of a string in double quotes. -/
def readQuoted : Nat → Text → Option (Text × Text)
  | _, '"' :: t => some ([], t)
  | fuel + 1, '\\' :: t => do
    let (c, t) ← readEscape t
    let (s, r) ← readQuoted fuel t
    return (c :: s, r)
  | fuel + 1, c :: t =>
    if isPlain c then (readQuoted fuel t).map fun (s, r) => (c :: s, r) else none
  | _, _ => none

/-- The rest of a string in single quotes, which has no escapes. -/
def readLiteral (t : Text) : Option (Text × Text) :=
  match t.dropWhile (fun c => isPlain c && c != '\'') with
  | '\'' :: r => some (t.takeWhile (fun c => isPlain c && c != '\''), r)
  | _ => none

/-- After three closing quotes, up to two more belong to the content. -/
def closing (quote : Char) (t : Text) : Text × Text :=
  let extra := min 2 (t.takeWhile (· == quote)).length
  (t.take extra, t.drop extra)

/-- Blanks and line ends left out. -/
def skipLines : Text → Text
  | '\r' :: '\n' :: t => skipLines t
  | c :: t => if isGap c || c == '\n' then skipLines t else c :: t
  | [] => []

/-- The rest of a string in three double quotes. A backslash at the end of a line takes the line
end and the blanks after it away. -/
def readQuotedLines : Nat → Text → Option (Text × Text)
  | 0, _ => none
  | fuel + 1, t =>
    match t with
    | '"' :: '"' :: '"' :: r => some (closing '"' r)
    | '\\' :: r =>
      match lineEnd? (skipGap r) with
      | some r => readQuotedLines fuel (skipLines r)
      | none => do
        let (c, r) ← readEscape r
        let (s, r) ← readQuotedLines fuel r
        return (c :: s, r)
    | _ =>
      match lineEnd? t, t with
      | some r, _ => (readQuotedLines fuel r).map fun (s, r) => ('\n' :: s, r)
      | none, c :: r =>
        if isPlain c then (readQuotedLines fuel r).map fun (s, r) => (c :: s, r) else none
      | none, [] => none

/-- The rest of a string in three single quotes. -/
def readLiteralLines : Nat → Text → Option (Text × Text)
  | 0, _ => none
  | fuel + 1, t =>
    match t with
    | '\'' :: '\'' :: '\'' :: r => some (closing '\'' r)
    | _ =>
      match lineEnd? t, t with
      | some r, _ => (readLiteralLines fuel r).map fun (s, r) => ('\n' :: s, r)
      | none, c :: r =>
        if isPlain c then (readLiteralLines fuel r).map fun (s, r) => (c :: s, r) else none
      | none, [] => none

/-- A string of any of the four kinds. A line end right after three opening quotes is left out. -/
def readString (t : Text) : Option (Text × Text) :=
  match t with
  | '"' :: '"' :: '"' :: r => readQuotedLines (t.length + 1) ((lineEnd? r).getD r)
  | '\'' :: '\'' :: '\'' :: r => readLiteralLines (t.length + 1) ((lineEnd? r).getD r)
  | '"' :: r => readQuoted (t.length + 1) r
  | '\'' :: r => readLiteral r
  | _ => none

/-! ## Numbers -/

/-- A numeral without its underscores, each of which stands between two digits. -/
def digits? (isDigit : Char → Bool) (t : Text) : Option Text :=
  let groups := Text.pieces '_' t
  if groups.all fun g => !g.isEmpty && g.all isDigit then some groups.flatten else none

/-- A sign, and the text after it. -/
def splitSign : Text → Bool × Text
  | '-' :: t => (true, t)
  | '+' :: t => (false, t)
  | t => (false, t)

/-- The value of a numeral in a base. -/
def inBase (base : Nat) (t : Text) : Option Nat :=
  (digits? (fun c => (Json.hexValue? c).any (· < base)) t).map
    fun ds => ds.foldl (fun n c => n * base + (Json.hexValue? c).getD 0) 0

/-- Decimal digits with no needless zero in front. -/
def whole? (t : Text) : Option Text :=
  match t with
  | '0' :: _ :: _ => none
  | _ => digits? Char.isDigit t

/-- An integer that fits 64 bits with a sign. -/
def integer? (t : Text) : Option Int := do
  let i : Int ← match t with
    | '0' :: 'x' :: ds => (inBase 16 ds).map Int.ofNat
    | '0' :: 'o' :: ds => (inBase 8 ds).map Int.ofNat
    | '0' :: 'b' :: ds => (inBase 2 ds).map Int.ofNat
    | _ =>
      let (negative, ds) := splitSign t
      (whole? ds).map fun ds =>
        if negative then -(Json.digitsValue ds : Int) else Json.digitsValue ds
  if -(Json.signedLimit : Int) ≤ i ∧ i < Json.signedLimit then some i else none

/-- A number with a fraction, an exponent or both. -/
def double? (t : Text) : Option Json := do
  let (negative, t) := splitSign t
  let isMark (c : Char) : Bool := c == 'e' || c == 'E'
  let mantissa := t.takeWhile (!isMark ·)
  let exponent : Int ← match t.dropWhile (!isMark ·) with
    | _ :: e =>
      let (negative, ds) := splitSign e
      (digits? Char.isDigit ds).map fun ds =>
        if negative then -(Json.digitsValue ds : Int) else Json.digitsValue ds
    | [] => if mantissa.contains '.' then some 0 else none
  let whole ← whole? (mantissa.takeWhile (· != '.'))
  let fraction ← match mantissa.dropWhile (· != '.') with
    | _ :: ds => digits? Char.isDigit ds
    | [] => some []
  match Double.ofDecimal negative (Json.digitsValue (whole ++ fraction))
      (exponent - fraction.length) with
  | some d => return .num (.double d)
  | none => if negative then return .null else none

/-! ## Times -/

/-- A numeral of exactly `n` digits within bounds. -/
def field? (n least most : Nat) (t : Text) : Option Nat :=
  if t.length = n ∧ t.all Char.isDigit then
    let v := Json.digitsValue t
    if least ≤ v ∧ v ≤ most then some v else none
  else none

/-- The days of a month. -/
def daysOf (year month : Nat) : Nat :=
  if month = 2 then
    if year % 4 = 0 ∧ (year % 100 ≠ 0 ∨ year % 400 = 0) then 29 else 28
  else if month = 4 ∨ month = 6 ∨ month = 9 ∨ month = 11 then 30
  else 31

/-- Year, month and day. -/
def date? (t : Text) : Option Text :=
  match Text.pieces '-' t with
  | [y, m, d] => do
    let year ← field? 4 0 9999 y
    let month ← field? 2 1 12 m
    let _ ← field? 2 1 (daysOf year month) d
    return t
  | _ => none

/-- Hour, minute, second and parts of a second down to the billionth. -/
def clock? (t : Text) : Option Text :=
  let start := t.take 8
  match Text.pieces ':' start with
  | [h, m, s] => do
    let _ ← field? 2 0 23 h
    let _ ← field? 2 0 59 m
    let _ ← field? 2 0 60 s
    match t.drop 8 with
    | [] => return start
    | '.' :: parts =>
      if parts.isEmpty || !parts.all Char.isDigit then none
      else
        let parts := ((parts.take 9).reverse.dropWhile (· == '0')).reverse
        return if parts.isEmpty then start else start ++ '.' :: parts
    | _ => none
  | _ => none

/-- The distance from universal time. -/
def zone? : Text → Option Text
  | ['z'] => some ['Z']
  | ['Z'] => some ['Z']
  | sign :: t =>
    match Text.pieces ':' t with
    | [h, m] => do
      let hours ← field? 2 0 23 h
      let minutes ← field? 2 0 59 m
      if sign = '+' ∨ sign = '-' then
        return (if hours = 0 ∧ minutes = 0 then '+' else sign) :: t
      else none
    | _ => none
  | [] => none

/-- A time of day with or without a zone. -/
def zonedClock? (t : Text) : Option Text :=
  let inClock (c : Char) : Bool := c.isDigit || c == ':' || c == '.'
  match t.dropWhile inClock with
  | [] => clock? t
  | z => return (← clock? (t.takeWhile inClock)) ++ (← zone? z)

/-- The value that stands for a time in normal form. -/
def timeValue (t : Text) : Json :=
  .obj [("$__toml_private_datetime", .str (String.ofList t))]

/-! ## Any scalar but a string -/

/-- Characters of a scalar without quotes. -/
def isWordChar (c : Char) : Bool :=
  c.isAlphanum || c == '_' || c == '+' || c == '-' || c == '.' || c == ':'

/-- A date, and a time of day after it if there is one: after a `T`, or after one space. -/
def readTime (word rest : Text) : Option (Json × Text) := do
  let date ← date? (word.take 10)
  match word.drop 10 with
  | [] =>
    let later : Option (Json × Text) := match rest with
      | ' ' :: r =>
        (zonedClock? (r.takeWhile isWordChar)).map fun clock =>
          (timeValue (date ++ 'T' :: clock), r.dropWhile isWordChar)
      | _ => none
    return later.getD (timeValue date, rest)
  | c :: w =>
    if c = 'T' ∨ c = 't' then return (timeValue (date ++ 'T' :: (← zonedClock? w)), rest)
    else none

/-- A scalar without quotes, and what follows it. -/
def readBare (t : Text) : Option (Json × Text) :=
  let word := t.takeWhile isWordChar
  let rest := t.dropWhile isWordChar
  if word = ['t', 'r', 'u', 'e'] then some (.bool true, rest)
  else if word = ['f', 'a', 'l', 's', 'e'] then some (.bool false, rest)
  else
    let (_, size) := splitSign word
    if size = ['i', 'n', 'f'] ∨ size = ['n', 'a', 'n'] then some (.null, rest)
    else
      match integer? word, double? word, clock? word with
      | some i, _, _ => some (.num (.int i), rest)
      | none, some d, _ => some (d, rest)
      | none, none, some c => some (timeValue c, rest)
      | none, none, none => readTime word rest

end Refactor.Toml
