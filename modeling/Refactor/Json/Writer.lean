import Refactor.Json.Value
import Refactor.Decimal.Shortest
import Refactor.Text.Basic

/-!
# Writing JSON

Values are written without blanks. In a string the quote, the backslash and the
control characters are escaped and every other character stands for itself, so
a written value never contains a newline.
-/

namespace Refactor.Json

/-- A digit of base sixteen in lower case. -/
def hexDigit (n : Nat) : Char := Nat.digitChar (n % 16)

/-- A character inside a string. -/
def escapeChar (c : Char) : Text :=
  if c = '"' then ['\\', '"']
  else if c = '\\' then ['\\', '\\']
  else if c = '\x08' then ['\\', 'b']
  else if c = '\t' then ['\\', 't']
  else if c = '\n' then ['\\', 'n']
  else if c = '\x0c' then ['\\', 'f']
  else if c = '\r' then ['\\', 'r']
  else if c.toNat < 0x20 then ['\\', 'u', '0', '0', hexDigit (c.toNat / 16), hexDigit c.toNat]
  else [c]

/-- A string between quotes. -/
def writeString (s : Text) : Text := '"' :: (s.flatMap escapeChar ++ ['"'])

/-- An integer in decimal digits. -/
def writeInt : Int → Text
  | .ofNat n => Nat.toDigits 10 n
  | .negSucc n => '-' :: Nat.toDigits 10 (n + 1)

/-- A number; a double is written in its shortest digits. -/
def writeNumber : Number → Text
  | .int i => writeInt i
  | .double d => (d.render Double.Layout.standard).toList

mutual

/-- A value without blanks, members in the order in which they stand. -/
def write : Json → Text
  | .null => ['n', 'u', 'l', 'l']
  | .bool true => ['t', 'r', 'u', 'e']
  | .bool false => ['f', 'a', 'l', 's', 'e']
  | .num n => writeNumber n
  | .str s => writeString s.toList
  | .arr items => '[' :: (writeItems items ++ [']'])
  | .obj members => '{' :: (writeMembers members ++ ['}'])

/-- Items with commas between them. -/
def writeItems : List Json → Text
  | [] => []
  | [v] => write v
  | v :: vs => write v ++ ',' :: writeItems vs

/-- Members with commas between them. -/
def writeMembers : List (String × Json) → Text
  | [] => []
  | [(k, v)] => writeString k.toList ++ ':' :: write v
  | (k, v) :: ms => writeString k.toList ++ ':' :: (write v ++ ',' :: writeMembers ms)

end

/-- The written value as a string. -/
def compact (v : Json) : String := String.ofList v.write

end Refactor.Json
