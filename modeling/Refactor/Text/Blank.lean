import Refactor.Text.Basic

/-!
# Blank characters

A character is blank when Unicode gives it the property White_Space. A line is
blank when all of its characters are.
-/

namespace Refactor.Text

/-- Unicode White_Space. -/
def isBlankChar (c : Char) : Bool :=
  let n := c.toNat
  (0x09 ≤ n && n ≤ 0x0d) || n == 0x20 || n == 0x85 || n == 0xa0 || n == 0x1680 ||
    (0x2000 ≤ n && n ≤ 0x200a) || n == 0x2028 || n == 0x2029 || n == 0x202f || n == 0x205f ||
    n == 0x3000

/-- Only blank characters, or none at all. -/
def isBlank (t : Text) : Bool := t.all isBlankChar

/-- A text without the blank characters at its start. -/
def trimStart (t : Text) : Text := t.dropWhile isBlankChar

/-- A text without the blank characters at its two ends. -/
def trim (t : Text) : Text := ((trimStart t).reverse.dropWhile isBlankChar).reverse

end Refactor.Text
