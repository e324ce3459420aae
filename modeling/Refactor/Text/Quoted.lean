import Refactor.Text.Basic
import Refactor.Text.Unprintable

/-!
# Quoted text in messages

A message shows a text between double quotes. The quote, the backslash, the tab,
the two line ends and the NUL have short escapes; any other character without a
glyph of its own is shown by its code point.
-/

namespace Refactor.Text

/-- The code point of a character between braces. -/
def codePoint (c : Char) : Text :=
  '\\' :: 'u' :: '\x7b' :: (Nat.toDigits 16 c.toNat ++ ['\x7d'])

/-- A character inside quotes. -/
def quoteChar (c : Char) : Text :=
  if c = '\x00' then ['\\', '0']
  else if c = '\t' then ['\\', 't']
  else if c = '\r' then ['\\', 'r']
  else if c = '\n' then ['\\', 'n']
  else if c = '"' then ['\\', '"']
  else if c = '\\' then ['\\', '\\']
  else if isUnprintable c then codePoint c
  else [c]

/-- A text between quotes. -/
def quoted (t : Text) : Text := '"' :: (t.flatMap quoteChar ++ ['"'])

end Refactor.Text
