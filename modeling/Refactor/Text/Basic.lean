/-!
# Texts, lines and widths

A text is a list of characters. Lines are the pieces between newlines, so a
text always has at least one line and a line never contains a newline.

Positions inside a line come in two units. Editors count UTF-16 code units
(`units`); files count UTF-8 bytes (`byteSize`). `boundaryAt` goes from the
first to the second, and only ever answers positions between two characters.
-/

namespace Refactor

/-- Text as a list of characters. -/
abbrev Text := List Char

namespace Text

/-! ## Pieces -/

/-- The pieces of a text between occurrences of `sep`, one more than there are occurrences. -/
def pieces (sep : Char) : Text → List Text
  | [] => [[]]
  | c :: t => if c = sep then [] :: pieces sep t else (pieces sep t).modifyHead (c :: ·)

/-- The lines of a text. -/
def lines (t : Text) : List Text := pieces '\n' t

/-- Lines put together again, with a newline between each two. -/
def unlines (ls : List Text) : Text := ['\n'].intercalate ls

/-- Drops one `c` from the end, if there is one. -/
def stripEnd (c : Char) : Text → Text
  | [] => []
  | [d] => if d = c then [] else [d]
  | d :: e :: t => d :: stripEnd c (e :: t)

/-! ## Widths -/

/-- UTF-16 code units of a character: two outside the basic plane. -/
def charUnits (c : Char) : Nat := if c.toNat < 0x10000 then 1 else 2

/-- UTF-16 code units of a text. -/
def units : Text → Nat
  | [] => 0
  | c :: t => charUnits c + units t

/-- UTF-8 bytes of a text. -/
def byteSize : Text → Nat
  | [] => 0
  | c :: t => c.utf8Size + byteSize t

/-- The byte position of the first boundary that has at least `n` UTF-16 units before it, or the
end of the text if it is shorter. -/
def boundaryAt : Nat → Text → Nat
  | 0, _ => 0
  | _ + 1, [] => 0
  | n + 1, c :: t => c.utf8Size + boundaryAt (n + 1 - charUnits c) t

/-- A byte position between two characters, or at either end. -/
def IsBoundary (t : Text) (n : Nat) : Prop := ∃ k, k ≤ t.length ∧ byteSize (t.take k) = n

/-- The text before byte position `n`. -/
def takeBytes : Nat → Text → Text
  | 0, _ => []
  | _ + 1, [] => []
  | n + 1, c :: t => c :: takeBytes (n + 1 - c.utf8Size) t

/-- The text from byte position `n` on. -/
def dropBytes : Nat → Text → Text
  | 0, t => t
  | _ + 1, [] => []
  | n + 1, c :: t => dropBytes (n + 1 - c.utf8Size) t

/-! ## Small laws -/

theorem pieces_ne_nil (sep : Char) (t : Text) : pieces sep t ≠ [] := by
  induction t with
  | nil => simp [pieces]
  | cons c t ih =>
    cases h : pieces sep t with
    | nil => exact absurd h ih
    | cons l ls => simp only [pieces, h]; split <;> simp

theorem takeBytes_append_dropBytes (n : Nat) (t : Text) : takeBytes n t ++ dropBytes n t = t := by
  induction t generalizing n with
  | nil => cases n <;> rfl
  | cons c t ih => cases n <;> simp [takeBytes, dropBytes, ih]

end Text

end Refactor
