import Mathlib.Order.Bounds.Basic
import Refactor.Proofs.Bounds

/-!
# Offsets and byte positions

Editors give places in a line as one-based UTF-16 offsets, lines are cut at byte positions. Characters have between one
and four bytes and one or two units, so an offset may lie inside a character or past the end of the line.

* `unitsBefore`, `offsetOfByte`: from byte positions to offsets;
* `boundaryAt_le_of_le`: a boundary with enough units before it is not passed over; `isLeast_boundaryAt`: hence the least
  one is found;
* `boundaryAt_unitsBefore`: a boundary is found from the units before it;
* `byteOfOffset_converts`: what offsets become in every line.
-/

namespace Refactor

open Text (IsBoundary units byteSize takeBytes boundaryAt)

namespace Text

/-! ## Units before a position -/

/-- The UTF-16 units of a text before a byte position. -/
def unitsBefore (t : Text) (b : Nat) : Nat := units (takeBytes b t)

theorem takeBytes_prefix_takeBytes {m n : Nat} (h : m ≤ n) (t : Text) : takeBytes m t <+: takeBytes n t := by
  induction t generalizing m n with
  | nil => simp
  | cons c t ih =>
    cases m with
    | zero => simp
    | succ m =>
      obtain ⟨k, rfl⟩ := Nat.exists_eq_add_of_le' (show 1 ≤ n by omega)
      have hrest := ih (m := m + 1 - c.utf8Size) (n := k + 1 - c.utf8Size) (by omega)
      simpa [takeBytes] using hrest

theorem unitsBefore_mono {m n : Nat} (h : m ≤ n) (t : Text) : unitsBefore t m ≤ unitsBefore t n := by
  obtain ⟨u, hu⟩ := takeBytes_prefix_takeBytes h t
  rw [unitsBefore, unitsBefore, ← hu, units_append]
  omega

theorem unitsBefore_byteSize (t : Text) : unitsBefore t (byteSize t) = units t := by
  rw [unitsBefore, takeBytes_byteSize]

theorem IsBoundary.unitsBefore_le {t : Text} {b : Nat} (h : IsBoundary t b) : unitsBefore t b ≤ units t := by
  rw [← unitsBefore_byteSize]
  exact unitsBefore_mono h.le_byteSize t

/-! ## The least boundary -/

/-- A boundary with enough units before it is not passed over. -/
theorem boundaryAt_le_of_le {n b : Nat} {t : Text} (hb : IsBoundary t b) (h : n ≤ unitsBefore t b) :
    boundaryAt n t ≤ b := by
  calc boundaryAt n t
      = boundaryAt n (takeBytes b t ++ dropBytes b t) := by rw [takeBytes_append_dropBytes]
    _ = boundaryAt n (takeBytes b t) := boundaryAt_append_left h _
    _ ≤ byteSize (takeBytes b t) := boundaryAt_le_byteSize _ _
    _ = b := isBoundary_iff.mp hb

/-- The boundaries of a text with at least `n` units before them. -/
def boundariesFrom (t : Text) (n : Nat) : Set Nat := {b | IsBoundary t b ∧ n ≤ unitsBefore t b}

theorem boundariesFrom_nonempty_iff {n : Nat} {t : Text} : (boundariesFrom t n).Nonempty ↔ n ≤ units t := by
  constructor
  · rintro ⟨b, hb, h⟩
    exact Nat.le_trans h hb.unitsBefore_le
  · intro h
    exact ⟨byteSize t, isBoundary_byteSize t, by rwa [unitsBefore_byteSize]⟩

theorem isLeast_boundaryAt {n : Nat} {t : Text} (h : n ≤ units t) : IsLeast (boundariesFrom t n) (boundaryAt n t) := by
  refine ⟨⟨isBoundary_boundaryAt n t, le_units_takeBytes h⟩, ?_⟩
  rintro b ⟨hb, hunits⟩
  exact boundaryAt_le_of_le hb hunits

/-- A boundary is found from the units before it. -/
theorem boundaryAt_unitsBefore {t : Text} {b : Nat} (hb : IsBoundary t b) : boundaryAt (unitsBefore t b) t = b := by
  have hright := boundaryAt_append_right (Nat.le_refl (units (takeBytes b t))) (dropBytes b t)
  rwa [takeBytes_append_dropBytes, Nat.sub_self, boundaryAt_zero, Nat.add_zero, isBoundary_iff.mp hb] at hright

end Text

namespace Span

/-! ## Offsets -/

/-- The one-based UTF-16 offset of a byte position in a line. -/
def offsetOfByte (line : Text) (b : Nat) : Nat := Text.unitsBefore line b + 1

/-- What offsets become in a line. -/
structure Converts (line : Text) : Prop where
  /-- The least boundary with as many units before it as an offset has, where there is one. -/
  least : ∀ offset, (Text.boundariesFrom line (offset - 1)).Nonempty →
    IsLeast (Text.boundariesFrom line (offset - 1)) (byteOfOffset line offset)
  /-- The end of the line where there is none. -/
  clamped : ∀ offset, ¬ (Text.boundariesFrom line (offset - 1)).Nonempty → byteOfOffset line offset = byteSize line
  monotone : Monotone (byteOfOffset line)
  /-- The offset of a boundary leads back to it. -/
  inverse : ∀ b, IsBoundary line b → byteOfOffset line (offsetOfByte line b) = b
  /-- An offset that the start of the line has room for is found there, whatever follows. -/
  stable : ∀ start rest offset, line = start ++ rest → offset - 1 ≤ units start →
    byteOfOffset line offset ≤ byteSize start ∧
      ∀ rest', byteOfOffset (start ++ rest') offset = byteOfOffset line offset

/-- Offsets are converted in every line, whatever characters it has. -/
theorem byteOfOffset_converts (line : Text) : Converts line where
  least offset h := Text.isLeast_boundaryAt (Text.boundariesFrom_nonempty_iff.mp h)
  clamped offset h := by
    rw [Text.boundariesFrom_nonempty_iff] at h
    exact Text.boundaryAt_of_units_le (by omega)
  monotone m n h := Text.boundaryAt_mono (Nat.sub_le_sub_right h 1) line
  inverse b hb := by
    rw [byteOfOffset, offsetOfByte, Nat.add_sub_cancel]
    exact Text.boundaryAt_unitsBefore hb
  stable start rest offset hline h := by
    have hstart : ∀ u, byteOfOffset (start ++ u) offset = byteOfOffset start offset :=
      fun u => Text.boundaryAt_append_left h u
    rw [hline, hstart]
    exact ⟨Text.boundaryAt_le_byteSize _ _, fun u => hstart u⟩

-- the second unit of a character outside the basic plane leads to its end, as the offset after it does
example : [0, 1, 2, 3, 4, 5, 6].map (byteOfOffset ['a', '😀', 'b']) = [0, 0, 1, 5, 5, 6, 6] := by decide

end Span

end Refactor
