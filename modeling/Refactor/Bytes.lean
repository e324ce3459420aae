/-!
# Bytes

Byte strings as lists, searched for the first occurrence of a pattern, and their
reading as UTF-8 text.
-/

namespace Refactor

/-- A string of bytes. -/
abbrev Bytes := List UInt8

namespace Bytes

/-- The UTF-8 bytes of a string. -/
def ofString (s : String) : Bytes := s.toUTF8.data.toList

/-- The string that the bytes are the UTF-8 form of. -/
def toString? (b : Bytes) : Option String := String.fromUTF8? ⟨b.toArray⟩

/-- What stands before the first occurrence of a pattern, and what after it. -/
def cut? (b pattern : Bytes) : Option (Bytes × Bytes) :=
  match b with
  | [] => if pattern.isEmpty then some ([], []) else none
  | x :: rest =>
    if pattern.isPrefixOf (x :: rest) then some ([], (x :: rest).drop pattern.length)
    else
      match cut? rest pattern with
      | some (before, after) => some (x :: before, after)
      | none => none

theorem eq_of_cut? {pattern b before after : Bytes} (h : cut? b pattern = some (before, after)) :
    b = before ++ pattern ++ after := by
  induction b generalizing before with
  | nil =>
    simp only [cut?] at h
    split at h
    · simp_all
    · simp at h
  | cons x b ih =>
    simp only [cut?] at h
    split at h
    · rename_i hp
      obtain ⟨t, ht⟩ := List.isPrefixOf_iff_prefix.1 hp
      simp only [Option.some.injEq, Prod.mk.injEq] at h
      obtain ⟨rfl, rfl⟩ := h
      simp [← ht]
    · split at h
      · rename_i p q heq
        simp only [Option.some.injEq, Prod.mk.injEq] at h
        obtain ⟨rfl, rfl⟩ := h
        simp [ih heq]
      · simp at h

theorem length_of_cut? {pattern b before after : Bytes} (h : cut? b pattern = some (before, after)) :
    b.length = before.length + pattern.length + after.length := by
  rw [eq_of_cut? h]; simp; omega

/-- Bytes in pieces of a size, the last one perhaps shorter. A size of zero counts as one. -/
def chunks (size : Nat) : Bytes → List Bytes
  | [] => []
  | b :: bs => (b :: bs.take (size - 1)) :: chunks size (bs.drop (size - 1))
termination_by b => b.length

end Bytes

end Refactor
