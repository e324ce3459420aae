import Refactor.Proofs.Splice

/-!
# Edits stay inside the lines

Edits are applied with indices and byte positions that are not looked at again
once a span was found, and lines change under the edits that come later. The
operations of `Checked` fail where an index, a byte position or a difference is
not what it has to be. Editing with them never fails.

* `Text.isBoundary_iff`, `Text.isBoundary_boundaryAt`: the positions that offsets lead to
  lie between characters;
* `Span.InBounds`, `Span.inBounds_of_resolve`: what holds of every span that was found,
  whatever the lines and the edit are;
* `Span.InBounds.replace_eq`, `Span.InBounds.text_eq`: replacing and quoting such a span
  meets all checks;
* `edits_keep_bounds`: all of it for every edit in its turn and for the log.
-/

namespace Refactor

/-! ## Boundaries -/

namespace Text

theorem takeBytes_eq_take (n : Nat) (t : Text) : takeBytes n t = t.take (takeBytes n t).length := by
  have h : takeBytes n t <+: t := ⟨dropBytes n t, takeBytes_append_dropBytes n t⟩
  exact List.prefix_iff_eq_take.mp h

/-- A boundary is a position that the text before it reaches exactly. -/
theorem isBoundary_iff {t : Text} {n : Nat} : IsBoundary t n ↔ byteSize (takeBytes n t) = n := by
  constructor
  · rintro ⟨k, -, rfl⟩
    have h := takeBytes_append_right (t.take k) (t.drop k) 0
    rw [List.take_append_drop, Nat.add_zero, takeBytes_zero, List.append_nil] at h
    rw [h]
  · intro h
    refine ⟨(takeBytes n t).length, ?_, by rw [← takeBytes_eq_take, h]⟩
    have hlen := congrArg List.length (takeBytes_append_dropBytes n t)
    rw [List.length_append] at hlen
    omega

instance (t : Text) (n : Nat) : Decidable (IsBoundary t n) := decidable_of_iff _ isBoundary_iff.symm

theorem isBoundary_zero (t : Text) : IsBoundary t 0 := ⟨0, Nat.zero_le _, by simp [byteSize]⟩

theorem isBoundary_byteSize (t : Text) : IsBoundary t (byteSize t) := ⟨t.length, Nat.le_refl _, by rw [List.take_length]⟩

theorem isBoundary_boundaryAt (n : Nat) (t : Text) : IsBoundary t (boundaryAt n t) :=
  isBoundary_iff.mpr (byteSize_takeBytes_boundaryAt n t)

theorem IsBoundary.le_byteSize {t : Text} {n : Nat} (h : IsBoundary t n) : n ≤ byteSize t := by
  have hsize := congrArg byteSize (takeBytes_append_dropBytes n t)
  rw [byteSize_append, isBoundary_iff.mp h] at hsize
  omega

theorem IsBoundary.byteSize_dropBytes {t : Text} {n : Nat} (h : IsBoundary t n) :
    byteSize (dropBytes n t) = byteSize t - n := by
  have hsize := congrArg byteSize (takeBytes_append_dropBytes n t)
  rw [byteSize_append, isBoundary_iff.mp h] at hsize
  omega

end Text

open Text (IsBoundary byteSize takeBytes dropBytes)

/-! ## Operations that check -/

namespace Checked

/-- A difference of numbers, unless it is below zero. -/
def sub (m n : Nat) : Option Nat := if n ≤ m then some (m - n) else none

/-- The text between two byte positions, which have to be boundaries of the text, one not before the other. -/
def slice (t : Text) (i j : Nat) : Option Text :=
  if i ≤ j ∧ IsBoundary t i ∧ IsBoundary t j then some (dropBytes i (takeBytes j t)) else none

/-- The lines from one index up to another, which have to be in order and inside the lines. -/
def range (lines : List Text) (i j : Nat) : Option (List Text) :=
  if i ≤ j ∧ j ≤ lines.length then some ((lines.take j).drop i) else none

/-- New lines in place of those from one index through another, which have to be in order and inside the lines. -/
def splice (lines : List Text) (i j : Nat) (new : List Text) : Option (List Text) :=
  if i ≤ j ∧ j < lines.length then some (lines.take i ++ new ++ lines.drop (j + 1)) else none

/-- The span of an edit. Lines are looked up by index once they are known to be there. -/
def resolve (lines : List Text) (e : TextEdit) : Option (Except EditError Span) :=
  let sl := e.startLine.toNat
  let el := e.endLine.toNat
  let n := lines.length
  if ¬ (1 ≤ sl ∧ sl ≤ n ∧ 1 ≤ el ∧ el ≤ n) then some (.error (.outside sl el n))
  else if el < sl then some (.error (.linesReversed sl el))
  else do
    let startLine ← sub sl 1
    let endLine ← sub el 1
    let first ← lines[startLine]?
    let last ← lines[endLine]?
    let startByte := Span.byteOfOffset first e.startOffset.toNat
    let endByte := Span.byteOfOffset last e.endOffset.toNat
    if startLine = endLine ∧ endByte < startByte then
      some (.error (.offsetsReversed e.startOffset.toNat e.endOffset.toNat sl))
    else some (.ok ⟨startLine, startByte, endLine, endByte⟩)

/-- The bytes to set aside for the line that a replacement leaves, before it is cut at newlines. -/
def room (s : Span) (lines : List Text) (newText : Text) : Option Nat := do
  let last ← lines[s.endLine]?
  sub (s.startByte + byteSize newText + byteSize last) s.endByte

/-- The lines with the text of a span replaced. -/
def replace (s : Span) (lines : List Text) (newText : Text) : Option (List Text) := do
  let first ← lines[s.startLine]?
  let last ← lines[s.endLine]?
  let _ ← room s lines newText
  let before ← slice first 0 s.startByte
  let after ← slice last s.endByte (byteSize last)
  splice lines s.startLine s.endLine (Text.lines (before ++ newText ++ after))

/-- Edits one after the other. -/
def applyEdits (lines : List Text) : List TextEdit → Option (Except EditError (List Text))
  | [] => some (.ok lines)
  | e :: es => do
    match ← resolve lines e with
    | .error err => some (.error err)
    | .ok s =>
      let lines ← replace s lines e.newText
      applyEdits lines es

/-- The text of a span. -/
def text (s : Span) (lines : List Text) : Option Text := do
  let first ← lines[s.startLine]?
  if s.startLine = s.endLine then slice first s.startByte s.endByte
  else
    let last ← lines[s.endLine]?
    let head ← slice first s.startByte (byteSize first)
    let middle ← range lines (s.startLine + 1) s.endLine
    let tail ← slice last 0 s.endByte
    some (Text.unlines (head :: (middle ++ [tail])))

/-- The text that an edit covers. -/
def coveredText (lines : List Text) (e : TextEdit) : Option Text := do
  match ← resolve lines e with
  | .ok s => text s lines
  | .error _ => some []

/-- The texts that the log of edits quotes. -/
def coveredTexts (lines : List Text) : List TextEdit → Option (List Text)
  | [] => some []
  | e :: es => do
    let t ← coveredText lines e
    let ts ← coveredTexts lines es
    some (t :: ts)

theorem sub_of_le {m n : Nat} (h : n ≤ m) : sub m n = some (m - n) := if_pos h

theorem slice_of_boundary {t : Text} {i j : Nat} (h : i ≤ j) (hi : IsBoundary t i) (hj : IsBoundary t j) :
    slice t i j = some (dropBytes i (takeBytes j t)) := if_pos ⟨h, hi, hj⟩

theorem slice_zero {t : Text} {j : Nat} (hj : IsBoundary t j) : slice t 0 j = some (takeBytes j t) := by
  rw [slice_of_boundary (Nat.zero_le j) (Text.isBoundary_zero t) hj]
  simp [dropBytes]

theorem slice_byteSize {t : Text} {i : Nat} (hi : IsBoundary t i) : slice t i (byteSize t) = some (dropBytes i t) := by
  rw [slice_of_boundary hi.le_byteSize hi (Text.isBoundary_byteSize t), Text.takeBytes_byteSize]

end Checked

/-! ## Spans that were found -/

namespace Span

/-- The lines of a span are there, in order, and it starts and ends between characters of its lines. -/
structure InBounds (s : Span) (lines : List Text) : Prop where
  lines_le : s.startLine ≤ s.endLine
  endLine_lt : s.endLine < lines.length
  start_boundary : IsBoundary (lineAt lines s.startLine) s.startByte
  end_boundary : IsBoundary (lineAt lines s.endLine) s.endByte
  bytes_le : s.startLine = s.endLine → s.startByte ≤ s.endByte

theorem inBounds_of_resolve {lines : List Text} {e : TextEdit} {s : Span} (h : resolve lines e = .ok s) :
    s.InBounds lines := by
  rw [resolve] at h
  split at h
  · cases h
  split at h
  · cases h
  rename_i hin hle
  dsimp only at h
  split at h
  · cases h
  rename_i hbytes
  obtain rfl := Except.ok.inj h
  refine ⟨?_, ?_, Text.isBoundary_boundaryAt _ _, Text.isBoundary_boundaryAt _ _, fun heq => ?_⟩
  · show e.startLine.toNat - 1 ≤ e.endLine.toNat - 1
    omega
  · show e.endLine.toNat - 1 < lines.length
    omega
  · have heq' : e.startLine.toNat - 1 = e.endLine.toNat - 1 := heq
    have : ¬ byteOfOffset (lineAt lines (e.endLine.toNat - 1)) e.endOffset.toNat <
        byteOfOffset (lineAt lines (e.startLine.toNat - 1)) e.startOffset.toNat := fun hlt => hbytes ⟨by omega, hlt⟩
    exact Nat.le_of_not_lt this

theorem getElem?_eq_lineAt {lines : List Text} {i : Nat} (h : i < lines.length) : lines[i]? = some (lineAt lines i) := by
  rw [List.getElem?_eq_getElem h, lineAt_of_lt h]

/-- Looking lines up by index changes nothing. -/
theorem checked_resolve (lines : List Text) (e : TextEdit) : Checked.resolve lines e = some (resolve lines e) := by
  rw [Checked.resolve, resolve]
  dsimp only
  split
  · rfl
  split
  · rfl
  rename_i hin hle
  have hs : e.startLine.toNat - 1 < lines.length := by omega
  have he : e.endLine.toNat - 1 < lines.length := by omega
  have hiff : e.startLine.toNat - 1 = e.endLine.toNat - 1 ↔ e.startLine.toNat = e.endLine.toNat := by omega
  rw [Checked.sub_of_le (by omega), Checked.sub_of_le (by omega)]
  simp only [bind, Option.bind_some, getElem?_eq_lineAt hs, getElem?_eq_lineAt he, hiff]
  split <;> rfl

namespace InBounds

variable {s : Span} {lines : List Text}

theorem startLine_lt (h : s.InBounds lines) : s.startLine < lines.length := Nat.lt_of_le_of_lt h.lines_le h.endLine_lt

/-- The end of a span lies in the bytes that its replacement is made of. -/
theorem endByte_le (h : s.InBounds lines) (newText : Text) :
    s.endByte ≤ s.startByte + byteSize newText + byteSize (lineAt lines s.endLine) := by
  have := h.end_boundary.le_byteSize
  omega

/-- The bytes set aside are as many as the replacement has. -/
theorem room_eq (h : s.InBounds lines) (newText : Text) :
    Checked.room s lines newText = some (byteSize (s.before lines ++ newText ++ s.after lines)) := by
  have hbefore : byteSize (s.before lines) = s.startByte := Text.isBoundary_iff.mp h.start_boundary
  have hafter : byteSize (s.after lines) = byteSize (lineAt lines s.endLine) - s.endByte :=
    h.end_boundary.byteSize_dropBytes
  have hle := h.end_boundary.le_byteSize
  rw [Checked.room, getElem?_eq_lineAt h.endLine_lt]
  simp only [bind, Option.bind_some]
  rw [Checked.sub_of_le (h.endByte_le newText), Text.byteSize_append, Text.byteSize_append, hbefore, hafter]
  congr 1
  omega

theorem replace_eq (h : s.InBounds lines) (newText : Text) :
    Checked.replace s lines newText = some (s.replace lines newText) := by
  rw [Checked.replace, getElem?_eq_lineAt h.startLine_lt, getElem?_eq_lineAt h.endLine_lt, h.room_eq]
  simp only [bind, Option.bind_some, Checked.slice_zero h.start_boundary, Checked.slice_byteSize h.end_boundary]
  exact if_pos ⟨h.lines_le, h.endLine_lt⟩

theorem text_eq (h : s.InBounds lines) : Checked.text s lines = some (s.text lines) := by
  rw [Checked.text, getElem?_eq_lineAt h.startLine_lt, Span.text]
  simp only [bind, Option.bind_some]
  split
  · rename_i heq
    have hend : IsBoundary (lineAt lines s.startLine) s.endByte := heq ▸ h.end_boundary
    exact Checked.slice_of_boundary (h.bytes_le heq) h.start_boundary hend
  · rename_i hne
    have hlt := h.lines_le
    have hrange : Checked.range lines (s.startLine + 1) s.endLine =
        some ((lines.take s.endLine).drop (s.startLine + 1)) := if_pos ⟨by omega, Nat.le_of_lt h.endLine_lt⟩
    simp only [getElem?_eq_lineAt h.endLine_lt, Option.bind_some, Checked.slice_byteSize h.start_boundary, hrange,
      Checked.slice_zero h.end_boundary]

end InBounds

end Span

/-! ## Editing and logging -/

theorem checked_applyEdits (lines : List Text) (edits : List TextEdit) :
    Checked.applyEdits lines edits = some (applyEdits lines edits) := by
  induction edits generalizing lines with
  | nil => rfl
  | cons e es ih =>
    rw [Checked.applyEdits, Span.checked_resolve, applyEdits, applyEdit]
    simp only [bind, Option.bind_some]
    cases hs : Span.resolve lines e with
    | error err => rfl
    | ok s =>
      simp only [(Span.inBounds_of_resolve hs).replace_eq, Option.bind_some]
      exact ih _

theorem checked_coveredText (lines : List Text) (e : TextEdit) :
    Checked.coveredText lines e = some (coveredText lines e) := by
  rw [Checked.coveredText, Span.checked_resolve, coveredText]
  simp only [bind, Option.bind_some]
  cases hs : Span.resolve lines e with
  | error err => rfl
  | ok s => exact (Span.inBounds_of_resolve hs).text_eq

theorem checked_coveredTexts (lines : List Text) (edits : List TextEdit) :
    Checked.coveredTexts lines edits = some (edits.map (coveredText lines)) := by
  induction edits with
  | nil => rfl
  | cons e es ih =>
    rw [Checked.coveredTexts, checked_coveredText, ih]
    rfl

/-- The first edit that is refused fails those before it and after it. -/
theorem applyEdits_of_refused {lines current : List Text} {before after : List TextEdit} {e : TextEdit} {err : EditError}
    (hb : applyEdits lines before = .ok current) (he : Span.resolve current e = .error err) :
    applyEdits lines (before ++ e :: after) = .error err := by
  induction before generalizing lines with
  | nil =>
    obtain rfl := Except.ok.inj hb
    rw [List.nil_append, applyEdits, applyEdit, he]
  | cons d before ih =>
    rw [applyEdits] at hb
    rw [List.cons_append, applyEdits]
    cases hd : applyEdit lines d with
    | error err' => simp [hd] at hb
    | ok lines' =>
      rw [hd] at hb
      exact ih hb

/-- Edits of any lines, in any order and with any positions, meet the bounds of what they are applied to and
logged from. -/
structure KeepsBounds (lines : List Text) (edits : List TextEdit) : Prop where
  /-- In its turn an edit is refused, and all are with it, or its span is inside the lines that those before it left,
  and the bytes to set aside for what replaces it are not fewer than none. -/
  applied : ∀ before e after current, edits = before ++ e :: after → applyEdits lines before = .ok current →
    (∃ err, Span.resolve current e = .error err ∧ applyEdits lines edits = .error err) ∨
      ∃ s, Span.resolve current e = .ok s ∧ s.InBounds current ∧
        s.endByte ≤ s.startByte + byteSize e.newText + byteSize (Span.lineAt current s.endLine)
  /-- The log quotes nothing for an edit that does not fit the lines, or a span inside them. -/
  logged : ∀ e, (∃ err, Span.resolve lines e = .error err ∧ coveredText lines e = []) ∨
    ∃ s, Span.resolve lines e = .ok s ∧ s.InBounds lines ∧ coveredText lines e = s.text lines
  /-- No check fails while edits are applied. -/
  checks_applied : Checked.applyEdits lines edits = some (applyEdits lines edits)
  /-- No check fails while edits are logged. -/
  checks_logged : ∀ path,
    Checked.coveredTexts lines edits = some ((changeRecord lines edits path).entries.map (·.oldText))

/-- Nothing is ever looked up, cut or counted outside its bounds. -/
theorem edits_keep_bounds (lines : List Text) (edits : List TextEdit) : KeepsBounds lines edits where
  applied before e after current hsplit hb := by
    cases hs : Span.resolve current e with
    | error err => exact .inl ⟨err, rfl, hsplit ▸ applyEdits_of_refused hb hs⟩
    | ok s =>
      have hbounds := Span.inBounds_of_resolve hs
      exact .inr ⟨s, rfl, hbounds, hbounds.endByte_le e.newText⟩
  logged e := by
    cases hs : Span.resolve lines e with
    | error err => exact .inl ⟨err, rfl, by rw [coveredText, hs]⟩
    | ok s => exact .inr ⟨s, rfl, Span.inBounds_of_resolve hs, by rw [coveredText, hs]⟩
  checks_applied := checked_applyEdits lines edits
  checks_logged path := by
    rw [checked_coveredTexts, changeRecord, List.map_map]
    rfl

end Refactor
