import Refactor.Proofs.RoundTrips

/-!
# A text over many rounds of edits

Line numbers of later edits rest on how a text is held in between: as at least one line, none of which holds
a newline, with the ending that was found at the start. Edits cut and join lines at any place and in any
order, and bring in newlines and returns of their own; what they leave is held the same way.

* `isLines_applyEdits`: what edits keep, whether or not they are sorted or lie apart;
* `attempt_ok`: all that a round of edits can do to a text;
* `Held.after`, `Held.afterAll`: what one round keeps and what a session keeps;
* `lines_join`: the written text has the lines of the source text, with the returns of its ending.
-/

namespace Refactor

/-! ## Edits -/

theorem Span.isLines_replace {lines : List Text} (h : Text.IsLines lines) (s : Span) (newText : Text) :
    Text.IsLines (s.replace lines newText) where
  ne_nil := by
    have hne := (Text.isLines_lines (s.before lines ++ newText ++ s.after lines)).ne_nil
    exact List.append_ne_nil_of_left_ne_nil (List.append_ne_nil_of_right_ne_nil _ hne) _
  no_newline := s.notMem_replace h.no_newline fun _ => rfl

/-- Edits leave lines, in whatever order they come and wherever they are. -/
theorem isLines_applyEdits {es : List TextEdit} {lines result : List Text} (hl : Text.IsLines lines)
    (h : applyEdits lines es = .ok result) : Text.IsLines result := by
  induction es generalizing lines with
  | nil =>
    cases h
    exact hl
  | cons e es ih =>
    rw [applyEdits, applyEdit] at h
    cases hs : Span.resolve lines e with
    | error err => simp [hs] at h
    | ok s =>
      simp only [hs] at h
      exact ih (s.isLines_replace hl e.newText) h

theorem LineEnding.notMem_strip {c : Char} {l : Text} (e : LineEnding) (h : c ∉ l) : c ∉ e.strip l := by
  cases e with
  | lf => exact h
  | crlf => exact Text.notMem_stripEnd h

theorem LineEnding.isLines_map_strip {ls : List Text} (e : LineEnding) (h : Text.IsLines ls) :
    Text.IsLines (ls.map e.strip) where
  ne_nil := by simpa using h.ne_nil
  no_newline := by
    intro l hl
    obtain ⟨m, hm, rfl⟩ := List.mem_map.mp hl
    exact e.notMem_strip (h.no_newline m hm)

namespace SourceText

/-! ## Rounds -/

/-- Edits that are applied together, perhaps fitted to the indentation of the text first. -/
inductive Round where
  /-- Edits of a batch to the file of a path, which brings them into order. -/
  | batch (normalize : Bool) (edits : List TextEdit) (path : Path)
  /-- Edits in the order in which they stand. -/
  | inOrder (normalize : Bool) (edits : List TextEdit)

/-- A text after a round, or why an edit does not fit. -/
def attempt (t : SourceText) : Round → Except EditError SourceText
  | .batch normalize edits path => (t.edit normalize edits path).map Prod.fst
  | .inOrder normalize edits =>
    (applyEdits t.lines (if normalize then edits.map (Indent.normalize t.lines) else edits)).map t.withLines

/-- A text after a round; one that does not fit changes nothing. -/
def after (t : SourceText) (r : Round) : SourceText :=
  match t.attempt r with
  | .ok u => u
  | .error _ => t

/-- A text after rounds in turn. -/
def afterAll (t : SourceText) (rs : List Round) : SourceText := rs.foldl after t

/-- A round applies some edits and takes the lines that they leave. -/
theorem attempt_ok {t u : SourceText} {r : Round} (h : t.attempt r = .ok u) :
    ∃ es lines, applyEdits t.lines es = .ok lines ∧ u = t.withLines lines := by
  cases r with
  | batch normalize edits path =>
    rw [attempt, edit] at h
    cases ha : applyEdits t.lines (t.prepare normalize edits) with
    | error e => simp [ha, Except.map] at h
    | ok lines =>
      simp only [ha, Except.map, Except.ok.injEq] at h
      exact ⟨_, lines, ha, h.symm⟩
  | inOrder normalize edits =>
    rw [attempt] at h
    cases ha : applyEdits t.lines (if normalize then edits.map (Indent.normalize t.lines) else edits) with
    | error e => simp [ha, Except.map] at h
    | ok lines =>
      simp only [ha, Except.map, Except.ok.injEq] at h
      exact ⟨_, lines, ha, h.symm⟩

/-! ## How a text is held -/

/-- At least one line, none of which holds a newline, and the ending `e`. -/
structure Held (e : LineEnding) (t : SourceText) : Prop where
  isLines : Text.IsLines t.lines
  ending_eq : t.ending = e

theorem held_parse (content : Text) : Held (LineEnding.detect content) (parse content) :=
  ⟨(LineEnding.detect content).isLines_map_strip (Text.isLines_lines content), rfl⟩

namespace Held

variable {e : LineEnding} {t : SourceText}

theorem withLines (h : Held e t) {lines : List Text} (hl : Text.IsLines lines) : Held e (t.withLines lines) :=
  ⟨t.ending.isLines_map_strip hl, h.ending_eq⟩

theorem after (h : Held e t) (r : Round) : Held e (t.after r) := by
  rw [SourceText.after]
  cases ha : t.attempt r with
  | error err => exact h
  | ok u =>
    obtain ⟨es, lines, hes, rfl⟩ := attempt_ok ha
    exact h.withLines (isLines_applyEdits h.isLines hes)

theorem afterAll (h : Held e t) (rs : List Round) : Held e (t.afterAll rs) := by
  induction rs generalizing t with
  | nil => exact h
  | cons r rs ih => exact ih (h.after r)

end Held

/-! ## The written text -/

/-- The lines of the written text: each line as it is held, with a return if another one follows it and the
ending has one. -/
theorem lines_join {t : SourceText} (h : Text.IsLines t.lines) :
    Text.lines t.join = t.lines.mapIdx fun i l =>
      if t.ending = .crlf ∧ i + 1 < t.lines.length then l ++ ['\r'] else l := by
  obtain ⟨lines, ending⟩ := t
  cases ending with
  | lf =>
    have hjoin : join ⟨lines, .lf⟩ = Text.unlines lines := rfl
    rw [hjoin, Text.lines_unlines h]
    exact (List.ext_getElem (by simp) (by simp)).symm
  | crlf =>
    obtain ⟨ls, l, rfl⟩ := (List.eq_nil_or_concat' lines).resolve_left h.ne_nil
    have hjoin : join ⟨ls ++ [l], .crlf⟩ = Text.unlines (ls.map (· ++ ['\r']) ++ [l]) :=
      Text.intercalate_crlf_eq ls l
    have hreturn : ls.mapIdx (fun i m => if i < ls.length then m ++ ['\r'] else m) = ls.map (· ++ ['\r']) := by
      refine List.ext_getElem (by simp) fun i hi _ => ?_
      rw [List.length_mapIdx] at hi
      simp [hi]
    rw [hjoin, Text.lines_unlines (Text.isLines_returned h.no_newline), List.mapIdx_concat]
    simp [hreturn]

/-- However a text is edited, it has at least one line, no line holds a newline, its ending is the one found
at the start, and the text that is written for it has the same lines, each with a return before its newline
if the ending has one. -/
theorem sessions_keep_lines (content : Text) (rounds : List Round) :
    let t := (parse content).afterAll rounds
    t.lines ≠ [] ∧ (∀ l ∈ t.lines, '\n' ∉ l) ∧ t.ending = LineEnding.detect content ∧
      Text.lines t.join = t.lines.mapIdx fun i l =>
        if t.ending = .crlf ∧ i + 1 < t.lines.length then l ++ ['\r'] else l := by
  intro t
  have h : Held (LineEnding.detect content) t := (held_parse content).afterAll rounds
  exact ⟨h.isLines.ne_nil, h.isLines.no_newline, h.ending_eq, lines_join h.isLines⟩

end SourceText

end Refactor
