import Refactor.Proofs.Endings

/-!
# What reading and writing a file keep

The ending of the first line is taken for the ending of all lines. So a file is written back as it
was read unless its first line ends with a return and a later one does not, or the last one does.
Source texts are read back as they were written unless a return at the end of a line is taken for a
part of its ending, or the ending of a single line is lost.

* `intercalate_crlf_eq`: lines that end with both characters are lines with returns at their ends, except
  for the last;
* `crlf_strip_eq_iff`: taking the returns off and putting them back gives the same lines exactly if all of
  them but the last have one;
* `detect_append_newline`: the first line alone decides the ending;
* `join_parse_iff`, `parse_join_iff`: both directions.
-/

namespace Refactor

namespace Text

/-! ## Returns at the end of one line -/

theorem stripEnd_concat (c d : Char) (t : Text) : stripEnd c (t ++ [d]) = if d = c then t else t ++ [d] := by
  induction t with
  | nil => rfl
  | cons e t ih =>
    cases t with
    | nil =>
      rw [List.cons_append, List.nil_append, stripEnd]
      simp only [stripEnd]
      split <;> rfl
    | cons f t =>
      rw [List.cons_append, List.cons_append, stripEnd, ← List.cons_append, ih]
      split <;> rfl

theorem stripEnd_eq_self_iff {c : Char} {t : Text} : stripEnd c t = t ↔ t.getLast? ≠ some c := by
  rcases List.eq_nil_or_concat' t with rfl | ⟨u, d, rfl⟩
  · simp [stripEnd]
  · rw [stripEnd_concat, List.getLast?_concat]
    split <;> simp_all

/-- A return can be put back if there was one. -/
theorem stripEnd_append_eq_self_iff {c : Char} {t : Text} : stripEnd c t ++ [c] = t ↔ t.getLast? = some c := by
  rcases List.eq_nil_or_concat' t with rfl | ⟨u, d, rfl⟩
  · simp [stripEnd]
  · rw [stripEnd_concat, List.getLast?_concat]
    split <;> simp_all

/-! ## Lines with returns at their ends -/

theorem unlines_inj {ls ms : List Text} (hl : IsLines ls) (hm : IsLines ms) : unlines ls = unlines ms ↔ ls = ms := by
  constructor
  · intro h
    rw [← lines_unlines hl, h, lines_unlines hm]
  · rintro rfl
    rfl

/-- Lines that are put together with both characters have returns at their ends, except for the last. -/
theorem intercalate_crlf_eq (ls : List Text) (l : Text) :
    ['\r', '\n'].intercalate (ls ++ [l]) = unlines (ls.map (· ++ ['\r']) ++ [l]) := by
  induction ls with
  | nil => simp
  | cons m ls ih =>
    rw [List.cons_append, List.intercalate_cons_of_ne_nil (by simp), ih, List.map_cons, List.cons_append,
      unlines_cons (by simp), List.append_assoc, List.append_assoc]
    rfl

theorem isLines_returned {ls : List Text} {l : Text} (h : ∀ m ∈ ls ++ [l], '\n' ∉ m) :
    IsLines (ls.map (· ++ ['\r']) ++ [l]) where
  ne_nil := by simp
  no_newline := by
    intro m hm
    rcases List.mem_append.mp hm with hm | hm
    · obtain ⟨k, hk, rfl⟩ := List.mem_map.mp hm
      simpa using h k (List.mem_append_left _ hk)
    · exact h m (List.mem_append_right _ hm)

theorem notMem_stripEnd {c d : Char} {t : Text} (h : d ∉ t) : d ∉ stripEnd c t := by
  rcases List.eq_nil_or_concat' t with rfl | ⟨u, e, rfl⟩
  · exact h
  · rw [stripEnd_concat]
    split
    · exact fun hd => h (List.mem_append_left _ hd)
    · exact h

/-- Taking returns off the ends of lines and putting them back changes nothing exactly if every line but
the last has one. -/
theorem crlf_strip_eq_iff {ls : List Text} {l : Text} (h : ∀ m ∈ ls ++ [l], '\n' ∉ m) :
    ['\r', '\n'].intercalate ((ls ++ [l]).map (stripEnd '\r')) = unlines (ls ++ [l]) ↔
      (∀ m ∈ ls, m.getLast? = some '\r') ∧ l.getLast? ≠ some '\r' := by
  have hstrip : ∀ m ∈ ls.map (stripEnd '\r') ++ [stripEnd '\r' l], '\n' ∉ m := by
    intro m hm
    rw [← List.map_singleton, ← List.map_append] at hm
    obtain ⟨k, hk, rfl⟩ := List.mem_map.mp hm
    exact notMem_stripEnd (h k hk)
  rw [List.map_append, List.map_singleton, intercalate_crlf_eq,
    unlines_inj (isLines_returned hstrip) ⟨by simp, h⟩, List.map_map, List.append_singleton_inj, stripEnd_eq_self_iff]
  refine and_congr_left fun _ => ?_
  conv_lhs => rw [← List.map_id ls, List.map_map]
  rw [List.map_inj_left]
  exact forall₂_congr fun m _ => stripEnd_append_eq_self_iff

/-! ## Lines and the text that they make up -/

/-- A text ends with a return exactly if its last line does. -/
theorem getLast?_unlines_concat (ls : List Text) (l : Text) :
    (unlines (ls ++ [l])).getLast? = some '\r' ↔ l.getLast? = some '\r' := by
  by_cases hl : ls = []
  · simp [hl]
  · rw [unlines_append hl (by simp), unlines_singleton, List.getLast?_append]
    rcases List.eq_nil_or_concat' l with rfl | ⟨l, d, rfl⟩
    · simp
    · simp [List.getLast?_cons]

/-- Every line but the last ends with a return exactly if every newline comes after one. -/
theorem returns_iff {ls : List Text} {l : Text} (h : ∀ m ∈ ls ++ [l], '\n' ∉ m) :
    (∀ m ∈ ls, m.getLast? = some '\r') ↔
      ∀ a b, unlines (ls ++ [l]) = a ++ '\n' :: b → a.getLast? = some '\r' := by
  constructor
  · intro hr a b hab
    -- The text before the newline has some of the lines, and the last of them ends with it.
    have hlines : ls ++ [l] = lines a ++ lines b := by
      rw [← lines_append_newline, ← hab, lines_unlines ⟨by simp, h⟩]
    obtain ⟨as, m, hm⟩ := (List.eq_nil_or_concat' (lines a)).resolve_left (isLines_lines a).ne_nil
    obtain ⟨bs, k, hk⟩ := (List.eq_nil_or_concat' (lines b)).resolve_left (isLines_lines b).ne_nil
    rw [hm, hk, ← List.append_assoc, List.append_singleton_inj] at hlines
    rw [← unlines_lines a, hm, getLast?_unlines_concat]
    exact hr m (by simp [hlines.1])
  · intro hr m hm
    obtain ⟨as, bs, rfl⟩ := List.append_of_mem hm
    have hcut : unlines (as ++ m :: bs ++ [l]) = unlines (as ++ [m]) ++ '\n' :: unlines (bs ++ [l]) := by
      rw [← unlines_append (by simp) (by simp)]
      simp
    exact (getLast?_unlines_concat as m).mp (hr _ _ hcut)

end Text

open Text (unlines)

/-! ## The first line decides -/

namespace LineEnding

theorem detect_of_no_newline {t : Text} (h : '\n' ∉ t) : detect t = .lf := by
  fun_induction detect t with
  | case1 => simp at h
  | case2 => rfl
  | case3 c t _ _ ih => exact ih fun hm => h (List.mem_cons_of_mem _ hm)
  | case4 => rfl

/-- The character before the first newline decides the ending. -/
theorem detect_append_newline {t : Text} (h : '\n' ∉ t) (u : Text) :
    detect (t ++ '\n' :: u) = if t.getLast? = some '\r' then .crlf else .lf := by
  induction t with
  | nil => rfl
  | cons c t ih =>
    rw [List.mem_cons, not_or] at h
    cases t with
    | nil =>
      by_cases hc : c = '\r'
      · subst hc
        rfl
      · rw [List.cons_append, List.nil_append, detect, detect, if_neg (by simpa using hc)]
        · exact fun _ hr _ => hc hr
        · exact Ne.symm h.1
    | cons d t =>
      rw [List.cons_append, detect, ih h.2, List.getLast?_cons_cons]
      · rintro _ - hd
        rw [List.cons_append, List.cons.injEq] at hd
        exact h.2 (hd.1 ▸ List.mem_cons_self)
      · exact Ne.symm h.1

end LineEnding

namespace SourceText

/-! ## Both directions -/

theorem parse_of_lf {c : Text} (h : LineEnding.detect c = .lf) : parse c = ⟨Text.lines c, .lf⟩ := by
  rw [parse, h]
  exact congrArg (mk · .lf) (List.map_id _)

theorem parse_of_crlf {c : Text} (h : LineEnding.detect c = .crlf) :
    parse c = ⟨(Text.lines c).map (Text.stripEnd '\r'), .crlf⟩ := by
  rw [parse, h]
  rfl

/-- What is written back as it was read. -/
theorem join_parse_iff (c : Text) :
    (parse c).join = c ↔ LineEnding.detect c = .lf ∨
      (∀ a b, c = a ++ '\n' :: b → a.getLast? = some '\r') ∧ c.getLast? ≠ some '\r' := by
  cases hd : LineEnding.detect c with
  | lf =>
    rw [parse_of_lf hd]
    exact iff_of_true (Text.unlines_lines c) (.inl rfl)
  | crlf =>
    obtain ⟨ls, l, hl⟩ := (List.eq_nil_or_concat' (Text.lines c)).resolve_left (Text.isLines_lines c).ne_nil
    have hnew : ∀ m ∈ ls ++ [l], '\n' ∉ m := hl ▸ (Text.isLines_lines c).no_newline
    have hc : unlines (ls ++ [l]) = c := by rw [← hl, Text.unlines_lines]
    have hstrip := (Text.crlf_strip_eq_iff hnew).trans
      (and_congr (Text.returns_iff hnew) (not_congr (Text.getLast?_unlines_concat ls l).symm))
    rw [parse_of_crlf hd, hl, or_iff_right (by decide)]
    rwa [hc] at hstrip

theorem parse_join_lf_iff {l : Text} {ls : List Text} (h : Text.IsLines (l :: ls)) :
    parse (join ⟨l :: ls, .lf⟩) = ⟨l :: ls, .lf⟩ ↔ ls = [] ∨ l.getLast? ≠ some '\r' := by
  have hjoin : join ⟨l :: ls, .lf⟩ = unlines (l :: ls) := rfl
  have hlf : LineEnding.detect (unlines (l :: ls)) = .lf ↔ ls = [] ∨ l.getLast? ≠ some '\r' := by
    have hl := h.no_newline l List.mem_cons_self
    by_cases hn : ls = []
    · simp [hn, LineEnding.detect_of_no_newline hl]
    · rw [Text.unlines_cons hn, LineEnding.detect_append_newline hl]
      split <;> simp_all
  rw [hjoin, ← hlf]
  constructor
  · intro hp
    exact congrArg ending hp
  · intro hd
    rw [parse_of_lf hd, Text.lines_unlines h]

theorem parse_join_crlf_iff {ls : List Text} {l : Text} (h : ∀ m ∈ ls ++ [l], '\n' ∉ m) :
    parse (join ⟨ls ++ [l], .crlf⟩) = ⟨ls ++ [l], .crlf⟩ ↔ ls ≠ [] ∧ l.getLast? ≠ some '\r' := by
  have hjoin : join ⟨ls ++ [l], .crlf⟩ = unlines (ls.map (· ++ ['\r']) ++ [l]) := Text.intercalate_crlf_eq ls l
  have hstrip : ls.map (Text.stripEnd '\r' ∘ (· ++ ['\r'])) = ls := by
    conv_rhs => rw [← List.map_id ls]
    refine List.map_congr_left fun m _ => ?_
    rw [Function.comp_apply, Text.stripEnd_concat, if_pos rfl, id]
  rw [hjoin]
  cases ls with
  | nil =>
    have hd := LineEnding.detect_of_no_newline (h l (by simp))
    simp [parse_of_lf, hd]
  | cons m ms =>
    have hm : '\n' ∉ m ++ ['\r'] := by simpa using h m (by simp)
    have hd : LineEnding.detect (unlines ((m :: ms).map (· ++ ['\r']) ++ [l])) = .crlf := by
      rw [List.map_cons, List.cons_append, Text.unlines_cons (by simp), LineEnding.detect_append_newline hm]
      simp
    rw [parse_of_crlf hd, Text.lines_unlines (Text.isLines_returned h), List.map_append, List.map_map, hstrip,
      List.map_singleton, mk.injEq, List.append_right_inj, List.singleton_inj, Text.stripEnd_eq_self_iff]
    simp

/-- What is read back as it was written. -/
theorem parse_join_iff {t : SourceText} (h : Text.IsLines t.lines) :
    parse t.join = t ↔
      (t.ending = .lf ∧ (t.lines.length = 1 ∨ ∀ l, t.lines.head? = some l → l.getLast? ≠ some '\r')) ∨
      (t.ending = .crlf ∧ 2 ≤ t.lines.length ∧ ∀ l, t.lines.getLast? = some l → l.getLast? ≠ some '\r') := by
  obtain ⟨ls, ending⟩ := t
  cases ending with
  | lf =>
    obtain ⟨l, ms, rfl⟩ := List.exists_cons_of_ne_nil h.ne_nil
    simp [parse_join_lf_iff h]
  | crlf =>
    obtain ⟨ms, l, rfl⟩ := (List.eq_nil_or_concat' ls).resolve_left h.ne_nil
    simp [parse_join_crlf_iff h.no_newline, Nat.one_le_iff_ne_zero]

end SourceText

/-- A file is written back as it was read exactly if its first line ends without a return, or every newline
comes after one and the file does not end with one. A source text is read back as it was written exactly if
its ending is found again at its first line, and no return at the end of a line is taken for a part of it. -/
theorem sourceText_round_trips :
    (∀ c : Text, (SourceText.parse c).join = c ↔ LineEnding.detect c = .lf ∨
      (∀ a b, c = a ++ '\n' :: b → a.getLast? = some '\r') ∧ c.getLast? ≠ some '\r') ∧
    ∀ t : SourceText, Text.IsLines t.lines → (SourceText.parse t.join = t ↔
      (t.ending = .lf ∧ (t.lines.length = 1 ∨ ∀ l, t.lines.head? = some l → l.getLast? ≠ some '\r')) ∨
      (t.ending = .crlf ∧ 2 ≤ t.lines.length ∧ ∀ l, t.lines.getLast? = some l → l.getLast? ≠ some '\r')) :=
  ⟨SourceText.join_parse_iff, fun _ => SourceText.parse_join_iff⟩

/-- The same lines with both endings: a return at the end of the first line is kept with the one and lost
with the other. -/
theorem sourceText_round_trips_returned :
    let ls : List Text := [['a', '\r'], ['b']]
    Text.IsLines ls ∧ SourceText.parse (SourceText.join ⟨ls, .crlf⟩) = ⟨ls, .crlf⟩ ∧
      SourceText.parse (SourceText.join ⟨ls, .lf⟩) ≠ ⟨ls, .lf⟩ := by
  intro ls
  have hls : Text.IsLines ls := ⟨by decide, by decide⟩
  refine ⟨hls, (sourceText_round_trips.2 ⟨ls, .crlf⟩ hls).mpr (by simp [ls]), fun h => ?_⟩
  have hlf := (sourceText_round_trips.2 ⟨ls, .lf⟩ hls).mp h
  simp [ls] at hlf

end Refactor
