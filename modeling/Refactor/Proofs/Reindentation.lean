import Mathlib.Data.List.Forall2
import Mathlib.Data.List.TakeWhile
import Refactor.Proofs.IndentUnits
import Refactor.Proofs.Lines

/-!
# Re-indented text

Generated text is indented by four spaces a level. In a file with another unit each level becomes a unit of the file;
spaces that make no level stay, and so does all that follows the indentation.

* `body`: a line without its indentation, which re-indenting keeps (`body_reindentLine`);
* `converted`: the indentation that a number of spaces becomes; `reindentLine_eq`: the only thing that changes in a
  line;
* `nestingLevel_of_leads`: levels counted in units of the file are the levels that were generated;
* `lines_reindent`: a text is re-indented line by line;
* `reindent_keeps_structure`: all of it for the lines of a text.
-/

namespace Refactor.Indent

open Text (isBlank byteSize)

/-! ## Bodies of lines -/

/-- A line without the spaces and tabs that it starts with. -/
def body (line : Text) : Text := line.dropWhile isIndent

theorem body_append_of_indent {a : Text} (h : ∀ c ∈ a, c = ' ' ∨ c = '\t') (t : Text) : body (a ++ t) = body t :=
  List.dropWhile_append_of_pos fun c hc => isIndent_iff.mpr (h c hc)

theorem body_eq_nil_iff {line : Text} : body line = [] ↔ ∀ c ∈ line, c = ' ' ∨ c = '\t' := by
  simp only [body, List.dropWhile_eq_nil_iff, isIndent_iff]

/-- Text after a line belongs to its body, unless the line is nothing but indentation. -/
theorem body_append (line t : Text) : body (line ++ t) = if body line = [] then body t else body line ++ t := by
  rw [body, List.dropWhile_append]
  simp only [List.isEmpty_iff]
  rfl

/-! ## Spaces at the start of a line -/

/-- The number of spaces that a line starts with. -/
def spaces (line : Text) : Nat := (line.takeWhile (· == ' ')).length

theorem takeWhile_space (line : Text) : line.takeWhile (· == ' ') = List.replicate (spaces line) ' ' := by
  refine List.eq_replicate_of_mem fun c hc => ?_
  have h := List.all_eq_true.mp List.all_takeWhile c hc
  simpa using h

theorem replicate_spaces_append (line : Text) :
    List.replicate (spaces line) ' ' ++ line.dropWhile (· == ' ') = line := by
  rw [← takeWhile_space, List.takeWhile_append_dropWhile]

/-- A line that is indented by spaces alone starts with these. -/
theorem spaces_of_leads {n : Nat} {line : Text} (h : Leads (List.replicate n ' ') line) : spaces line = n := by
  obtain ⟨-, rest, rfl, hrest⟩ := h
  have hnone : rest.takeWhile (· == ' ') = [] := by
    cases rest with
    | nil => rfl
    | cons c rest =>
      have hc : c ≠ ' ' := fun heq => hrest c rfl (.inl heq)
      simp [hc]
  rw [spaces, List.takeWhile_append_of_pos (by simp), hnone]
  simp

theorem spaces_eq_zero_iff {line : Text} : spaces line = 0 ↔ line.head? ≠ some ' ' := by
  cases line with
  | nil => simp [spaces]
  | cons c line => by_cases h : c = ' ' <;> simp [spaces, h]

/-! ## Levels in other units -/

/-- The indentation that spaces become: a unit for each four of them, and those left over. -/
def converted (unit : Text) (n : Nat) : Text := (List.replicate (n / 4) unit).flatten ++ List.replicate (n % 4) ' '

theorem length_converted (unit : Text) (n : Nat) : (converted unit n).length = n / 4 * unit.length + n % 4 := by
  simp [converted, List.length_flatten]

theorem converted_indents {unit : Text} (hunit : ∀ c ∈ unit, c = ' ' ∨ c = '\t') (n : Nat) :
    ∀ c ∈ converted unit n, c = ' ' ∨ c = '\t' := by
  intro c hc
  rcases List.mem_append.mp hc with hc | hc
  · obtain ⟨u, hu, hcu⟩ := List.mem_flatten.mp hc
    rw [List.eq_of_mem_replicate hu] at hcu
    exact hunit c hcu
  · exact .inl (List.eq_of_mem_replicate hc)

theorem serviceUnit_eq : serviceUnit = List.replicate 4 ' ' := rfl

theorem eq_space_of_mem_serviceUnit {c : Char} (h : c ∈ serviceUnit) : c = ' ' := by
  rw [serviceUnit_eq] at h
  exact List.eq_of_mem_replicate h

/-- Spaces are what four of them a level become. -/
theorem converted_serviceUnit (n : Nat) : converted serviceUnit n = List.replicate n ' ' := by
  have hn : n / 4 * 4 + n % 4 = n := Nat.div_add_mod' n 4
  rw [converted, serviceUnit_eq, List.flatten_replicate_replicate, List.replicate_append_replicate, hn]

theorem byteSize_of_indents {t : Text} (h : ∀ c ∈ t, c = ' ' ∨ c = '\t') : byteSize t = t.length := by
  induction t with
  | nil => rfl
  | cons c t ih =>
    have hc : c.utf8Size = 1 := by
      rcases h c List.mem_cons_self with rfl | rfl
      · rfl
      · rfl
    rw [byteSize, ih fun d hd => h d (List.mem_cons_of_mem _ hd), hc, List.length_cons, Nat.add_comm]

/-- Levels are counted right where the spaces left over do not make up another one. Next to tabs they are not counted. -/
theorem nestingLevel_of_leads {unit line : Text} {k r : Nat} (hne : unit ≠ []) (hunit : ∀ c ∈ unit, c = ' ' ∨ c = '\t')
    (h : Leads (converted unit (4 * k + r)) line) (hr : r < 4) (hfit : unit = ['\t'] ∨ r < unit.length) :
    nestingLevel line unit = k := by
  have hk : (4 * k + r) / 4 = k := by omega
  have hrest : (4 * k + r) % 4 = r := by omega
  rw [nestingLevel, ← leads_iff.mp h]
  by_cases htab : unit = ['\t']
  · subst htab
    rw [if_pos rfl, converted, hk, hrest, List.count_append, List.count_flatten, List.count_replicate]
    simp
  · have hlt : r < unit.length := hfit.resolve_left htab
    rw [if_neg htab, if_neg hne, byteSize_of_indents hunit, length_converted, hk, hrest, Nat.mul_comm,
      Nat.mul_add_div (by omega), Nat.div_eq_of_lt hlt, Nat.add_zero]

/-! ## Lines -/

theorem reindentLine_of_blank {unit line : Text} (h : isBlank line = true) : reindentLine unit line = line := if_pos h

/-- In a line that is not blank only the spaces at its start change. -/
theorem reindentLine_eq {unit line : Text} (h : isBlank line = false) :
    reindentLine unit line = converted unit (spaces line) ++ line.dropWhile (· == ' ') := by
  rw [reindentLine, if_neg (by simp [h])]
  by_cases hzero : spaces line = 0
  · have hline := replicate_spaces_append line
    rw [hzero, List.replicate_zero, List.nil_append] at hline
    have hlen : (line.takeWhile (· == ' ')).length = 0 := hzero
    simp only [hlen, if_true, hzero, hline]
    rfl
  · exact if_neg hzero

theorem reindentLine_of_spaces_eq_zero {unit line : Text} (h : spaces line = 0) : reindentLine unit line = line := by
  rw [reindentLine]
  split
  · rfl
  · exact if_pos h

theorem body_reindentLine {unit : Text} (hunit : ∀ c ∈ unit, c = ' ' ∨ c = '\t') (line : Text) :
    body (reindentLine unit line) = body line := by
  cases hblank : isBlank line with
  | true => rw [reindentLine_of_blank hblank]
  | false =>
    have hspaces : ∀ c ∈ List.replicate (spaces line) ' ', c = ' ' ∨ c = '\t' :=
      fun c hc => .inl (List.eq_of_mem_replicate hc)
    conv_rhs => rw [← replicate_spaces_append line]
    rw [reindentLine_eq hblank, body_append_of_indent (converted_indents hunit _), body_append_of_indent hspaces]

/-- Text that was generated for a file with four spaces a level is as it should be. -/
theorem reindentLine_serviceUnit (line : Text) : reindentLine serviceUnit line = line := by
  cases hblank : isBlank line with
  | true => exact reindentLine_of_blank hblank
  | false => rw [reindentLine_eq hblank, converted_serviceUnit, replicate_spaces_append]

theorem newline_notMem_reindentLine {unit line : Text} (hunit : ∀ c ∈ unit, c = ' ' ∨ c = '\t') (h : '\n' ∉ line) :
    '\n' ∉ reindentLine unit line := by
  cases hblank : isBlank line with
  | true =>
    rw [reindentLine_of_blank hblank]
    exact h
  | false =>
    rw [reindentLine_eq hblank, List.mem_append, not_or]
    refine ⟨fun hmem => ?_, fun hmem => h ((List.dropWhile_sublist _).subset hmem)⟩
    rcases converted_indents hunit _ _ hmem with heq | heq
    · exact absurd heq (by decide)
    · exact absurd heq (by decide)

/-- A text is re-indented line by line. -/
theorem lines_reindent {unit : Text} (hne : unit ≠ []) (hunit : ∀ c ∈ unit, c = ' ' ∨ c = '\t') (fragment : Text) :
    Text.lines (reindent fragment unit) = (Text.lines fragment).map (reindentLine unit) := by
  by_cases hservice : unit = serviceUnit
  · subst hservice
    have hid : reindentLine serviceUnit = id := funext reindentLine_serviceUnit
    rw [hid, List.map_id]
    rfl
  · have hkeeps : ¬ keepsAsIs unit = true := by simp [keepsAsIs, hne, hservice]
    obtain ⟨hlines, hnewline⟩ := Text.isLines_lines fragment
    rw [reindent, if_neg hkeeps, Text.lines_unlines]
    refine ⟨by simpa using hlines, fun l hl => ?_⟩
    obtain ⟨m, hm, rfl⟩ := List.mem_map.mp hl
    exact newline_notMem_reindentLine hunit (hnewline m hm)

/-! ## Structure -/

/-- A line with `k` levels of four spaces and `r` spaces left over, and no tab right after them. -/
structure Generated (k r : Nat) (line : Text) : Prop where
  not_blank : isBlank line = false
  leads : Leads (List.replicate (4 * k + r) ' ') line
  lt_four : r < 4

/-- Spaces left over that are not counted as a level in units of a file. -/
def LeavesOver (unit : Text) (r : Nat) : Prop := unit = ['\t'] ∨ r < unit.length

/-- A line and what re-indenting makes of it. -/
structure Reindented (unit line out : Text) : Prop where
  unchanged : isBlank line = true ∨ line.head? ≠ some ' ' → out = line
  body_eq : body out = body line
  level : ∀ k r, Generated k r line → LeavesOver unit r → nestingLevel out unit = k ∧ nestingLevel line serviceUnit = k

theorem reindented_reindentLine {unit : Text} (hne : unit ≠ []) (hunit : ∀ c ∈ unit, c = ' ' ∨ c = '\t') (line : Text) :
    Reindented unit line (reindentLine unit line) where
  unchanged h := by
    rcases h with hblank | hhead
    · exact reindentLine_of_blank hblank
    · exact reindentLine_of_spaces_eq_zero (spaces_eq_zero_iff.mpr hhead)
  body_eq := body_reindentLine hunit line
  level k r h hover := by
    obtain ⟨hblank, hleads, hr⟩ := h
    have hservice : ∀ c ∈ serviceUnit, c = ' ' ∨ c = '\t' := fun c hc => .inl (eq_space_of_mem_serviceUnit hc)
    -- What follows the spaces is no indentation, so the new line leads with the units and the rest of the spaces.
    have hout : Leads (converted unit (4 * k + r)) (reindentLine unit line) := by
      refine ⟨converted_indents hunit _, line.dropWhile (· == ' '), ?_, ?_⟩
      · rw [reindentLine_eq hblank, spaces_of_leads hleads]
      · have hdrop := replicate_spaces_append line
        rw [spaces_of_leads hleads] at hdrop
        obtain ⟨-, rest, hline, hrest⟩ := hleads
        obtain rfl : line.dropWhile (· == ' ') = rest := List.append_cancel_left (hdrop.trans hline)
        exact hrest
    rw [← converted_serviceUnit] at hleads
    exact ⟨nestingLevel_of_leads hne hunit hout hr hover,
      nestingLevel_of_leads (by decide) hservice hleads hr (.inr hr)⟩

/-- What re-indenting keeps of the lines of a text. -/
structure KeepsStructure (unit : Text) (lines result : List Text) : Prop where
  reindented : List.Forall₂ (Reindented unit) lines result
  length_eq : result.length = lines.length
  /-- Lines that were generated with the same number of levels have the same number, and a deeper line is deeper. -/
  levels : ∀ (i j k r k' r' : Nat) (a b a' b' : Text), lines[i]? = some a → lines[j]? = some b →
    result[i]? = some a' → result[j]? = some b' → Generated k r a → Generated k' r' b →
    LeavesOver unit r → LeavesOver unit r' →
      (nestingLevel a serviceUnit = nestingLevel b serviceUnit ↔ nestingLevel a' unit = nestingLevel b' unit) ∧
      (nestingLevel a serviceUnit < nestingLevel b serviceUnit ↔ nestingLevel a' unit < nestingLevel b' unit)

/-- Text re-indented to a unit of spaces and tabs keeps its lines, their bodies and their levels. -/
theorem reindent_keeps_structure (fragment : Text) {unit : Text} (hne : unit ≠ [])
    (hunit : ∀ c ∈ unit, c = ' ' ∨ c = '\t') :
    KeepsStructure unit (Text.lines fragment) (Text.lines (reindent fragment unit)) := by
  have hline := reindented_reindentLine hne hunit
  rw [lines_reindent hne hunit]
  refine ⟨?_, List.length_map _, fun i j k r k' r' a b a' b' ha hb ha' hb' hka hkb hra hrb => ?_⟩
  · rw [List.forall₂_map_right_iff, List.forall₂_same]
    exact fun line _ => hline line
  · obtain rfl : reindentLine unit a = a' := by simpa [ha] using ha'
    obtain rfl : reindentLine unit b = b' := by simpa [hb] using hb'
    obtain ⟨hout, hin⟩ := (hline a).level k r hka hra
    obtain ⟨hout', hin'⟩ := (hline b).level k' r' hkb hrb
    rw [hout, hin, hout', hin']
    exact ⟨Iff.rfl, Iff.rfl⟩

/-- Two levels and one more space, in units of a space and a tab. -/
theorem reindent_keeps_structure_mixed :
    let unit : Text := [' ', '\t']
    let line : Text := [' ', ' ', ' ', ' ', ' ', ' ', ' ', ' ', ' ', 'c']
    let fragment : Text := 'a' :: '\n' :: line ++ ['\n', ' ', ' ', '\n', '\t', 'd']
    (unit ≠ [] ∧ (∀ c ∈ unit, c = ' ' ∨ c = '\t') ∧ Generated 2 1 line ∧ LeavesOver unit 1) ∧
      KeepsStructure unit (Text.lines fragment) (Text.lines (reindent fragment unit)) := by
  intro unit line fragment
  have hne : unit ≠ [] := by decide
  have hunit : ∀ c ∈ unit, c = ' ' ∨ c = '\t' := by simp [unit]
  have hline : Generated 2 1 line := ⟨by decide, leads_iff.mpr (by decide), by decide⟩
  exact ⟨⟨hne, hunit, hline, .inr (by decide)⟩, reindent_keeps_structure fragment hne hunit⟩

end Refactor.Indent
