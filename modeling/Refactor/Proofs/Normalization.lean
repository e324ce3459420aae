import Refactor.Proofs.Reindentation
import Refactor.Proofs.TextSessions

/-!
# Edits with their texts re-indented

The text of an edit is re-indented line by line, wherever the edit puts it. In all lines but the first of its text the
spaces at the start are indentation of the file as well. The first line goes on from what stands before the edit: its
spaces are indentation only if nothing but indentation stands there.

* `Text.glue`, `Text.lines_append`: the lines of two texts, one after the other;
* `Akin`, `Alike`: lines that differ in their indentation, one by one and all of them but for the first lines of texts;
* `Shifts`: texts whose first line changes; `reindentLine_eq_self_iff`: lines that do not;
* `applyEdits_cons`: the last edit of a file goes between what the others leave and what follows it;
* `applyEdits_fit`: both ways of applying edits, side by side;
* `edit_normalized`: both for source texts, which have the same bodies exactly if every first line that changes stands at
  the start of a line (`ShiftsAtStarts`).
-/

namespace Refactor

open Text (unlines isBlank IsLines)

/-! ## Lines of two texts -/

namespace Text

/-- Lines with others after them: the last of the former goes on with the first of the latter. -/
def glue : List Text → List Text → List Text
  | [], ms => ms
  | [l], ms => ms.modifyHead (l ++ ·)
  | l :: k :: ls, ms => l :: glue (k :: ls) ms

theorem glue_cons {ls : List Text} (h : ls ≠ []) (l : Text) (ms : List Text) : glue (l :: ls) ms = l :: glue ls ms := by
  cases ls with
  | nil => exact absurd rfl h
  | cons k ls => rfl

theorem lines_append_newline_of_notMem {t : Text} (h : '\n' ∉ t) (u : Text) : lines (t ++ '\n' :: u) = t :: lines u := by
  rw [lines_append_newline, lines_of_notMem h]
  rfl

theorem lines_append (t u : Text) : lines (t ++ u) = glue (lines t) (lines u) := by
  induction t with
  | nil =>
    obtain ⟨l, ls, hl⟩ := List.exists_cons_of_ne_nil (isLines_lines u).ne_nil
    rw [List.nil_append, hl]
    rfl
  | cons c t ih =>
    have hne := (isLines_lines t).ne_nil
    by_cases hc : c = '\n'
    · rw [hc, List.cons_append, lines_newline, lines_newline, glue_cons hne, ih]
    · obtain ⟨l, ls, hl⟩ := List.exists_cons_of_ne_nil hne
      obtain ⟨m, ms, hm⟩ := List.exists_cons_of_ne_nil (isLines_lines u).ne_nil
      rw [lines_cons hc hl]
      rw [hl, hm] at ih
      rw [hm, List.cons_append]
      cases ls with
      | nil => exact lines_cons hc ih
      | cons k ls => exact lines_cons hc ih

end Text

open Text (glue)

/-- What a log says of an edit besides its new text. -/
def LogEntry.site (x : LogEntry) : UInt32 × Option UInt32 × Text := (x.line, x.column, x.oldText)

namespace Indent

/-! ## Lines that differ in their indentation -/

/-- Lines that differ in their indentation only, and end in the same way. -/
structure Akin (l l' : Text) : Prop where
  body_eq : body l' = body l
  end_eq : l'.getLast? = l.getLast?

theorem Akin.refl (l : Text) : Akin l l := ⟨rfl, rfl⟩

theorem Akin.append_right {l l' : Text} (h : Akin l l') (t : Text) : Akin (l ++ t) (l' ++ t) where
  body_eq := by rw [body_append, body_append, h.body_eq]
  end_eq := by rw [List.getLast?_append, List.getLast?_append, h.end_eq]

theorem forall₂_akin_refl (ls : List Text) : List.Forall₂ Akin ls ls := List.forall₂_same.mpr fun l _ => .refl l

theorem map_body_eq {ls ls' : List Text} (h : List.Forall₂ Akin ls ls') : ls'.map body = ls.map body := by
  induction h with
  | nil => rfl
  | cons hl _ ih => rw [List.map_cons, List.map_cons, hl.body_eq, ih]

/-- Lines that differ in their indentation still do when the same text follows. -/
theorem forall₂_akin_glue {ls ls' : List Text} (h : List.Forall₂ Akin ls ls') (ms : List Text) :
    List.Forall₂ Akin (glue ls ms) (glue ls' ms) := by
  induction h with
  | nil => exact forall₂_akin_refl ms
  | @cons l l' ls ls' hl hls ih =>
    cases hls with
    | nil =>
      cases ms with
      | nil => exact .nil
      | cons m ms => exact .cons (hl.append_right m) (forall₂_akin_refl ms)
    | cons hk hls => exact .cons hl ih

/-- Lines that end in the same way, and the last of which differ in their indentation only. -/
inductive Alike : List Text → List Text → Prop where
  | last {l l' : Text} (h : Akin l l') : Alike [l] [l']
  | cons {l l' : Text} {ls ls' : List Text} (hend : l'.getLast? = l.getLast?) (h : Alike ls ls') :
    Alike (l :: ls) (l' :: ls')

theorem Alike.ne_nil {r r' : List Text} (h : Alike r r') : r ≠ [] ∧ r' ≠ [] := by
  cases h with
  | last => exact ⟨List.cons_ne_nil _ _, List.cons_ne_nil _ _⟩
  | cons => exact ⟨List.cons_ne_nil _ _, List.cons_ne_nil _ _⟩

theorem Alike.length_eq {r r' : List Text} (h : Alike r r') : r'.length = r.length := by
  induction h with
  | last => rfl
  | cons _ _ ih => rw [List.length_cons, List.length_cons, ih]

theorem alike_of_akin {z z' : List Text} (h : List.Forall₂ Akin z z') (hne : z ≠ []) : Alike z z' := by
  induction h with
  | nil => exact absurd rfl hne
  | cons hl hls ih =>
    cases hls with
    | nil => exact .last hl
    | cons hk hls => exact .cons hl.end_eq (ih (List.cons_ne_nil _ _))

section

variable {r r' w w' : List Text} {f f' : Text}

/-- What follows may start differently, as long as its first line is not its last. -/
theorem Alike.glue (h : Alike r r') (hf : Akin f f') (hw : List.Forall₂ Akin w w') (hone : w = [] → f' = f) :
    Alike (glue r (f :: w)) (glue r' (f' :: w')) := by
  induction h with
  | @last l l' hl =>
    cases hw with
    | nil =>
      rw [hone rfl]
      exact .last (hl.append_right f)
    | cons hk hw =>
      refine .cons ?_ (alike_of_akin (.cons hk hw) (List.cons_ne_nil _ _))
      rw [List.getLast?_append, List.getLast?_append, hf.end_eq, hl.end_eq]
  | cons hend h ih =>
    rw [Text.glue_cons h.ne_nil.1, Text.glue_cons h.ne_nil.2]
    exact .cons hend ih

/-- A first line that changes is no indentation where it goes on from more than indentation. -/
theorem map_body_glue_iff (h : Alike r r') (hf : Akin f f') (hw : List.Forall₂ Akin w w') :
    (Text.glue r' (f' :: w')).map body = (Text.glue r (f :: w)).map body ↔
      r'.map body = r.map body ∧ (f' = f ∨ body (r.getLastD []) = []) := by
  induction h with
  | @last l l' hl =>
    have hglued : body (l' ++ f') = body (l ++ f) ↔ f' = f ∨ body l = [] := by
      rw [body_append, body_append, hl.body_eq, hf.body_eq]
      by_cases hnil : body l = []
      · simp [hnil]
      · simp [hnil]
    simp only [Text.glue, List.modifyHead_cons, List.map_cons, List.map_nil, List.cons.injEq, map_body_eq hw, hl.body_eq,
      hglued, and_true, true_and, List.getLastD_cons, List.getLastD_nil]
  | @cons l l' ls ls' hend h ih =>
    obtain ⟨k, ks, hk⟩ := List.exists_cons_of_ne_nil h.ne_nil.1
    have hlast : (l :: ls).getLastD [] = ls.getLastD [] := by
      rw [hk, List.getLastD_cons, List.getLastD_cons, List.getLastD_cons]
    rw [Text.glue_cons h.ne_nil.1, Text.glue_cons h.ne_nil.2, hlast]
    simp only [List.map_cons, List.cons.injEq, ih, and_assoc]

end

/-! ## Texts that are re-indented -/

theorem akin_reindentLine {unit : Text} (hunit : ∀ c ∈ unit, c = ' ' ∨ c = '\t') (line : Text) :
    Akin line (reindentLine unit line) where
  body_eq := body_reindentLine hunit line
  end_eq := by
    cases hblank : isBlank line with
    | true => rw [reindentLine_of_blank hblank]
    | false =>
      have hrest : line.dropWhile (· == ' ') ≠ [] := by
        intro hnil
        have hline := replicate_spaces_append line
        rw [hnil, List.append_nil] at hline
        have hall : isBlank line = true := by
          rw [← hline, isBlank, List.all_eq_true]
          exact fun c hc => isBlankChar_of_isIndent (.inl (List.eq_of_mem_replicate hc))
        rw [hall] at hblank
        cases hblank
      conv_rhs => rw [← replicate_spaces_append line]
      rw [reindentLine_eq hblank, List.getLast?_append_of_ne_nil _ hrest, List.getLast?_append_of_ne_nil _ hrest]

theorem serviceUnit_prefix_iff {line : Text} : serviceUnit <+: line ↔ 4 ≤ spaces line := by
  constructor
  · rintro ⟨t, rfl⟩
    rw [spaces, List.takeWhile_append_of_pos fun c hc => beq_iff_eq.mpr (eq_space_of_mem_serviceUnit hc),
      List.length_append]
    exact Nat.le_add_right 4 _
  · intro h
    have hsplit : List.replicate (spaces line) ' ' = serviceUnit ++ List.replicate (spaces line - 4) ' ' := by
      rw [serviceUnit_eq, List.replicate_append_replicate, Nat.add_sub_cancel' h]
    rw [← replicate_spaces_append line, hsplit, List.append_assoc]
    exact List.prefix_append _ _

/-- Spaces that make a level change in every other unit. -/
theorem converted_eq_iff {unit : Text} (h : unit ≠ serviceUnit) {n : Nat} :
    converted unit n = List.replicate n ' ' ↔ n < 4 := by
  constructor
  · refine fun heq => Nat.lt_of_not_le fun hn => h ?_
    obtain ⟨hlen, hspace⟩ := List.eq_replicate_iff.mp heq
    have hpos : 0 < n / 4 := by omega
    have hmul : n / 4 * unit.length = n / 4 * 4 := by
      rw [length_converted] at hlen
      omega
    refine List.eq_replicate_iff.mpr ⟨Nat.eq_of_mul_eq_mul_left hpos hmul, fun c hc => hspace c ?_⟩
    refine List.mem_append_left _ (List.mem_flatten.mpr ⟨unit, ?_, hc⟩)
    exact List.mem_replicate.mpr ⟨by omega, rfl⟩
  · intro hn
    rw [converted, Nat.div_eq_of_lt hn, Nat.mod_eq_of_lt hn]
    rfl

theorem reindentLine_eq_self_iff {unit : Text} (h : unit ≠ serviceUnit) {line : Text} :
    reindentLine unit line = line ↔ ¬ (isBlank line = false ∧ serviceUnit <+: line) := by
  cases hblank : isBlank line with
  | true => simp [reindentLine_of_blank hblank]
  | false =>
    have hself : reindentLine unit line = line ↔ converted unit (spaces line) = List.replicate (spaces line) ' ' := by
      rw [reindentLine_eq hblank]
      conv_lhs => rhs; rw [← replicate_spaces_append line]
      rw [List.append_cancel_right_eq]
    rw [hself, converted_eq_iff h, serviceUnit_prefix_iff]
    simp

/-- The text of an edit as it is put into a file with the unit. -/
def fitText (unit text : Text) : Text := if text.contains '\n' then reindent text unit else text

/-- An edit with its text fitted to the unit. -/
def fit (unit : Text) (e : TextEdit) : TextEdit := { e with newText := fitText unit e.newText }

theorem normalize_eq (lines : List Text) (e : TextEdit) : normalize lines e = fit (indentUnit lines) e := by
  rw [normalize, fit, fitText]
  split
  · rfl
  · rfl

/-- Text of several lines, the first of which changes when it is re-indented. -/
def Shifts (unit text : Text) : Prop :=
  keepsAsIs unit = false ∧
    ∃ first rest, text = first ++ '\n' :: rest ∧ '\n' ∉ first ∧ isBlank first = false ∧ serviceUnit <+: first

theorem fitText_of_notMem {unit text : Text} (h : '\n' ∉ text) : fitText unit text = text := by
  rw [fitText, if_neg (by simpa using h)]

theorem fitText_of_keepsAsIs {unit text : Text} (h : keepsAsIs unit = true) : fitText unit text = text := by
  rw [fitText, reindent, if_pos h, ite_self]

theorem keepsAsIs_eq_false_iff {unit : Text} : keepsAsIs unit = false ↔ unit ≠ [] ∧ unit ≠ serviceUnit := by
  simp [keepsAsIs]

/-- A text of several lines has one first line, which decides whether the text shifts. -/
theorem shifts_append_newline_iff {unit first : Text} (hunits : keepsAsIs unit = false) (hfirst : '\n' ∉ first)
    (rest : Text) : Shifts unit (first ++ '\n' :: rest) ↔ isBlank first = false ∧ serviceUnit <+: first := by
  constructor
  · rintro ⟨-, first', rest', heq, hfirst', hs⟩
    have hlines := congrArg Text.lines heq
    rw [Text.lines_append_newline_of_notMem hfirst, Text.lines_append_newline_of_notMem hfirst'] at hlines
    obtain rfl : first = first' := (List.cons.inj hlines).1
    exact hs
  · intro hs
    exact ⟨hunits, first, rest, rfl, hfirst, hs⟩

theorem lines_fitText {unit first : Text} (hne : unit ≠ []) (hunit : ∀ c ∈ unit, c = ' ' ∨ c = '\t')
    (hfirst : '\n' ∉ first) (rest : Text) : Text.lines (fitText unit (first ++ '\n' :: rest)) =
      reindentLine unit first :: (Text.lines rest).map (reindentLine unit) := by
  rw [fitText, if_pos (by simp), lines_reindent hne hunit, Text.lines_append_newline_of_notMem hfirst, List.map_cons]

/-- What a text becomes with more text after it: only its first line, and only if it shifts, may differ in more than its
indentation when it is put somewhere. -/
theorem lines_fitText_append {unit : Text} (hunit : ∀ c ∈ unit, c = ' ' ∨ c = '\t') (text tail : Text) :
    ∃ f w f' w', Text.lines (text ++ tail) = f :: w ∧ Text.lines (fitText unit text ++ tail) = f' :: w' ∧
      Akin f f' ∧ List.Forall₂ Akin w w' ∧ (f' = f ↔ ¬ Shifts unit text) ∧ (w = [] → f' = f) := by
  by_cases hkeep : '\n' ∈ text ∧ keepsAsIs unit = false
  · obtain ⟨hmem, hunits⟩ := hkeep
    obtain ⟨hne, hservice⟩ := keepsAsIs_eq_false_iff.mp hunits
    obtain ⟨first, rest, rfl, hfirst⟩ := List.eq_append_cons_of_mem hmem
    have hlines := Text.lines_append_newline_of_notMem hfirst rest
    have hrest : (Text.lines rest).map (reindentLine unit) ≠ [] := by simpa using (Text.isLines_lines rest).ne_nil
    refine ⟨first, glue (Text.lines rest) (Text.lines tail), reindentLine unit first,
      glue ((Text.lines rest).map (reindentLine unit)) (Text.lines tail), ?_, ?_, akin_reindentLine hunit first, ?_, ?_, ?_⟩
    · rw [Text.lines_append, hlines, Text.glue_cons (Text.isLines_lines rest).ne_nil]
    · rw [Text.lines_append, lines_fitText hne hunit hfirst, Text.glue_cons hrest]
    · refine forall₂_akin_glue (List.forall₂_map_right_iff.mpr (List.forall₂_same.mpr fun l _ => ?_)) _
      exact akin_reindentLine hunit l
    · rw [reindentLine_eq_self_iff hservice, shifts_append_newline_iff hunits hfirst]
    · rw [← Text.lines_append]
      exact fun hnil => absurd hnil (Text.isLines_lines _).ne_nil
  · have hsame : fitText unit text = text := by
      by_cases hmem : '\n' ∈ text
      · exact fitText_of_keepsAsIs (by simpa [hmem] using hkeep)
      · exact fitText_of_notMem hmem
    have hno : ¬ Shifts unit text := by
      rintro ⟨hunits, first, rest, rfl, -⟩
      exact hkeep ⟨by simp, hunits⟩
    obtain ⟨f, w, hfw⟩ := List.exists_cons_of_ne_nil (Text.isLines_lines (text ++ tail)).ne_nil
    exact ⟨f, w, f, w, hfw, by rw [hsame, hfw], .refl f, forall₂_akin_refl w, by simp [hno], fun _ => rfl⟩

end Indent

/-! ## The last edit of a file -/

/-- Text after the lines that edits are for stays after the lines that they leave. -/
theorem applyEdits_append {es : List TextEdit} {ls : List Text} (hl : IsLines ls) (hf : ∀ e ∈ es, e.Fits ls)
    (hp : es.Pairwise fun a b => b.stop ≤ a.start) :
    ∃ r, applyEdits ls es = .ok r ∧ ∀ t, applyEdits (Text.lines (unlines ls ++ t)) es = .ok (Text.lines (unlines r ++ t)) := by
  induction es generalizing ls with
  | nil => exact ⟨ls, rfl, fun t => rfl⟩
  | cons e es ih =>
    obtain ⟨hfe, hfes⟩ := List.forall_mem_cons.mp hf
    obtain ⟨hpe, hpes⟩ := List.pairwise_cons.mp hp
    obtain ⟨s, hs, hso, -⟩ := applyEdit_lines hl hfe []
    have hlt := Nat.lt_of_le_of_lt hso.lines_le hso.endLine_lt
    obtain ⟨pre, -, hpre⟩ := ih (Span.isLines_linesBefore hl.no_newline hlt)
      (fun d hd => Span.fits_linesBefore (hfes d hd) hfe hs (hpe d hd)) hpes
    have hall : ∀ t, applyEdits (Text.lines (unlines ls ++ t)) (e :: es) =
        .ok (Text.lines (unlines pre ++ (e.newText ++ (s.tail ls ++ t)))) := by
      intro t
      obtain ⟨s', hs', -, happ⟩ := applyEdit_lines hl hfe t
      obtain rfl : s' = s := Except.ok.inj (hs'.symm.trans hs)
      rw [applyEdits, happ]
      exact hpre _
    refine ⟨Text.lines (unlines pre ++ (e.newText ++ (s.tail ls ++ []))), ?_, fun t => ?_⟩
    · have hnil := hall []
      rwa [List.append_nil, Text.lines_unlines hl] at hnil
    · rw [hall t, Text.unlines_lines]
      simp only [List.append_nil, List.append_assoc]

/-- The last edit of a file goes between what the others leave of the text before it, and what follows it. -/
theorem applyEdits_cons {e : TextEdit} {es : List TextEdit} {ls : List Text} (hl : IsLines ls)
    (hf : ∀ d ∈ e :: es, d.Fits ls) (hp : (e :: es).Pairwise fun a b => b.stop ≤ a.start) {s : Span}
    (hs : Span.resolve ls e = .ok s) {pre : List Text} (hpre : applyEdits (s.linesBefore ls) es = .ok pre) :
    applyEdits ls (e :: es) = .ok (glue pre (Text.lines (e.newText ++ s.tail ls))) := by
  obtain ⟨hfe, hfes⟩ := List.forall_mem_cons.mp hf
  obtain ⟨hpe, hpes⟩ := List.pairwise_cons.mp hp
  obtain ⟨s', hs', hso, happ⟩ := applyEdit_lines hl hfe []
  obtain rfl : s' = s := Except.ok.inj (hs'.symm.trans hs)
  have hlt := Nat.lt_of_le_of_lt hso.lines_le hso.endLine_lt
  have hbefore := Span.isLines_linesBefore hl.no_newline hlt
  obtain ⟨r, hr, happs⟩ := applyEdits_append hbefore
    (fun d hd => Span.fits_linesBefore (hfes d hd) hfe hs (hpe d hd)) hpes
  obtain rfl : r = pre := Except.ok.inj (hr.symm.trans hpre)
  rw [List.append_nil, List.append_nil, Text.lines_unlines hl] at happ
  rw [applyEdits, happ]
  show applyEdits _ es = _
  rw [happs, Text.lines_append, Text.lines_unlines (isLines_applyEdits hbefore hr)]

namespace Indent

/-! ## Both ways of applying edits -/

/-- What stands before the text of an edit in its line, after the edits that come earlier in the file. -/
def standsBefore (lines : List Text) (e : TextEdit) (earlier : List TextEdit) : Text :=
  match Span.resolve lines e with
  | .error _ => []
  | .ok s =>
    match applyEdits (s.linesBefore lines) earlier with
    | .error _ => []
    | .ok pre => pre.getLastD []

/-- Of edits from the last to the first, those whose first line shifts put it after nothing but spaces and tabs. -/
def ShiftsAtStarts (unit : Text) (lines : List Text) (sorted : List TextEdit) : Prop :=
  ∀ later e earlier, sorted = later ++ e :: earlier → Shifts unit e.newText →
    ∀ c ∈ standsBefore lines e earlier, c = ' ' ∨ c = '\t'

theorem standsBefore_eq {lines pre : List Text} {e : TextEdit} {earlier : List TextEdit} {s : Span}
    (hs : Span.resolve lines e = .ok s) (hpre : applyEdits (s.linesBefore lines) earlier = .ok pre) :
    standsBefore lines e earlier = pre.getLastD [] := by
  rw [standsBefore, hs]
  simp only [hpre]

/-- What stands before an edit does not depend on the text after it. -/
theorem standsBefore_extends {ls ms : List Text} (h : Span.Extends ls ms) {e : TextEdit} (he : e.Fits ls)
    (earlier : List TextEdit) : standsBefore ms e earlier = standsBefore ls e earlier := by
  obtain ⟨s, hs, hso, -⟩ := Span.resolve_of_fits he
  have hlt := Nat.lt_of_le_of_lt hso.lines_le hso.endLine_lt
  have hbefore : s.linesBefore ms = s.linesBefore ls := by
    rw [Span.linesBefore, Span.linesBefore, Span.before, Span.before, h.take_eq _ hlt,
      h.takeBytes_eq hlt hso.startByte_eq]
  rw [standsBefore, standsBefore, h.resolve_eq he, hs]
  simp only [hbefore]

theorem shiftsAtStarts_cons {unit : Text} {lines : List Text} {e : TextEdit} {es : List TextEdit} :
    ShiftsAtStarts unit lines (e :: es) ↔
      ShiftsAtStarts unit lines es ∧
        (Shifts unit e.newText → ∀ c ∈ standsBefore lines e es, c = ' ' ∨ c = '\t') := by
  constructor
  · intro h
    refine ⟨fun later d earlier heq => h (e :: later) d earlier (by rw [heq]; rfl), h [] e es rfl⟩
  · rintro ⟨hes, he⟩ later d earlier heq
    cases later with
    | nil =>
      obtain ⟨rfl, rfl⟩ := List.cons.inj heq
      exact he
    | cons e' later => exact hes later d earlier (List.cons.inj heq).2

/-- Edits from the last to the first with their texts as they are and fitted to a unit. -/
theorem applyEdits_fit {unit : Text} (hunit : ∀ c ∈ unit, c = ' ' ∨ c = '\t') {es : List TextEdit} {ls : List Text}
    (hl : IsLines ls) (hf : ∀ e ∈ es, e.Fits ls) (hp : es.Pairwise fun a b => b.stop ≤ a.start) :
    ∃ r r', applyEdits ls es = .ok r ∧ applyEdits ls (es.map (fit unit)) = .ok r' ∧ Alike r r' ∧
      (r'.map body = r.map body ↔ ShiftsAtStarts unit ls es) := by
  induction es generalizing ls with
  | nil =>
    have hnone : ShiftsAtStarts unit ls [] := fun later e earlier heq => by simp at heq
    exact ⟨ls, ls, rfl, rfl, alike_of_akin (forall₂_akin_refl ls) hl.ne_nil, iff_of_true rfl hnone⟩
  | cons e es ih =>
    have hf' : ∀ d ∈ (e :: es).map (fit unit), d.Fits ls := by
      intro d' hd'
      obtain ⟨d, hd, rfl⟩ := List.mem_map.mp hd'
      exact ⟨(hf d hd).forward, (hf d hd).start_mem, (hf d hd).stop_mem⟩
    have hp' : ((e :: es).map (fit unit)).Pairwise fun a b => b.stop ≤ a.start := List.pairwise_map.mpr hp
    obtain ⟨hfe, hfes⟩ := List.forall_mem_cons.mp hf
    obtain ⟨hpe, hpes⟩ := List.pairwise_cons.mp hp
    obtain ⟨s, hs, hso, -⟩ := Span.resolve_of_fits hfe
    have hlt := Nat.lt_of_le_of_lt hso.lines_le hso.endLine_lt
    have hbefore : ∀ d ∈ es, d.Fits (s.linesBefore ls) :=
      fun d hd => Span.fits_linesBefore (hfes d hd) hfe hs (hpe d hd)
    obtain ⟨pre, pre', hpre, hpre', halike, hiff⟩ := ih (Span.isLines_linesBefore hl.no_newline hlt) hbefore hpes
    obtain ⟨f, w, f', w', hfw, hfw', hakin, hakins, hshift, hone⟩ :=
      lines_fitText_append hunit e.newText (s.tail ls)
    have hr := applyEdits_cons hl hf hp hs hpre
    have hr' := applyEdits_cons (e := fit unit e) hl hf' hp' hs hpre'
    rw [hfw] at hr
    rw [show (fit unit e).newText = fitText unit e.newText from rfl, hfw'] at hr'
    refine ⟨_, _, hr, hr', halike.glue hakin hakins hone, ?_⟩
    -- The other edits stand after the same text in the lines cut off at this one.
    have hcut : ShiftsAtStarts unit (s.linesBefore ls) es ↔ ShiftsAtStarts unit ls es := by
      refine forall_congr' fun later => forall_congr' fun d => forall_congr' fun earlier => ?_
      refine forall_congr' fun heq => ?_
      have hd : d ∈ es := by simp [heq]
      rw [standsBefore_extends (Span.extends_linesBefore hlt) (hbefore d hd)]
    rw [map_body_glue_iff halike hakin hakins, hiff, hcut, shiftsAtStarts_cons, hshift, body_eq_nil_iff,
      standsBefore_eq hs hpre, ← imp_iff_not_or]

theorem sortEdits_map_fit (unit : Text) (edits : List TextEdit) :
    sortEdits (edits.map (fit unit)) = (sortEdits edits).map (fit unit) := by
  rw [sortEdits, sortEdits, ← List.map_reverse]
  exact (List.map_mergeSort (f := fit unit) fun _ _ _ _ => rfl).symm

/-! ## Carriage returns -/

theorem getLast?_body {l : Text} (h : body l ≠ []) : (body l).getLast? = l.getLast? := by
  conv_rhs => rw [← List.takeWhile_append_dropWhile (p := isIndent) (l := l)]
  exact (List.getLast?_append_of_ne_nil _ h).symm

/-- A return at the end of a line is at the end of its body. -/
theorem body_stripEnd (l : Text) : body (Text.stripEnd '\r' l) = Text.stripEnd '\r' (body l) := by
  rcases List.eq_nil_or_concat' l with rfl | ⟨t, c, rfl⟩
  · rfl
  · rw [Text.stripEnd_concat]
    by_cases hc : c = '\r'
    · subst hc
      have hbody : body ['\r'] = ['\r'] := by decide
      rw [if_pos rfl, body_append, hbody]
      by_cases hnil : body t = []
      · rw [if_pos hnil, hnil]
        rfl
      · rw [if_neg hnil, Text.stripEnd_concat, if_pos rfl]
    · rw [if_neg hc]
      refine (Text.stripEnd_eq_self_iff.mpr fun hlast => ?_).symm
      have hne : body (t ++ [c]) ≠ [] := fun hnil => by simp [hnil] at hlast
      rw [getLast?_body hne, List.getLast?_concat] at hlast
      exact hc (Option.some.inj hlast)

theorem getLast?_body_eq_return_iff {l : Text} : (body l).getLast? = some '\r' ↔ l.getLast? = some '\r' := by
  by_cases hnil : body l = []
  · refine iff_of_false (by simp [hnil]) fun hl => ?_
    have hindent := body_eq_nil_iff.mp hnil _ (List.mem_of_getLast? hl)
    exact absurd hindent (by decide)
  · rw [getLast?_body hnil]

/-- Lines that end in the same way have the same bodies with and without their returns. -/
theorem body_strip_eq_iff {l l' : Text} (h : l'.getLast? = l.getLast?) (ending : LineEnding) :
    body (ending.strip l') = body (ending.strip l) ↔ body l' = body l := by
  cases ending with
  | lf => exact Iff.rfl
  | crlf =>
    show body (Text.stripEnd '\r' l') = body (Text.stripEnd '\r' l) ↔ _
    rw [body_stripEnd, body_stripEnd]
    refine ⟨fun heq => ?_, fun heq => by rw [heq]⟩
    by_cases hreturn : l.getLast? = some '\r'
    · have hl := getLast?_body_eq_return_iff.mpr hreturn
      have hl' := getLast?_body_eq_return_iff.mpr (h.trans hreturn)
      rw [← Text.stripEnd_append_eq_self_iff.mpr hl', heq, Text.stripEnd_append_eq_self_iff.mpr hl]
    · have hl := mt getLast?_body_eq_return_iff.mp hreturn
      have hl' := mt getLast?_body_eq_return_iff.mp (h ▸ hreturn)
      rwa [Text.stripEnd_eq_self_iff.mpr hl', Text.stripEnd_eq_self_iff.mpr hl] at heq

theorem map_body_strip_iff {r r' : List Text} (h : Alike r r') (ending : LineEnding) :
    (r'.map ending.strip).map body = (r.map ending.strip).map body ↔ r'.map body = r.map body := by
  induction h with
  | last hl => simp [body_strip_eq_iff hl.end_eq]
  | cons hend _ ih => simpa [body_strip_eq_iff hend] using fun _ => ih

/-! ## Source texts -/

/-- A source text after edits, with their texts as they are and fitted to its indentation. -/
structure Normalized (t : SourceText) (edits : List TextEdit) (plain fitted : SourceText × ChangeRecord) : Prop where
  length_eq : fitted.1.lines.length = plain.1.lines.length
  ending_eq : fitted.1.ending = plain.1.ending
  file_eq : fitted.2.fileName = plain.2.fileName ∧ fitted.2.path = plain.2.path
  sites_eq : fitted.2.entries.map LogEntry.site = plain.2.entries.map LogEntry.site
  /-- The lines are equal but for their indentation exactly if first lines that change stand at the starts of lines. -/
  bodies_iff : fitted.1.lines.map body = plain.1.lines.map body ↔
    ShiftsAtStarts (indentUnit t.lines) t.lines (sortEdits edits)

/-- Edits that fit a source text and lie apart succeed with their texts as they are and re-indented. -/
theorem edit_normalized {t : SourceText} {edits : List TextEdit} (path : Path) (hl : IsLines t.lines)
    (hf : ∀ e ∈ edits, e.Fits t.lines) (ha : edits.Pairwise TextEdit.Apart) :
    ∃ plain fitted, t.edit false edits path = .ok plain ∧ t.edit true edits path = .ok fitted ∧
      Normalized t edits plain fitted := by
  have hunit := (indentUnit_detects t.lines).indents
  have hprepare : t.prepare true edits = (sortEdits edits).map (fit (indentUnit t.lines)) := by
    rw [SourceText.prepare, if_pos rfl, ← sortEdits_map_fit]
    exact congrArg sortEdits (List.map_congr_left fun e _ => normalize_eq t.lines e)
  obtain ⟨r, r', hr, hr', halike, hiff⟩ := applyEdits_fit hunit hl
    (fun e he => hf e ((sortEdits_perm edits).mem_iff.mp he)) (pairwise_stop_le (fun e he => (hf e he).forward) ha)
  refine ⟨(t.withLines r, changeRecord t.lines (sortEdits edits) path),
    (t.withLines r', changeRecord t.lines ((sortEdits edits).map (fit (indentUnit t.lines))) path), ?_, ?_, ?_, rfl,
    ⟨rfl, rfl⟩, ?_, ?_⟩
  · rw [SourceText.edit, SourceText.prepare, if_neg Bool.false_ne_true]
    simp only [hr]
  · rw [SourceText.edit, hprepare]
    simp only [hr']
  · simp only [SourceText.withLines, List.length_map, halike.length_eq]
  · simp only [changeRecord, List.map_map]
    rfl
  · exact (map_body_strip_iff halike t.ending).trans hiff

/-- A first line that shifts after a tab, and one after a letter that does not. -/
theorem edit_normalized_after_tab :
    let t : SourceText := SourceText.parse ['a', '\n', '\t', 'b', '\n', 'c']
    let edits : List TextEdit :=
      [⟨2, 2, 2, 2, [' ', ' ', ' ', ' ', 'x', '\n', ' ', ' ', ' ', ' ', 'y']⟩,
        ⟨1, 2, 1, 2, ['z', '\n', ' ', ' ', ' ', ' ', 'w']⟩]
    (IsLines t.lines ∧ (∀ e ∈ edits, e.Fits t.lines) ∧ edits.Pairwise TextEdit.Apart) ∧
      ∃ plain fitted, t.edit false edits ⟨"a.ts"⟩ = .ok plain ∧ t.edit true edits ⟨"a.ts"⟩ = .ok fitted ∧
        Normalized t edits plain fitted := by
  intro t edits
  have hl : IsLines t.lines := ⟨by decide, by decide⟩
  have hf : ∀ e ∈ edits, e.Fits t.lines := by decide
  have ha : edits.Pairwise TextEdit.Apart := by decide
  exact ⟨⟨hl, hf, ha⟩, edit_normalized ⟨"a.ts"⟩ hl hf ha⟩

/-- Spaces after a letter are no indentation, and change all the same. -/
theorem edit_changes_inner_spaces :
    let t : SourceText := SourceText.parse ['a', '\n', '\t', 'b', '\n', 'c']
    let edits : List TextEdit := [⟨1, 2, 1, 2, [' ', ' ', ' ', ' ', 'x', '\n', 'y']⟩]
    (IsLines t.lines ∧ (∀ e ∈ edits, e.Fits t.lines) ∧ edits.Pairwise TextEdit.Apart) ∧
      ∃ plain fitted, t.edit false edits ⟨"a.ts"⟩ = .ok plain ∧ t.edit true edits ⟨"a.ts"⟩ = .ok fitted ∧
        plain.1.lines = [['a', ' ', ' ', ' ', ' ', 'x'], ['y'], ['\t', 'b'], ['c']] ∧
        fitted.1.lines = [['a', '\t', 'x'], ['y'], ['\t', 'b'], ['c']] ∧
        fitted.1.lines.map body ≠ plain.1.lines.map body := by
  intro t edits
  let fittedEdits : List TextEdit := [⟨1, 2, 1, 2, ['\t', 'x', '\n', 'y']⟩]
  have hsort : sortEdits edits = edits := List.mergeSort_of_pairwise (by decide)
  have hsort' : sortEdits fittedEdits = fittedEdits := List.mergeSort_of_pairwise (by decide)
  have hnormalize : edits.map (normalize t.lines) = fittedEdits := by decide
  have hplain : t.edit false edits ⟨"a.ts"⟩ =
      .ok (⟨[['a', ' ', ' ', ' ', ' ', 'x'], ['y'], ['\t', 'b'], ['c']], .lf⟩, changeRecord t.lines edits ⟨"a.ts"⟩) := by
    rw [SourceText.edit, SourceText.prepare, if_neg Bool.false_ne_true, hsort]
    rfl
  have hfitted : t.edit true edits ⟨"a.ts"⟩ =
      .ok (⟨[['a', '\t', 'x'], ['y'], ['\t', 'b'], ['c']], .lf⟩, changeRecord t.lines fittedEdits ⟨"a.ts"⟩) := by
    rw [SourceText.edit, SourceText.prepare, if_pos rfl, hnormalize, hsort']
    rfl
  exact ⟨⟨⟨by decide, by decide⟩, by decide, by decide⟩, _, _, hplain, hfitted, rfl, rfl, by decide⟩

end Indent

end Refactor
