import Mathlib.Data.List.Forall2
import Refactor.Proofs.Splice
import Refactor.SourceText

/-!
# Edits and line endings

A file whose lines end in carriage return and newline is edited as the file with
newlines alone would be: the returns are taken off before the edits and put back
after them.

* `Text.Returned`: a text with returns before some of its newlines;
  `map_stripEnd_lines`: taking them off the ends of the lines gives the lines of
  the text without them;
* `notMem_applyEdits`: edits bring no character into the lines that their texts do
  not have, and no newline at all;
* `applyEdits_returned`: edits that fit and lie apart leave the returns of their own
  texts at the ends of lines;
* `rewrite_crlf`: both for whole files.
-/

namespace Refactor

namespace Text

/-- A text with a carriage return before every newline. -/
def crlf : Text → Text
  | [] => []
  | c :: t => if c = '\n' then '\r' :: '\n' :: crlf t else c :: crlf t

/-- The second text is the first with carriage returns before some of its newlines. -/
inductive Returned : Text → Text → Prop
  | nil : Returned [] []
  | keep (c : Char) {t u : Text} : Returned t u → Returned (c :: t) (c :: u)
  | put {t u : Text} : Returned t u → Returned ('\n' :: t) ('\r' :: '\n' :: u)

namespace Returned

theorem refl (t : Text) : Returned t t := by
  induction t with
  | nil => exact .nil
  | cons c t ih => exact .keep c ih

theorem crlf (t : Text) : Returned t (crlf t) := by
  induction t with
  | nil => exact .nil
  | cons c t ih =>
    rw [Text.crlf]
    split
    · rename_i hc
      subst hc
      exact .put ih
    · exact .keep c ih

theorem append {t t' u u' : Text} (h : Returned t t') (h' : Returned u u') : Returned (t ++ u) (t' ++ u') := by
  induction h with
  | nil => exact h'
  | keep c _ ih => exact .keep c ih
  | put _ ih => exact .put ih

end Returned

/-! ## Returns at the ends of lines -/

theorem stripEnd_cons {c d : Char} (h : d ≠ c) (t : Text) : stripEnd c (d :: t) = d :: stripEnd c t := by
  cases t with
  | nil => simp [stripEnd, h]
  | cons e t => rw [stripEnd]

theorem stripEnd_of_notMem {c : Char} {t : Text} (h : c ∉ t) : stripEnd c t = t := by
  induction t with
  | nil => rfl
  | cons d t ih =>
    rw [List.mem_cons, not_or] at h
    rw [stripEnd_cons (Ne.symm h.1), ih h.2]

theorem lines_newline (t : Text) : lines ('\n' :: t) = [] :: lines t := lines_append_newline [] t

theorem lines_cons {c : Char} (h : c ≠ '\n') {t l : Text} {ls : List Text} (ht : lines t = l :: ls) :
    lines (c :: t) = (c :: l) :: ls := by
  rw [lines] at ht
  rw [lines, pieces, if_neg h, ht]
  rfl

/-- Returns before newlines are at the ends of lines, and come off there. -/
theorem map_stripEnd_lines {t u : Text} (h : Returned t u) (ht : '\r' ∉ t) :
    (lines u).map (stripEnd '\r') = lines t := by
  induction h with
  | nil => rfl
  | @keep c t u _ ih =>
    rw [List.mem_cons, not_or] at ht
    have hu := ih ht.2
    by_cases hc : c = '\n'
    · subst hc
      rw [lines_newline, lines_newline, List.map_cons, hu]
      rfl
    · obtain ⟨l, ls, hl⟩ := List.exists_cons_of_ne_nil (pieces_ne_nil '\n' u)
      rw [show lines u = l :: ls from hl, List.map_cons] at hu
      rw [lines_cons hc hl, lines_cons hc hu.symm, List.map_cons, stripEnd_cons (Ne.symm ht.1)]
  | @put t u _ ih =>
    rw [List.mem_cons, not_or] at ht
    rw [lines_cons (by decide) (lines_newline u), lines_newline, List.map_cons, ih ht.2]
    rfl

theorem crlf_append (t u : Text) : crlf (t ++ u) = crlf t ++ crlf u := by
  induction t with
  | nil => rfl
  | cons c t ih =>
    simp only [List.cons_append, crlf, ih]
    split <;> rfl

theorem crlf_of_notMem {t : Text} (h : '\n' ∉ t) : crlf t = t := by
  induction t with
  | nil => rfl
  | cons c t ih =>
    rw [List.mem_cons, not_or] at h
    rw [crlf, if_neg (Ne.symm h.1), ih h.2]

/-- Lines that are put together with both characters make up the text with returns. -/
theorem intercalate_crlf {ls : List Text} (h : ∀ l ∈ ls, '\n' ∉ l) :
    ['\r', '\n'].intercalate ls = crlf (unlines ls) := by
  induction ls with
  | nil => rfl
  | cons l ls ih =>
    have hl := crlf_of_notMem (h l List.mem_cons_self)
    have hls := ih fun m hm => h m (List.mem_cons_of_mem _ hm)
    by_cases hn : ls = []
    · subst hn
      rw [unlines_singleton, hl]
      simp
    · rw [List.intercalate_cons_of_ne_nil hn, hls, unlines_cons hn, crlf_append, hl, List.append_assoc]
      rfl

theorem mem_unlines_iff {c : Char} (hc : c ≠ '\n') {ls : List Text} : c ∈ unlines ls ↔ ∃ l ∈ ls, c ∈ l := by
  induction ls with
  | nil => simp [unlines]
  | cons l ls ih =>
    by_cases hn : ls = []
    · simp [hn]
    · simp [unlines_cons hn, hc, ih]

/-- The lines of a text have no characters that the text does not have, nor newlines. -/
theorem notMem_of_mem_lines {c : Char} {t l : Text} (ht : c ∈ t → c = '\n') (hl : l ∈ lines t) : c ∉ l := by
  intro hc
  have hn : c ≠ '\n' := by
    rintro rfl
    exact notMem_of_mem_pieces hl hc
  rw [← unlines_lines t, mem_unlines_iff hn] at ht
  exact hn (ht ⟨l, hl, hc⟩)

end Text

/-! ## What edits bring into the lines -/

open Text (unlines crlf Returned)

theorem Span.notMem_replace {c : Char} {lines : List Text} {t : Text} (s : Span) (hl : ∀ l ∈ lines, c ∉ l)
    (ht : c ∈ t → c = '\n') : ∀ l ∈ s.replace lines t, c ∉ l := by
  have hline : ∀ i, c ∉ lineAt lines i := by
    intro i
    rw [lineAt, List.getD_eq_getElem?_getD]
    cases hi : lines[i]? with
    | none => simp
    | some l => exact hl l (List.mem_of_getElem? hi)
  have hb : c ∉ s.before lines := fun h => hline s.startLine <| by
    rw [← Text.takeBytes_append_dropBytes s.startByte (lineAt lines s.startLine)]
    exact List.mem_append_left _ h
  have ha : c ∉ s.after lines := fun h => hline s.endLine <| by
    rw [← Text.takeBytes_append_dropBytes s.endByte (lineAt lines s.endLine)]
    exact List.mem_append_right _ h
  intro l h
  rw [replace, List.mem_append, List.mem_append] at h
  rcases h with (h | h) | h
  · exact hl l (List.mem_of_mem_take h)
  · refine Text.notMem_of_mem_lines (fun hm => ht ?_) h
    simpa [hb, ha] using hm
  · exact hl l (List.mem_of_mem_drop h)

/-- Edits bring no character into the lines that their texts do not have, and no newline at all. -/
theorem notMem_applyEdits {c : Char} {es : List TextEdit} {lines result : List Text} (hl : ∀ l ∈ lines, c ∉ l)
    (ht : ∀ e ∈ es, c ∈ e.newText → c = '\n') (h : applyEdits lines es = .ok result) : ∀ l ∈ result, c ∉ l := by
  induction es generalizing lines with
  | nil =>
    cases h
    exact hl
  | cons e es ih =>
    obtain ⟨hte, htes⟩ := List.forall_mem_cons.mp ht
    rw [applyEdits, applyEdit] at h
    cases hs : Span.resolve lines e with
    | error err => simp [hs] at h
    | ok s =>
      simp only [hs] at h
      exact ih (s.notMem_replace hl hte) htes h

/-! ## Edits with returns in their texts -/

/-- The same edit, perhaps with carriage returns before newlines of its text. -/
structure TextEdit.Returned (e e' : TextEdit) : Prop where
  start_eq : e'.start = e.start
  stop_eq : e'.stop = e.stop
  newText : Text.Returned e.newText e'.newText

namespace TextEdit.Returned

variable {e e' : TextEdit}

theorem eq (h : e.Returned e') : e' = { e with newText := e'.newText } := by
  obtain ⟨hs, he, -⟩ := h
  cases e
  cases e'
  simp_all [start, stop]

theorem resolve_eq (h : e.Returned e') (lines : List Text) : Span.resolve lines e' = Span.resolve lines e := by
  rw [h.eq]
  rfl

theorem rank_eq (h : e.Returned e') : e'.rank = e.rank := by
  rw [h.eq]
  rfl

end TextEdit.Returned

/-- Sorting does not look at the texts of edits. -/
theorem forall₂_sortEdits {edits edits' : List TextEdit} (h : List.Forall₂ TextEdit.Returned edits edits') :
    List.Forall₂ TextEdit.Returned (sortEdits edits) (sortEdits edits') := by
  obtain ⟨hlen, hzip⟩ := List.forall₂_iff_zip.mp h
  -- Both lists are sorted as the list of pairs is, by the rank that the two edits of a pair share.
  let pairs := edits.zip edits'
  let sorted := pairs.reverse.mergeSort fun p q => decide (q.1.rank ≤ p.1.rank)
  have hmem : ∀ p ∈ pairs.reverse, p.1.Returned p.2 := fun p hp => hzip (List.mem_reverse.mp hp)
  have hfst : sorted.map Prod.fst = sortEdits edits := by
    rw [sortEdits, ← List.map_fst_zip (Nat.le_of_eq hlen), ← List.map_reverse]
    exact List.map_mergeSort fun _ _ _ _ => rfl
  have hsnd : sorted.map Prod.snd = sortEdits edits' := by
    rw [sortEdits, ← List.map_snd_zip (Nat.le_of_eq hlen.symm), ← List.map_reverse]
    refine List.map_mergeSort fun p hp q hq => ?_
    rw [(hmem p hp).rank_eq, (hmem q hq).rank_eq]
  rw [← hfst, ← hsnd, List.forall₂_map_left_iff, List.forall₂_map_right_iff, List.forall₂_same]
  exact fun p hp => hmem p ((List.mergeSort_perm _ _).mem_iff.mp hp)

/-- Edits from the last to the first, with and without returns in their texts, leave texts that differ
by these returns. -/
theorem applyEdits_returned {es es' : List TextEdit} (h : List.Forall₂ TextEdit.Returned es es') {ls : List Text}
    (hl : Text.IsLines ls) (hf : ∀ e ∈ es, e.Fits ls) (hp : es.Pairwise fun a b => b.stop ≤ a.start) {t t' : Text}
    (ht : Returned t t') :
    ∃ u u', Returned u u' ∧ applyEdits (Text.lines (unlines ls ++ t)) es = .ok (Text.lines u) ∧
      applyEdits (Text.lines (unlines ls ++ t')) es' = .ok (Text.lines u') := by
  induction h generalizing ls t t' with
  | nil => exact ⟨_, _, (Returned.refl _).append ht, rfl, rfl⟩
  | @cons e e' es es' he _ ih =>
    obtain ⟨hfe, hfes⟩ := List.forall_mem_cons.mp hf
    obtain ⟨hpe, hpes⟩ := List.pairwise_cons.mp hp
    have hfe' : e'.Fits ls := ⟨by rw [he.start_eq, he.stop_eq]; exact hfe.forward, he.start_eq ▸ hfe.start_mem,
      he.stop_eq ▸ hfe.stop_mem⟩
    obtain ⟨s, hs, hso, happ⟩ := applyEdit_lines hl hfe t
    obtain ⟨s', hs', -, happ'⟩ := applyEdit_lines hl hfe' t'
    obtain rfl : s' = s := Except.ok.inj (hs'.symm.trans ((he.resolve_eq ls).trans hs))
    have hlt := Nat.lt_of_le_of_lt hso.lines_le hso.endLine_lt
    obtain ⟨u, u', hu, happs, happs'⟩ := ih (Span.isLines_linesBefore hl.no_newline hlt)
      (fun d hd => Span.fits_linesBefore (hfes d hd) hfe hs (hpe d hd)) hpes
      (he.newText.append ((Returned.refl (s'.tail ls)).append ht))
    refine ⟨u, u', hu, ?_, ?_⟩
    · rw [applyEdits, happ]
      exact happs
    · rw [applyEdits, happ']
      exact happs'

/-! ## Whole files -/

/-- What a file holds after edits to its content, and their log. -/
def rewrite (content : Text) (edits : List TextEdit) (path : Path) : Except EditError (Text × ChangeRecord) :=
  ((SourceText.parse content).edit false edits path).map fun r => (r.1.join, r.2)

theorem detect_of_notMem {t : Text} (h : '\r' ∉ t) : LineEnding.detect t = .lf := by
  fun_induction LineEnding.detect t with
  | case1 => simp at h
  | case2 => rfl
  | case3 c t _ _ ih => exact ih fun hm => h (List.mem_cons_of_mem _ hm)
  | case4 => rfl

theorem detect_crlf {t : Text} (h : '\r' ∉ t) (hn : '\n' ∈ t) : LineEnding.detect (crlf t) = .crlf := by
  induction t with
  | nil => cases hn
  | cons c t ih =>
    rw [crlf]
    split
    · rfl
    · rename_i hc
      rw [List.mem_cons, not_or] at h
      rw [List.mem_cons] at hn
      rw [LineEnding.detect]
      · exact ih h.2 (hn.resolve_left (Ne.symm hc))
      · exact fun _ hr _ => h.1 hr.symm
      · exact hc

theorem parse_of_notMem {c : Text} (h : '\r' ∉ c) : SourceText.parse c = ⟨Text.lines c, .lf⟩ := by
  rw [SourceText.parse, detect_of_notMem h]
  exact congrArg (SourceText.mk · .lf) (List.map_id _)

theorem parse_crlf {c : Text} (h : '\r' ∉ c) (hn : '\n' ∈ c) : SourceText.parse (crlf c) = ⟨Text.lines c, .crlf⟩ := by
  rw [SourceText.parse, detect_crlf h hn, ← Text.map_stripEnd_lines (.crlf c) h]
  rfl

theorem rewrite_eq {content : Text} {ls : List Text} {ending : LineEnding} (h : SourceText.parse content = ⟨ls, ending⟩)
    (edits : List TextEdit) (path : Path) :
    rewrite content edits path = (applyEdits ls (sortEdits edits)).map fun result =>
      (ending.text.intercalate (result.map ending.strip), changeRecord ls (sortEdits edits) path) := by
  rw [rewrite, h, SourceText.edit, SourceText.prepare, if_neg Bool.false_ne_true]
  cases applyEdits ls (sortEdits edits) <;> rfl

/-- With returns at the ends of its lines a file is refused the same edits, or else it comes to the same
text with returns and the same log. Edits that fit and lie apart may have returns in their texts too. -/
theorem rewrite_crlf {c : Text} {edits : List TextEdit} (path : Path) (hc : '\r' ∉ c) (hn : '\n' ∈ c)
    (ht : ∀ e ∈ edits, '\r' ∉ e.newText) :
    rewrite (crlf c) edits path = (rewrite c edits path).map (fun r => (crlf r.1, r.2)) ∧
    ((∀ e ∈ edits, e.Fits (SourceText.parse c).lines) → edits.Pairwise TextEdit.Apart →
      ∀ edits', List.Forall₂ TextEdit.Returned edits edits' →
        ∃ text record record', rewrite (crlf c) edits path = .ok (text, record) ∧
          rewrite (crlf c) edits' path = .ok (text, record')) := by
  have hlines : ∀ l ∈ Text.lines c, '\r' ∉ l := fun l => Text.notMem_of_mem_lines fun h => absurd h hc
  have hreturn : ∀ result, applyEdits (Text.lines c) (sortEdits edits) = .ok result → ∀ l ∈ result, '\r' ∉ l :=
    fun result h => notMem_applyEdits hlines
      (fun e he hr => absurd hr (ht e ((sortEdits_perm edits).mem_iff.mp he))) h
  rw [rewrite_eq (parse_crlf hc hn), rewrite_eq (parse_of_notMem hc)]
  refine ⟨?_, fun hf ha edits' h' => ?_⟩
  · cases hr : applyEdits (Text.lines c) (sortEdits edits) with
    | error e => rfl
    | ok result =>
      have hcrlf : result.map LineEnding.crlf.strip = result :=
        (List.map_congr_left fun l hl => Text.stripEnd_of_notMem (hreturn result hr l hl)).trans (List.map_id _)
      have hlf : result.map LineEnding.lf.strip = result := List.map_id _
      have hnew := notMem_applyEdits (Text.isLines_lines c).no_newline (fun _ _ _ => rfl) hr
      simp only [Except.map, hcrlf, hlf, LineEnding.text]
      rw [Text.intercalate_crlf hnew]
      rfl
  · rw [parse_of_notMem hc] at hf
    obtain ⟨u, u', hu, happ, happ'⟩ := applyEdits_returned (forall₂_sortEdits h') (Text.isLines_lines c)
      (fun e he => hf e ((sortEdits_perm edits).mem_iff.mp he))
      (pairwise_stop_le (fun e he => (hf e he).forward) ha) .nil
    rw [List.append_nil, Text.unlines_lines] at happ happ'
    have hru : '\r' ∉ u := by
      rw [← Text.unlines_lines u, Text.mem_unlines_iff (by decide)]
      rintro ⟨l, hl, hr⟩
      exact hreturn _ happ l hl hr
    have hstrip : (Text.lines u').map (Text.stripEnd '\r') = (Text.lines u).map (Text.stripEnd '\r') :=
      (Text.map_stripEnd_lines hu hru).trans (Text.map_stripEnd_lines (.refl u) hru).symm
    rw [rewrite_eq (parse_crlf hc hn), happ, happ']
    exact ⟨_, _, _, rfl, congrArg (fun ls => Except.ok (['\r', '\n'].intercalate ls, _)) hstrip⟩

/-- A line put in with a return of its own, before a replacement. -/
theorem rewrite_crlf_inserted_line :
    let c : Text := ['a', '\n', 'b']
    let edits : List TextEdit := [⟨1, 2, 1, 2, ['x', '\n', 'y']⟩, ⟨2, 1, 2, 2, ['z']⟩]
    let edits' : List TextEdit := [⟨1, 2, 1, 2, ['x', '\r', '\n', 'y']⟩, ⟨2, 1, 2, 2, ['z']⟩]
    ('\r' ∉ c ∧ '\n' ∈ c ∧ (∀ e ∈ edits, '\r' ∉ e.newText) ∧ (∀ e ∈ edits, e.Fits (SourceText.parse c).lines) ∧
      edits.Pairwise TextEdit.Apart ∧ List.Forall₂ TextEdit.Returned edits edits') ∧
      ∃ text record record', rewrite (crlf c) edits ⟨"a.ts"⟩ = .ok (text, record) ∧
        rewrite (crlf c) edits' ⟨"a.ts"⟩ = .ok (text, record') := by
  intro c edits edits'
  have hc : '\r' ∉ c := by decide
  have hn : '\n' ∈ c := by decide
  have ht : ∀ e ∈ edits, '\r' ∉ e.newText := by decide
  have hf : ∀ e ∈ edits, e.Fits (SourceText.parse c).lines := by decide
  have ha : edits.Pairwise TextEdit.Apart := by decide
  have hr : List.Forall₂ TextEdit.Returned edits edits' :=
    .cons ⟨rfl, rfl, .crlf ['x', '\n', 'y']⟩ (.cons ⟨rfl, rfl, .refl ['z']⟩ .nil)
  exact ⟨⟨hc, hn, ht, hf, ha, hr⟩, (rewrite_crlf ⟨"a.ts"⟩ hc hn ht).2 hf ha edits' hr⟩

end Refactor
