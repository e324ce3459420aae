import Refactor.Proofs.Spans

/-!
# Edits as one replacement of a text

Edits are applied one after the other to lines that change under them. When they
fit the lines and lie apart, the outcome is what replacing all their spans at
once gives: the text falls into gaps and covered texts, and each covered text is
replaced where it stands.

* `pairwise_sortEdits`, `filter_sortEdits`: sorting goes from the last span to the
  first and turns edits with the same span around;
* `applyEdit_lines`: one edit leaves the text before its span as it was;
* `applyEdits_lines`: so do all, from the last to the first;
* `applyEdits_eq_splice`: the outcome for sorted edits.
-/

namespace Refactor

open Text (unlines byteSize IsLines)

namespace TextEdit

/-! ## Order -/

/-- One of two edits ends where the other starts, or before. -/
def Apart (a b : TextEdit) : Prop := a.stop ≤ b.start ∨ b.stop ≤ a.start

instance (a b : TextEdit) : Decidable (Apart a b) := inferInstanceAs (Decidable (_ ∨ _))

theorem Apart.symm {a b : TextEdit} (h : Apart a b) : Apart b a := Or.symm h

/-- Inserts of text at a location. -/
def insertsAt (p : Location) (e : TextEdit) : Bool := decide (e.start = p ∧ e.stop = p)

/-- Spans are ranked by their starts, and by their ends where they start together. -/
theorem rank_le_iff {a b : TextEdit} :
    a.rank ≤ b.rank ↔ a.start ≤ b.start ∧ (a.start = b.start → a.stop ≤ b.stop) := by
  have h₁ := a.startLine.toNat_lt
  have h₂ := a.startOffset.toNat_lt
  have h₃ := a.endLine.toNat_lt
  have h₄ := a.endOffset.toNat_lt
  have h₅ := b.startLine.toNat_lt
  have h₆ := b.startOffset.toNat_lt
  have h₇ := b.endLine.toNat_lt
  have h₈ := b.endOffset.toNat_lt
  simp only [rank, Location.le_def, start, stop, Location.mk.injEq, ← UInt32.toNat_inj,
    show UInt32.size = 4294967296 from rfl]
  constructor
  · intro h
    exact ⟨by omega, fun he => by omega⟩
  · rintro ⟨h, he⟩
    omega

end TextEdit

theorem rank_ge_trans (a b c : TextEdit) (h₁ : decide (b.rank ≤ a.rank) = true)
    (h₂ : decide (c.rank ≤ b.rank) = true) : decide (c.rank ≤ a.rank) = true := by
  simp only [decide_eq_true_eq] at *
  omega

theorem rank_ge_total (a b : TextEdit) :
    (decide (b.rank ≤ a.rank) || decide (a.rank ≤ b.rank)) = true := by
  simp only [Bool.or_eq_true, decide_eq_true_eq]
  omega

theorem sortEdits_perm (edits : List TextEdit) : (sortEdits edits).Perm edits :=
  (List.mergeSort_perm _ _).trans (List.reverse_perm _)

theorem pairwise_sortEdits (edits : List TextEdit) :
    (sortEdits edits).Pairwise fun a b => b.rank ≤ a.rank := by
  have h : (sortEdits edits).Pairwise fun a b => decide (b.rank ≤ a.rank) = true :=
    List.pairwise_mergeSort rank_ge_trans rank_ge_total edits.reverse
  exact h.imp fun hab => by simpa using hab

/-- Edits of one rank come in reverse. -/
theorem filter_sortEdits (edits : List TextEdit) {p : TextEdit → Bool}
    (hp : ∀ a b, p a → p b → a.rank = b.rank) :
    (sortEdits edits).filter p = (edits.filter p).reverse := by
  have hsub : (edits.reverse.filter p).Sublist (sortEdits edits) := by
    refine List.sublist_mergeSort rank_ge_trans rank_ge_total ?_ List.filter_sublist
    refine List.Pairwise.imp_of_mem (R := fun _ _ => True) (fun ha hb _ => ?_)
      (List.pairwise_of_forall fun _ _ => trivial)
    have := hp _ _ (List.mem_filter.mp ha).2 (List.mem_filter.mp hb).2
    simp [this]
  have hsub' := hsub.filter p
  rw [List.filter_filter] at hsub'
  simp only [Bool.and_self] at hsub'
  rw [List.filter_reverse] at hsub'
  exact (hsub'.eq_of_length ((((sortEdits_perm edits).filter p).length_eq.symm ▸ by simp))).symm

/-- An edit that is ranked no higher than one it lies apart from ends where that one starts, or earlier. -/
theorem TextEdit.Apart.stop_le {a b : TextEdit} (h : Apart a b) (hr : b.rank ≤ a.rank) (hf : a.start ≤ a.stop) :
    b.stop ≤ a.start := by
  rcases h with hab | hba
  · obtain ⟨hst, hend⟩ := TextEdit.rank_le_iff.mp hr
    have heq := Location.le_antisymm hst (Location.le_trans hf hab)
    -- Then `a` is an insert where `b` starts, and `b` is ranked no higher.
    exact Location.le_trans (hend heq) (heq ▸ hab)
  · exact hba

/-- Sorted edits that lie apart still do. -/
theorem pairwise_apart_sortEdits {edits : List TextEdit} (ha : edits.Pairwise TextEdit.Apart) :
    (sortEdits edits).Pairwise TextEdit.Apart := (sortEdits_perm edits).symm.pairwise ha fun h => h.symm

/-- Of sorted edits that lie apart each ends where those before it start, or earlier. -/
theorem pairwise_stop_le {edits : List TextEdit} (hf : ∀ e ∈ edits, e.start ≤ e.stop)
    (ha : edits.Pairwise TextEdit.Apart) : (sortEdits edits).Pairwise fun a b => b.stop ≤ a.start := by
  refine ((pairwise_sortEdits edits).and (pairwise_apart_sortEdits ha)).imp_of_mem fun {a b} hma _ ⟨hr, hab⟩ => ?_
  exact hab.stop_le hr (hf a ((sortEdits_perm edits).mem_iff.mp hma))

/-! ## Texts between gaps -/

/-- Texts with a gap before each and after the last. -/
def weave : List Text → List Text → Text
  | g :: gs, t :: ts => g ++ t ++ weave gs ts
  | gs, [] => gs.flatten
  | [], ts => ts.flatten

theorem weave_append {gs ts : List Text} (h : gs.length = ts.length + 1) (gs' : List Text) (t : Text)
    (ts' : List Text) : weave (gs ++ gs') (ts ++ t :: ts') = weave gs ts ++ t ++ weave gs' ts' := by
  induction ts generalizing gs with
  | nil =>
    obtain ⟨a, rfl⟩ := List.length_eq_one_iff.mp h
    simp [weave]
  | cons u ts ih =>
    cases gs with
    | nil => simp at h
    | cons a gs =>
      simp only [List.cons_append, weave, ih (Nat.succ.inj h), List.append_assoc]

theorem weave_concat {gs ts : List Text} (h : gs.length = ts.length + 1) (t g : Text) :
    weave (gs ++ [g]) (ts ++ [t]) = weave gs ts ++ t ++ g := by
  rw [weave_append h, weave, List.flatten_singleton]

theorem weave_append_text {gs ts : List Text} (h : gs.length = ts.length + 1) (t : Text) :
    weave gs (ts ++ [t]) = weave gs ts ++ t := by
  have := weave_append h [] t []
  rwa [List.append_nil, weave, List.flatten_nil, List.append_nil] at this

/-! ## Positions in a text -/

/-- The byte at which a line starts in the text of its lines. -/
def lineStart : List Text → Nat → Nat
  | _, 0 => 0
  | [], _ + 1 => 0
  | l :: ls, i + 1 => byteSize l + 1 + lineStart ls i

namespace Span

/-- The byte at which a span starts in the text of the lines. -/
def startPosition (s : Span) (lines : List Text) : Nat := lineStart lines s.startLine + s.startByte

/-- The byte at which a span ends in the text of the lines. -/
def endPosition (s : Span) (lines : List Text) : Nat := lineStart lines s.endLine + s.endByte

theorem byteSize_unlines_take {lines : List Text} {i : Nat} (h : i ≤ lines.length) (t : Text) :
    byteSize (unlines (lines.take i ++ [t])) = lineStart lines i + byteSize t := by
  induction lines generalizing i with
  | nil =>
    obtain rfl := Nat.le_zero.mp h
    simp [lineStart]
  | cons l ls ih =>
    cases i with
    | zero => simp [lineStart]
    | succ i =>
      have hn : byteSize ('\n' :: unlines (ls.take i ++ [t])) = 1 + byteSize (unlines (ls.take i ++ [t])) := rfl
      rw [List.take_succ_cons, List.cons_append, Text.unlines_cons (by simp), Text.byteSize_append, hn,
        ih (Nat.le_of_succ_le_succ h), lineStart]
      omega

theorem byteSize_head {s : Span} {lines : List Text} (h : s.Sound lines) :
    byteSize (s.head lines) = s.startPosition lines := by
  have := Nat.lt_of_le_of_lt h.lines_le h.endLine_lt
  rw [head, upTo, byteSize_unlines_take (by omega), h.startByte_eq]
  rfl

theorem byteSize_head_text {s : Span} {lines : List Text} (h : s.Sound lines) :
    byteSize (s.head lines ++ s.text lines) = s.endPosition lines := by
  have := h.endLine_lt
  rw [head_text h, upTo, byteSize_unlines_take (by omega), h.endByte_eq]
  rfl

end Span

/-! ## Applying edits -/

/-- One edit, in lines with more text after them: the text before its span stays, and so does all
that follows it. -/
theorem applyEdit_lines {ls : List Text} (hl : IsLines ls) {e : TextEdit} (he : e.Fits ls) (t : Text) :
    ∃ s, Span.resolve ls e = .ok s ∧ s.Sound ls ∧
      applyEdit (Text.lines (unlines ls ++ t)) e =
        .ok (Text.lines (unlines (s.linesBefore ls) ++ (e.newText ++ (s.tail ls ++ t)))) := by
  have hx := Span.extends_lines hl t
  obtain ⟨s, hs, hso, -⟩ := Span.resolve_of_fits he
  obtain ⟨s', hs', hso', -⟩ := Span.resolve_of_fits (hx.fits he)
  obtain rfl : s' = s := Except.ok.inj (hs'.symm.trans ((hx.resolve_eq he).trans hs))
  -- Head and covered text are those of `ls`, so the text added to `ls` is in the tail.
  have htail : s'.tail (Text.lines (unlines ls ++ t)) = s'.tail ls ++ t := by
    apply @List.append_cancel_left _ (s'.head ls ++ s'.text ls)
    calc s'.head ls ++ s'.text ls ++ s'.tail (Text.lines (unlines ls ++ t))
        = unlines (Text.lines (unlines ls ++ t)) := by
          rw [← hx.head_eq hso, ← hx.text_eq hso, Span.head_text_tail hso']
      _ = unlines ls ++ t := Text.unlines_lines _
      _ = s'.head ls ++ s'.text ls ++ (s'.tail ls ++ t) := by
          rw [← List.append_assoc, Span.head_text_tail hso]
  refine ⟨s', hs, hso, ?_⟩
  rw [applyEdit, hs']
  show Except.ok _ = _
  rw [Span.replace_eq (Text.isLines_lines _).no_newline, hx.head_eq hso, htail, Span.unlines_linesBefore,
    List.append_assoc]

/-- Edits from the last to the first: they cut the text into gaps and covered texts, and leave the
gaps with the new texts between them. -/
theorem applyEdits_lines {es : List TextEdit} {ls : List Text} (hl : IsLines ls) (hf : ∀ e ∈ es, e.Fits ls)
    (hp : es.Pairwise fun a b => b.stop ≤ a.start) (t : Text) :
    ∃ gaps : List Text, gaps.length = es.length + 1 ∧
      unlines ls = weave gaps (es.reverse.map (coveredText ls)) ∧
      applyEdits (Text.lines (unlines ls ++ t)) es =
        .ok (Text.lines (weave gaps (es.reverse.map (·.newText)) ++ t)) ∧
      ∀ i e, es.reverse[i]? = some e → ∃ s, Span.resolve ls e = .ok s ∧ s.Sound ls ∧
        weave (gaps.take (i + 1)) ((es.reverse.map (coveredText ls)).take i) = s.head ls := by
  induction es generalizing ls t with
  | nil => exact ⟨[unlines ls], by simp, by simp [weave], by simp [weave, applyEdits], by simp⟩
  | cons e es ih =>
    obtain ⟨s, hs, hso, happ⟩ := applyEdit_lines hl (hf e List.mem_cons_self) t
    have hlt := Nat.lt_of_le_of_lt hso.lines_le hso.endLine_lt
    have hx := Span.extends_linesBefore hlt
    obtain ⟨hpe, hpes⟩ := List.pairwise_cons.mp hp
    have hf' : ∀ d ∈ es, d.Fits (s.linesBefore ls) := fun d hd =>
      Span.fits_linesBefore (hf d (List.mem_cons_of_mem _ hd)) (hf e List.mem_cons_self) hs (hpe d hd)
    obtain ⟨gaps, hlen, hold, hnew, hpos⟩ := ih (Span.isLines_linesBefore hl.no_newline hlt) hf' hpes
      (e.newText ++ (s.tail ls ++ t))
    -- The other edits cover the same texts before the cut and after it.
    have hcov : es.reverse.map (coveredText (s.linesBefore ls)) = es.reverse.map (coveredText ls) :=
      List.map_congr_left fun d hd => (hx.coveredText_eq (hf' d (List.mem_reverse.mp hd))).symm
    rw [hcov] at hold hpos
    have hcove : coveredText ls e = s.text ls := by rw [coveredText, hs]
    have hlen' : gaps.length = (es.reverse.map (coveredText ls)).length + 1 := by simpa using hlen
    refine ⟨gaps ++ [s.tail ls], by simp [hlen], ?_, ?_, ?_⟩
    · rw [List.reverse_cons, List.map_append, List.map_singleton, weave_concat hlen', ← hold,
        Span.unlines_linesBefore, hcove, Span.head_text_tail hso]
    · rw [applyEdits, happ]
      show applyEdits _ es = _
      rw [hnew, List.reverse_cons, List.map_append, List.map_singleton, weave_concat (by simpa using hlen)]
      simp only [List.append_assoc]
    · intro i d hd
      rw [List.reverse_cons] at hd
      rw [List.reverse_cons, List.map_append, List.map_singleton]
      rcases Nat.lt_or_ge i es.length with hi | hi
      · rw [List.getElem?_append_left (by simpa using hi)] at hd
        obtain ⟨r, hr, hro, hhead⟩ := hpos i d hd
        have hdf := hf' d (List.mem_reverse.mp (List.mem_of_getElem? hd))
        obtain ⟨r', hr', hro', -⟩ := Span.resolve_of_fits (hx.fits hdf)
        obtain rfl : r' = r := Except.ok.inj (hr'.symm.trans ((hx.resolve_eq hdf).trans hr))
        refine ⟨r', hr', hro', ?_⟩
        rw [List.take_append_of_le_length (by omega), List.take_append_of_le_length (by simp; omega), hhead,
          hx.head_eq hro]
      · have hi' : i = es.length := by
          have := (List.getElem?_eq_some_iff.mp hd).1
          simp at this
          omega
        subst hi'
        simp at hd
        subst hd
        refine ⟨s, hs, hso, ?_⟩
        rw [List.take_append_of_le_length (by omega), List.take_append_of_le_length (by simp),
          List.take_of_length_le (by omega), List.take_of_length_le (by simp), ← hold, Span.unlines_linesBefore]

/-! ## All edits at once -/

/-- The log of edits, from the first span of the file to the last. -/
def logInFile (lines : List Text) (edits : List TextEdit) (path : Path) : List LogEntry :=
  (changeRecord lines (sortEdits edits) path).entries.reverse

/-- The texts that edits replace, from the first span of the file to the last. -/
def oldTexts (lines : List Text) (edits : List TextEdit) (path : Path) : List Text :=
  (logInFile lines edits path).map (·.oldText)

/-- The texts that edits put in, from the first span of the file to the last. -/
def newTexts (lines : List Text) (edits : List TextEdit) (path : Path) : List Text :=
  (logInFile lines edits path).map (·.newText)

/-- `result` comes from `lines` by replacing the spans of all edits at once: old texts and new
texts, in the order of the file, stand between the same gaps. -/
structure Splices (lines : List Text) (edits : List TextEdit) (path : Path) (gaps : List Text)
    (result : List Text) : Prop where
  gaps_length : gaps.length = edits.length + 1
  old_length : (oldTexts lines edits path).length = edits.length
  new_length : (newTexts lines edits path).length = edits.length
  text_before : unlines lines = weave gaps (oldTexts lines edits path)
  text_after : unlines result = weave gaps (newTexts lines edits path)
  /-- Each old text stands where the span of its edit lies in the lines before any edit. -/
  position : ∀ i e, (sortEdits edits).reverse[i]? = some e → ∃ s, Span.resolve lines e = .ok s ∧
    byteSize (weave (gaps.take (i + 1)) ((oldTexts lines edits path).take i)) = s.startPosition lines ∧
    byteSize (weave (gaps.take (i + 1)) ((oldTexts lines edits path).take (i + 1))) = s.endPosition lines
  /-- Inserts at one location keep the order they were given in. -/
  inserts_in_order : ∀ p : Location,
    (sortEdits edits).reverse.filter (TextEdit.insertsAt p) = edits.filter (TextEdit.insertsAt p)
  /-- An insert where a replacement starts comes before it. -/
  insert_first : ∀ (i j : Nat) (p : Location) (a b : TextEdit), (sortEdits edits).reverse[i]? = some a →
    (sortEdits edits).reverse[j]? = some b → a.insertsAt p → b.start = p → b.stop ≠ p → i < j

theorem logInFile_eq (lines : List Text) (edits : List TextEdit) (path : Path) :
    logInFile lines edits path = (sortEdits edits).reverse.map (logEntry lines) := by
  rw [logInFile, changeRecord, List.map_reverse]

theorem oldTexts_eq (lines : List Text) (edits : List TextEdit) (path : Path) :
    oldTexts lines edits path = (sortEdits edits).reverse.map (coveredText lines) := by
  rw [oldTexts, logInFile_eq, List.map_map]
  rfl

theorem newTexts_eq (lines : List Text) (edits : List TextEdit) (path : Path) :
    newTexts lines edits path = (sortEdits edits).reverse.map (·.newText) := by
  rw [newTexts, logInFile_eq, List.map_map]
  rfl

theorem rank_eq_of_insertsAt {p : Location} (a b : TextEdit) (ha : a.insertsAt p) (hb : b.insertsAt p) :
    a.rank = b.rank := by
  simp only [TextEdit.insertsAt, decide_eq_true_eq] at ha hb
  have hp : ∀ c d : TextEdit, c.start = p ∧ c.stop = p → d.start = p ∧ d.stop = p → c.rank ≤ d.rank := by
    intro c d ⟨hc₁, hc₂⟩ ⟨hd₁, hd₂⟩
    rw [TextEdit.rank_le_iff, hc₁, hc₂, hd₁, hd₂, Location.le_def]
    omega
  exact Nat.le_antisymm (hp a b ha hb) (hp b a hb ha)

/-- In the order of the file, an insert comes before all that starts with it and ends later. -/
theorem lt_of_insertsAt {edits : List TextEdit} (hf : ∀ e ∈ edits, e.start ≤ e.stop) {i j : Nat} {p : Location}
    {a b : TextEdit} (hi : (sortEdits edits).reverse[i]? = some a) (hj : (sortEdits edits).reverse[j]? = some b)
    (ha : a.insertsAt p) (hs : b.start = p) (hb : b.stop ≠ p) : i < j := by
  simp only [TextEdit.insertsAt, decide_eq_true_eq] at ha
  obtain ⟨hi₁, rfl⟩ := List.getElem?_eq_some_iff.mp hi
  obtain ⟨hj₁, rfl⟩ := List.getElem?_eq_some_iff.mp hj
  have hbf := hf _ ((sortEdits_perm edits).mem_iff.mp (List.mem_reverse.mp (List.getElem_mem hj₁)))
  rcases Nat.lt_trichotomy i j with h | h | h
  · exact h
  · subst h
    exact absurd ha.2 hb
  · have hr := List.pairwise_iff_getElem.mp (List.pairwise_reverse.mpr (pairwise_sortEdits edits)) j i hj₁ hi₁ h
    have hle := (TextEdit.rank_le_iff.mp hr).2 (hs.trans ha.1.symm)
    rw [ha.2] at hle
    exact absurd (Location.le_antisymm hle (hs ▸ hbf)) hb

/-- Sorted edits that fit the lines and lie apart replace their spans all at once. -/
theorem applyEdits_eq_splice {lines : List Text} {edits : List TextEdit} (path : Path) (hl : IsLines lines)
    (hf : ∀ e ∈ edits, e.Fits lines) (ha : edits.Pairwise TextEdit.Apart) :
    ∃ gaps result, applyEdits lines (sortEdits edits) = .ok result ∧ Splices lines edits path gaps result := by
  have hfwd : ∀ e ∈ edits, e.start ≤ e.stop := fun e he => (hf e he).forward
  have hlen := (sortEdits_perm edits).length_eq
  obtain ⟨gaps, hgaps, hold, hnew, hpos⟩ := applyEdits_lines hl
    (fun e he => hf e ((sortEdits_perm edits).mem_iff.mp he)) (pairwise_stop_le hfwd ha) []
  rw [List.append_nil, Text.lines_unlines hl, List.append_nil] at hnew
  refine ⟨gaps, _, hnew, ?_, ?_, ?_, ?_, ?_, ?_, ?_, ?_⟩
  · rw [hgaps, hlen]
  · simp [oldTexts_eq, hlen]
  · simp [newTexts_eq, hlen]
  · rw [oldTexts_eq, hold]
  · rw [newTexts_eq, Text.unlines_lines]
  · intro i e hi
    obtain ⟨s, hs, hso, hhead⟩ := hpos i e hi
    have hlt := (List.getElem?_eq_some_iff.mp hi).1
    rw [List.length_reverse] at hlt
    have hcov : coveredText lines e = s.text lines := by rw [coveredText, hs]
    have htake : ((sortEdits edits).reverse.map (coveredText lines)).take (i + 1) =
        ((sortEdits edits).reverse.map (coveredText lines)).take i ++ [s.text lines] := by
      rw [List.take_add_one, List.getElem?_map, hi, Option.map_some, hcov]
      rfl
    rw [oldTexts_eq]
    refine ⟨s, hs, by rw [hhead, Span.byteSize_head hso], ?_⟩
    rw [htake, weave_append_text (by simp; omega), hhead, Span.byteSize_head_text hso]
  · intro p
    rw [List.filter_reverse, filter_sortEdits edits rank_eq_of_insertsAt, List.reverse_reverse]
  · intro i j p a b hi hj hap hbs hbp
    exact lt_of_insertsAt hfwd hi hj hap hbs hbp

/-- Two inserts around an astral character, its replacement by two lines, and a joining of lines. -/
theorem applyEdits_eq_splice_astral :
    let lines : List Text := [['a', '😀', 'b'], ['c', 'd']]
    let edits : List TextEdit :=
      [⟨1, 2, 1, 2, ['X']⟩, ⟨1, 2, 1, 4, ['Y', '\n', 'Z']⟩, ⟨1, 2, 1, 2, ['W']⟩, ⟨1, 5, 2, 2, []⟩]
    (IsLines lines ∧ (∀ e ∈ edits, e.Fits lines) ∧ edits.Pairwise TextEdit.Apart) ∧
      ∃ gaps result, applyEdits lines (sortEdits edits) = .ok result ∧
        Splices lines edits ⟨"a.ts"⟩ gaps result := by
  intro lines edits
  have hl : IsLines lines := ⟨by decide, by decide⟩
  have hf : ∀ e ∈ edits, e.Fits lines := by decide
  have ha : edits.Pairwise TextEdit.Apart := by decide
  exact ⟨⟨hl, hf, ha⟩, applyEdits_eq_splice ⟨"a.ts"⟩ hl hf ha⟩

end Refactor
