import Refactor.Edit.Apply
import Refactor.Proofs.Lines

/-!
# Spans in the text that lines make up

A span cuts the text of its lines in three: what stands before it (`Span.head`),
what it covers (`Span.text`) and what follows it (`Span.tail`). Replacing the
text of a span is then replacing the middle part:

* `head_text_tail`: the three parts make up the text;
* `replace_eq`: the lines after a replacement are those of `head`, new text, `tail`;
* `resolve_of_placed`: an edit between lines that are there (`TextEdit.Placed`) has a
  span, and so has one that fits the lines (`TextEdit.Fits`);
* `Extends.resolve_eq`, `Extends.head_eq`, `Extends.text_eq`: span, head and covered
  text of an edit that fits the first lines do not depend on what follows these
  lines;
* `fits_linesBefore`: an edit that ends where another starts, or before, fits the
  lines cut off at that start.
-/

namespace Refactor

/-! ## Locations -/

instance : LE Location :=
  ⟨fun a b => a.line.toNat < b.line.toNat ∨ a.line = b.line ∧ a.offset.toNat ≤ b.offset.toNat⟩

instance (a b : Location) : Decidable (a ≤ b) :=
  inferInstanceAs (Decidable (a.line.toNat < b.line.toNat ∨ a.line = b.line ∧ a.offset.toNat ≤ b.offset.toNat))

theorem Location.le_def {a b : Location} :
    a ≤ b ↔ a.line.toNat < b.line.toNat ∨ a.line.toNat = b.line.toNat ∧ a.offset.toNat ≤ b.offset.toNat := by
  rw [UInt32.toNat_inj]
  exact Iff.rfl

theorem Location.le_antisymm {a b : Location} (h₁ : a ≤ b) (h₂ : b ≤ a) : a = b := by
  rw [Location.le_def] at h₁ h₂
  have hl : a.line = b.line := UInt32.toNat_inj.mp (by omega)
  have ho : a.offset = b.offset := UInt32.toNat_inj.mp (by omega)
  cases a
  cases b
  simp_all

theorem Location.le_trans {a b c : Location} (h₁ : a ≤ b) (h₂ : b ≤ c) : a ≤ c := by
  rw [Location.le_def] at *
  omega

namespace TextEdit

/-- Where an edit starts. -/
def start (e : TextEdit) : Location := ⟨e.startLine, e.startOffset⟩

/-- Where an edit ends. -/
def stop (e : TextEdit) : Location := ⟨e.endLine, e.endOffset⟩

/-- An edit that runs forward between locations of lines that are there, however large its offsets are. -/
structure Placed (lines : List Text) (e : TextEdit) : Prop where
  forward : e.start ≤ e.stop
  start_line : 1 ≤ e.startLine.toNat ∧ e.startLine.toNat ≤ lines.length
  stop_line : 1 ≤ e.endLine.toNat ∧ e.endLine.toNat ≤ lines.length

instance (lines : List Text) (e : TextEdit) : Decidable (Placed lines e) :=
  decidable_of_iff (e.start ≤ e.stop ∧ (1 ≤ e.startLine.toNat ∧ e.startLine.toNat ≤ lines.length) ∧
      1 ≤ e.endLine.toNat ∧ e.endLine.toNat ≤ lines.length)
    ⟨fun ⟨h₁, h₂, h₃⟩ => ⟨h₁, h₂, h₃⟩, fun ⟨h₁, h₂, h₃⟩ => ⟨h₁, h₂, h₃⟩⟩

/-- A location in the lines, at most one past the units of its line. -/
def InLines (lines : List Text) (p : Location) : Prop :=
  1 ≤ p.line.toNat ∧ p.line.toNat ≤ lines.length ∧
    p.offset.toNat ≤ Text.units (Span.lineAt lines (p.line.toNat - 1)) + 1

/-- An edit that runs forward between two locations in the lines. -/
structure Fits (lines : List Text) (e : TextEdit) : Prop where
  forward : e.start ≤ e.stop
  start_mem : InLines lines e.start
  stop_mem : InLines lines e.stop

instance (lines : List Text) (p : Location) : Decidable (InLines lines p) :=
  inferInstanceAs (Decidable (_ ∧ _ ∧ _))

instance (lines : List Text) (e : TextEdit) : Decidable (Fits lines e) :=
  decidable_of_iff (e.start ≤ e.stop ∧ InLines lines e.start ∧ InLines lines e.stop)
    ⟨fun ⟨h₁, h₂, h₃⟩ => ⟨h₁, h₂, h₃⟩, fun ⟨h₁, h₂, h₃⟩ => ⟨h₁, h₂, h₃⟩⟩

theorem Fits.placed {lines : List Text} {e : TextEdit} (h : e.Fits lines) : e.Placed lines :=
  ⟨h.forward, ⟨h.start_mem.1, h.start_mem.2.1⟩, h.stop_mem.1, h.stop_mem.2.1⟩

end TextEdit

namespace Span

open Text

/-! ## Lines by index -/

theorem lineAt_of_lt {lines : List Text} {i : Nat} (h : i < lines.length) : lineAt lines i = lines[i] := by
  rw [lineAt, List.getD_eq_getElem?_getD, List.getElem?_eq_getElem h, Option.getD_some]

theorem lineAt_append_left {ls ms : List Text} {i : Nat} (h : i < ls.length) :
    lineAt (ls ++ ms) i = lineAt ls i := by
  simp only [lineAt, List.getD_eq_getElem?_getD, List.getElem?_append_left h]

@[simp] theorem lineAt_append_length (ls : List Text) (l : Text) (ms : List Text) :
    lineAt (ls ++ l :: ms) ls.length = l := by
  simp [lineAt, List.getD_eq_getElem?_getD]

theorem lineAt_take {lines : List Text} {i j : Nat} (h : i < j) :
    lineAt (lines.take j) i = lineAt lines i := by
  simp only [lineAt, List.getD_eq_getElem?_getD, List.getElem?_take_of_lt h]

theorem take_lineAt_drop {lines : List Text} {i : Nat} (h : i < lines.length) :
    lines.take i ++ lineAt lines i :: lines.drop (i + 1) = lines := by
  rw [lineAt_of_lt h, List.getElem_cons_drop h, List.take_append_drop]

/-! ## The parts of a text -/

/-- A span that a resolution can give: its lines are there, it runs forward, and it starts and ends
between characters. -/
structure Sound (s : Span) (lines : List Text) : Prop where
  lines_le : s.startLine ≤ s.endLine
  endLine_lt : s.endLine < lines.length
  bytes_le : s.startLine = s.endLine → s.startByte ≤ s.endByte
  startByte_eq : byteSize (takeBytes s.startByte (lineAt lines s.startLine)) = s.startByte
  endByte_eq : byteSize (takeBytes s.endByte (lineAt lines s.endLine)) = s.endByte

/-- The text up to a byte of a line. -/
def upTo (lines : List Text) (i b : Nat) : Text :=
  unlines (lines.take i ++ [takeBytes b (lineAt lines i)])

/-- The text before the span. -/
def head (s : Span) (lines : List Text) : Text := upTo lines s.startLine s.startByte

/-- The text after the span. -/
def tail (s : Span) (lines : List Text) : Text := unlines (s.after lines :: lines.drop (s.endLine + 1))

theorem upTo_tail {s : Span} {lines : List Text} (h : s.endLine < lines.length) :
    upTo lines s.endLine s.endByte ++ s.tail lines = unlines lines := by
  rw [upTo, tail, after, ← unlines_append_cons, takeBytes_append_dropBytes, take_lineAt_drop h]

/-- A span and what stands before it reach up to its end. -/
theorem head_text {s : Span} {lines : List Text} (h : s.Sound lines) :
    s.head lines ++ s.text lines = upTo lines s.endLine s.endByte := by
  by_cases he : s.startLine = s.endLine
  · have hb : takeBytes s.startByte (takeBytes s.endByte (lineAt lines s.endLine)) =
        takeBytes s.startByte (lineAt lines s.endLine) := by
      rw [← takeBytes_append_left (t := takeBytes s.endByte (lineAt lines s.endLine))
        (by rw [h.endByte_eq]; exact h.bytes_le he) (dropBytes s.endByte (lineAt lines s.endLine)),
        takeBytes_append_dropBytes]
    rw [text, if_pos he, head, upTo, upTo, he, ← hb, ← unlines_singleton (dropBytes _ _),
      ← unlines_append_cons, takeBytes_append_dropBytes]
  · have hlt : s.startLine < s.endLine := Nat.lt_of_le_of_ne h.lines_le he
    have hcut := @take_lineAt_drop (lines.take s.endLine) s.startLine
      (by rw [List.length_take]; have := h.endLine_lt; omega)
    rw [List.take_take, Nat.min_eq_left h.lines_le, lineAt_take hlt] at hcut
    rw [text, if_neg he, head, upTo, upTo, ← unlines_append_cons, takeBytes_append_dropBytes,
      ← List.cons_append, ← List.append_assoc, hcut]

/-- The parts before, in and after a span make up the text. -/
theorem head_text_tail {s : Span} {lines : List Text} (h : s.Sound lines) :
    s.head lines ++ s.text lines ++ s.tail lines = unlines lines := by
  rw [head_text h, upTo_tail h.endLine_lt]

/-- Replacing the text of a span leaves the parts before and after it. -/
theorem replace_eq {s : Span} {lines : List Text} (hl : ∀ l ∈ lines, '\n' ∉ l) (newText : Text) :
    s.replace lines newText = Text.lines (s.head lines ++ newText ++ s.tail lines) := by
  have ht : ∀ l ∈ lines.take s.startLine, '\n' ∉ l := fun l h => hl l (List.mem_of_mem_take h)
  have hd : ∀ l ∈ lines.drop (s.endLine + 1), '\n' ∉ l := fun l h => hl l (List.mem_of_mem_drop h)
  rw [head, upTo, tail, List.append_assoc, lines_unlines_append ht, ← List.append_assoc,
    lines_append_unlines hd, ← List.append_assoc]
  rfl

/-! ## Resolution -/

/-- An edit between lines that are there has a span, at the boundaries of its offsets. -/
theorem resolve_of_placed {lines : List Text} {e : TextEdit} (h : e.Placed lines) :
    ∃ s, resolve lines e = .ok s ∧ s.Sound lines ∧
      s.startLine = e.startLine.toNat - 1 ∧ s.endLine = e.endLine.toNat - 1 ∧
      s.startByte = byteOfOffset (lineAt lines s.startLine) e.startOffset.toNat ∧
      s.endByte = byteOfOffset (lineAt lines s.endLine) e.endOffset.toNat := by
  obtain ⟨hle, ⟨hs₁, hs₂⟩, he₁, he₂⟩ := h
  rw [Location.le_def] at hle
  simp only [TextEdit.start, TextEdit.stop] at *
  have hb : e.startLine.toNat = e.endLine.toNat →
      byteOfOffset (lineAt lines (e.startLine.toNat - 1)) e.startOffset.toNat ≤
        byteOfOffset (lineAt lines (e.endLine.toNat - 1)) e.endOffset.toNat := by
    intro heq
    rw [heq]
    exact boundaryAt_mono (by omega) _
  refine ⟨⟨e.startLine.toNat - 1, byteOfOffset (lineAt lines (e.startLine.toNat - 1)) e.startOffset.toNat,
    e.endLine.toNat - 1, byteOfOffset (lineAt lines (e.endLine.toNat - 1)) e.endOffset.toNat⟩,
    ?_, ⟨?_, ?_, ?_, ?_, ?_⟩, rfl, rfl, rfl, rfl⟩
  · rw [resolve, if_neg (by omega), if_neg (by omega), if_neg]
    intro ⟨heq, hlt⟩
    have := hb heq
    omega
  · show e.startLine.toNat - 1 ≤ e.endLine.toNat - 1
    omega
  · show e.endLine.toNat - 1 < lines.length
    omega
  · show e.startLine.toNat - 1 = e.endLine.toNat - 1 → _
    intro heq
    exact hb (by omega)
  · exact byteSize_takeBytes_boundaryAt _ _
  · exact byteSize_takeBytes_boundaryAt _ _

theorem resolve_of_fits {lines : List Text} {e : TextEdit} (h : e.Fits lines) :
    ∃ s, resolve lines e = .ok s ∧ s.Sound lines ∧
      s.startLine = e.startLine.toNat - 1 ∧ s.endLine = e.endLine.toNat - 1 ∧
      s.startByte = byteOfOffset (lineAt lines s.startLine) e.startOffset.toNat ∧
      s.endByte = byteOfOffset (lineAt lines s.endLine) e.endOffset.toNat :=
  resolve_of_placed h.placed

/-! ## Text that follows -/

/-- Lines that start as `ls` does: only its last line may go on, and more lines may follow. -/
structure Extends (ls ms : List Text) : Prop where
  length_le : ls.length ≤ ms.length
  take_eq : ∀ i < ls.length, ms.take i = ls.take i
  line_eq : ∀ i < ls.length, ∃ t, lineAt ms i = lineAt ls i ++ t

namespace Extends

variable {ls ms : List Text}

/-- Only the last line goes on. -/
theorem lineAt_eq (h : Extends ls ms) {i : Nat} (hi : i + 1 < ls.length) : lineAt ms i = lineAt ls i := by
  rw [← lineAt_take (Nat.lt_succ_self i), h.take_eq _ hi, lineAt_take (Nat.lt_succ_self i)]

theorem byteOfOffset_eq (h : Extends ls ms) {p : Location} (hp : TextEdit.InLines ls p) :
    byteOfOffset (lineAt ms (p.line.toNat - 1)) p.offset.toNat =
      byteOfOffset (lineAt ls (p.line.toNat - 1)) p.offset.toNat := by
  obtain ⟨h₁, h₂, h₃⟩ := hp
  obtain ⟨t, ht⟩ := h.line_eq (p.line.toNat - 1) (by omega)
  rw [byteOfOffset, byteOfOffset, ht, boundaryAt_append_left (by omega)]

theorem inLines (h : Extends ls ms) {p : Location} (hp : TextEdit.InLines ls p) : TextEdit.InLines ms p := by
  obtain ⟨h₁, h₂, h₃⟩ := hp
  obtain ⟨t, ht⟩ := h.line_eq (p.line.toNat - 1) (by omega)
  have hl := h.length_le
  refine ⟨h₁, by omega, ?_⟩
  rw [ht, units_append]
  omega

theorem fits (h : Extends ls ms) {e : TextEdit} (he : e.Fits ls) : e.Fits ms :=
  ⟨he.forward, h.inLines he.start_mem, h.inLines he.stop_mem⟩

/-- The span of an edit that fits the first lines is the same with more text after them. -/
theorem resolve_eq (h : Extends ls ms) {e : TextEdit} (he : e.Fits ls) : resolve ms e = resolve ls e := by
  obtain ⟨s, hs, -, sl, el, sb, eb⟩ := resolve_of_fits he
  obtain ⟨s', hs', -, sl', el', sb', eb'⟩ := resolve_of_fits (h.fits he)
  have hsb := h.byteOfOffset_eq he.start_mem
  have heb := h.byteOfOffset_eq he.stop_mem
  simp only [TextEdit.start, TextEdit.stop] at hsb heb
  rw [sl] at sb
  rw [el] at eb
  rw [sl', hsb] at sb'
  rw [el', heb] at eb'
  rw [hs, hs']
  cases s
  cases s'
  simp_all

theorem takeBytes_eq (h : Extends ls ms) {i b : Nat} (hi : i < ls.length)
    (hb : byteSize (takeBytes b (lineAt ls i)) = b) :
    takeBytes b (lineAt ms i) = takeBytes b (lineAt ls i) := by
  obtain ⟨t, ht⟩ := h.line_eq i hi
  have hle : b ≤ byteSize (lineAt ls i) := by
    have := congrArg byteSize (takeBytes_append_dropBytes b (lineAt ls i))
    rw [byteSize_append] at this
    omega
  rw [ht, takeBytes_append_left hle]

theorem head_eq (h : Extends ls ms) {s : Span} (hs : s.Sound ls) : s.head ms = s.head ls := by
  have hi := Nat.lt_of_le_of_lt hs.lines_le hs.endLine_lt
  rw [head, head, upTo, upTo, h.take_eq _ hi, h.takeBytes_eq hi hs.startByte_eq]

/-- The text that a span covers is the same with more text after the lines. -/
theorem text_eq (h : Extends ls ms) {s : Span} (hs : s.Sound ls) : s.text ms = s.text ls := by
  have he := hs.endLine_lt
  by_cases heq : s.startLine = s.endLine
  · rw [text, text, if_pos heq, if_pos heq, heq, h.takeBytes_eq he hs.endByte_eq]
  · have hlt := Nat.lt_of_le_of_ne hs.lines_le heq
    rw [text, text, if_neg heq, if_neg heq, h.take_eq _ he, h.lineAt_eq (by omega),
      h.takeBytes_eq he hs.endByte_eq]

theorem coveredText_eq (h : Extends ls ms) {e : TextEdit} (he : e.Fits ls) :
    coveredText ms e = coveredText ls e := by
  obtain ⟨s, hs, hso, -⟩ := resolve_of_fits he
  rw [coveredText, coveredText, h.resolve_eq he, hs]
  exact h.text_eq hso

end Extends

theorem extends_append_cons (ls ms : List Text) (p t : Text) : Extends (ls ++ [p]) (ls ++ (p ++ t) :: ms) := by
  refine ⟨by simp, fun i hi => ?_, fun i hi => ?_⟩
  · rw [List.length_append, List.length_singleton] at hi
    rw [List.take_append_of_le_length (by omega), List.take_append_of_le_length (by omega)]
  · rw [List.length_append, List.length_singleton] at hi
    by_cases he : i = ls.length
    · exact ⟨t, by rw [he, lineAt_append_length, lineAt_append_length]⟩
    · exact ⟨[], by rw [lineAt_append_left (by omega), lineAt_append_left (by omega), List.append_nil]⟩

/-- More text after lines extends them. -/
theorem extends_lines {ls : List Text} (h : IsLines ls) (t : Text) : Extends ls (Text.lines (unlines ls ++ t)) := by
  obtain ⟨ms, p, rfl⟩ := (List.eq_nil_or_concat ls).resolve_left h.ne_nil
  rw [List.concat_eq_append] at *
  obtain ⟨u, ns, hu⟩ := lines_append_of_notMem (h.no_newline p (by simp)) t
  rw [lines_unlines_append fun l hl => h.no_newline l (by simp [hl]), hu]
  exact extends_append_cons ms ns p u

/-! ## Lines cut off at the start of a span -/

/-- The lines before a span, with the part of its first line before it. -/
def linesBefore (s : Span) (lines : List Text) : List Text := lines.take s.startLine ++ [s.before lines]

theorem unlines_linesBefore (s : Span) (lines : List Text) : unlines (s.linesBefore lines) = s.head lines := rfl

theorem isLines_linesBefore {lines : List Text} (h : ∀ l ∈ lines, '\n' ∉ l) {s : Span}
    (hs : s.startLine < lines.length) : IsLines (s.linesBefore lines) := by
  refine ⟨by simp [linesBefore], fun l hl hn => ?_⟩
  rcases List.mem_append.mp hl with hl | hl
  · exact h l (List.mem_of_mem_take hl) hn
  · obtain rfl := List.mem_singleton.mp hl
    refine h (lineAt lines s.startLine) ?_ ?_
    · rw [lineAt_of_lt hs]
      exact List.getElem_mem hs
    · rw [← takeBytes_append_dropBytes s.startByte (lineAt lines s.startLine)]
      exact List.mem_append_left _ hn

theorem extends_linesBefore {lines : List Text} {s : Span} (hs : s.startLine < lines.length) :
    Extends (s.linesBefore lines) lines := by
  have := extends_append_cons (lines.take s.startLine) (lines.drop (s.startLine + 1)) (s.before lines)
    (dropBytes s.startByte (lineAt lines s.startLine))
  rwa [before, takeBytes_append_dropBytes, take_lineAt_drop hs] at this

/-- An edit that ends where another starts, or before, fits the lines cut off at that start. -/
theorem fits_linesBefore {lines : List Text} {d e : TextEdit} {s : Span} (hd : d.Fits lines) (he : e.Fits lines)
    (hs : resolve lines e = .ok s) (h : d.stop ≤ e.start) : d.Fits (s.linesBefore lines) := by
  obtain ⟨s', hs', hso, sl, -, sb, -⟩ := resolve_of_fits he
  obtain rfl : s' = s := Except.ok.inj (hs'.symm.trans hs)
  have hlen : (s'.linesBefore lines).length = s'.startLine + 1 := by
    have := Nat.lt_of_le_of_lt hso.lines_le hso.endLine_lt
    rw [linesBefore, List.length_append, List.length_take, List.length_singleton]
    omega
  -- A location up to the start of `e` is there after the cut: in the last line left, the boundary
  -- of the start has at least as many units before it as its offset asks for.
  have hin : ∀ p : Location, TextEdit.InLines lines p → p ≤ e.start → TextEdit.InLines (s'.linesBefore lines) p := by
    intro p ⟨p₁, p₂, p₃⟩ hle
    rw [Location.le_def] at hle
    simp only [TextEdit.start] at hle
    refine ⟨p₁, by omega, ?_⟩
    by_cases hlast : p.line.toNat = e.startLine.toNat
    · have hunits := he.start_mem.2.2
      simp only [TextEdit.start] at hunits
      have := le_units_takeBytes (n := e.startOffset.toNat - 1) (t := lineAt lines s'.startLine)
        (by rw [sl]; omega)
      have hline : lineAt (s'.linesBefore lines) (p.line.toNat - 1) = s'.before lines := by
        have hl := lineAt_append_length (lines.take s'.startLine) (s'.before lines) []
        rwa [List.length_take, show min s'.startLine lines.length = p.line.toNat - 1 by omega] at hl
      rw [hline, before, sb, byteOfOffset]
      omega
    · rw [linesBefore, lineAt_append_left (by rw [List.length_take]; omega), lineAt_take (by omega)]
      exact p₃
  exact ⟨hd.forward, hin _ hd.start_mem (Location.le_trans hd.forward h), hin _ hd.stop_mem h⟩

end Span

end Refactor
