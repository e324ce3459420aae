import Mathlib.Data.List.Forall2
import Refactor.Proofs.Splice

/-!
# What edits remove and what their log says

The log of edits quotes the lines as they were before any edit. Each edit removes
a text from the lines that the ones before it left. The two texts are the same as
long as an edit finds its span where it was. An offset past the end of a line means
the end of the line, though, and this moves when an edit before put text there.

* `Location.linesUpTo`: lines cut off at a location; `linesUpTo_extends`: lines that start
  in the same way as others up to a location do so up to all earlier ones, but for text at
  the end of a line that is too short for its location (`Location.Past`);
* `coveredText_extends`: then an edit covers what it covered before, and maybe more text
  past the end of its last line;
* `applyEdit_extends`: an edit leaves the lines up to its start;
* `removedTexts_logged`: what each edit removes begins with what the log says, and is just
  that unless this edit overruns the line that another starts in (`TextEdit.Overruns`).
-/

namespace Refactor

open Text (unlines units byteSize boundaryAt takeBytes dropBytes)
open Refactor.Span (lineAt byteOfOffset Extends)

/-- The texts that edits remove, each from the lines that the ones before it left. -/
def removedTexts (lines : List Text) : List TextEdit → List Text
  | [] => []
  | e :: es =>
    match applyEdit lines e with
    | .ok lines' => coveredText lines e :: removedTexts lines' es
    | .error _ => []

/-! ## Lines up to a location -/

namespace Location

/-- The text of the line of a location before it. -/
def textBefore (p : Location) (lines : List Text) : Text :=
  takeBytes (byteOfOffset (lineAt lines (p.line.toNat - 1)) p.offset.toNat) (lineAt lines (p.line.toNat - 1))

/-- The lines cut off at a location. -/
def linesUpTo (p : Location) (lines : List Text) : List Text := lines.take (p.line.toNat - 1) ++ [p.textBefore lines]

/-- A location past the end of its line. -/
def Past (p : Location) (lines : List Text) : Prop := units (lineAt lines (p.line.toNat - 1)) + 1 < p.offset.toNat

instance (p : Location) (lines : List Text) : Decidable (p.Past lines) := inferInstanceAs (Decidable (_ < _))

variable {lines lines' : List Text} {p q : Location}

theorem length_linesUpTo (h : p.line.toNat ≤ lines.length) : (p.linesUpTo lines).length = p.line.toNat - 1 + 1 := by
  rw [linesUpTo, List.length_append, List.length_take, List.length_singleton]
  omega

theorem lineAt_linesUpTo (h : p.line.toNat ≤ lines.length) :
    lineAt (p.linesUpTo lines) (p.line.toNat - 1) = p.textBefore lines := by
  have hlast := Span.lineAt_append_length (lines.take (p.line.toNat - 1)) (p.textBefore lines) []
  rwa [List.length_take, Nat.min_eq_left (by omega)] at hlast

theorem one_le_line_of_le (hq : 1 ≤ q.line.toNat) (hle : q ≤ p) : 1 ≤ p.line.toNat := by
  rw [Location.le_def] at hle
  omega

theorem extends_linesUpTo (h₁ : 1 ≤ p.line.toNat) (h : p.line.toNat ≤ lines.length) :
    Extends (p.linesUpTo lines) lines := by
  have := Span.extends_append_cons (lines.take (p.line.toNat - 1)) (lines.drop (p.line.toNat - 1 + 1))
    (p.textBefore lines) (dropBytes (byteOfOffset (lineAt lines (p.line.toNat - 1)) p.offset.toNat)
      (lineAt lines (p.line.toNat - 1)))
  rwa [textBefore, Text.takeBytes_append_dropBytes, Span.take_lineAt_drop (by omega)] at this

/-- The text before a location past the end of its line is the whole line. -/
theorem textBefore_of_past (h : p.Past lines) : p.textBefore lines = lineAt lines (p.line.toNat - 1) := by
  rw [Past] at h
  rw [textBefore, byteOfOffset, Text.boundaryAt_of_units_le (by omega), Text.takeBytes_byteSize]

/-- In lines that start as others do up to a location, the text before an earlier one is the same. Only where a line is
too short for both locations it may be longer. -/
theorem textBefore_extends (hx : Extends (p.linesUpTo lines) lines') (hp : p.line.toNat ≤ lines.length)
    (hq : 1 ≤ q.line.toNat) (hle : q ≤ p) :
    ∃ z, q.textBefore lines' = q.textBefore lines ++ z ∧
      (z = [] ∨ q.Past lines ∧ q.line = p.line ∧
        lineAt lines' (p.line.toNat - 1) ≠ lineAt lines (p.line.toNat - 1)) := by
  have hlen := length_linesUpTo hp
  have hx' := extends_linesUpTo (one_le_line_of_le hq hle) hp
  rcases Location.le_def.mp hle with hlt | ⟨heq, hoff⟩
  · have hline : lineAt lines' (q.line.toNat - 1) = lineAt lines (q.line.toNat - 1) := by
      rw [hx.lineAt_eq (by omega), hx'.lineAt_eq (by omega)]
    exact ⟨[], by rw [textBefore, hline, textBefore, List.append_nil], .inl rfl⟩
  obtain ⟨x, hline'⟩ := hx.line_eq (p.line.toNat - 1) (by omega)
  obtain ⟨y, hline⟩ := hx'.line_eq (p.line.toNat - 1) (by omega)
  rw [lineAt_linesUpTo hp] at hline' hline
  rcases Nat.lt_or_ge (units (p.textBefore lines)) (q.offset.toNat - 1) with hshort | hlong
  · -- The line is too short for `p` as well, so all of it comes before `p`, and what follows is new.
    have hpast : p.Past lines := by
      rcases Nat.lt_or_ge (units (lineAt lines (p.line.toNat - 1))) (p.offset.toNat - 1) with h | h
      · exact show _ < _ by omega
      · have := Text.le_units_takeBytes h
        rw [textBefore, byteOfOffset] at hshort
        omega
    rw [textBefore_of_past hpast] at hline' hshort
    have hqpast : q.Past lines := by
      rw [Past, heq]
      omega
    refine ⟨takeBytes (boundaryAt (q.offset.toNat - 1 - units (lineAt lines (p.line.toNat - 1))) x) x, ?_, ?_⟩
    · rw [textBefore_of_past hqpast, textBefore, byteOfOffset, heq, hline',
        Text.boundaryAt_append_right (Nat.le_of_lt hshort), Text.takeBytes_append_right]
    · by_cases hnil : x = []
      · exact .inl (by rw [hnil, Text.takeBytes_nil])
      · refine .inr ⟨hqpast, UInt32.toNat_inj.mp heq, fun he => hnil ?_⟩
        rw [hline'] at he
        exact List.append_right_eq_self.mp he
  · -- The location is in the part of the line that both have.
    have hb : ∀ ls t, lineAt ls (p.line.toNat - 1) = p.textBefore lines ++ t →
        q.textBefore ls = takeBytes (boundaryAt (q.offset.toNat - 1) (p.textBefore lines)) (p.textBefore lines) := by
      intro ls t ht
      rw [textBefore, byteOfOffset, heq, ht, Text.boundaryAt_append_left hlong,
        Text.takeBytes_append_left (Text.boundaryAt_le_byteSize _ _)]
    exact ⟨[], by rw [hb lines' x hline', hb lines y hline, List.append_nil], .inl rfl⟩

/-- In lines that start as others do up to a location, the lines up to an earlier one start as those of the others. -/
theorem linesUpTo_extends (hx : Extends (p.linesUpTo lines) lines') (hp : p.line.toNat ≤ lines.length)
    (hq : 1 ≤ q.line.toNat) (hle : q ≤ p) :
    ∃ z, q.linesUpTo lines' = lines.take (q.line.toNat - 1) ++ [q.textBefore lines ++ z] ∧
      (z = [] ∨ q.Past lines ∧ q.line = p.line ∧
        lineAt lines' (p.line.toNat - 1) ≠ lineAt lines (p.line.toNat - 1)) := by
  obtain ⟨z, hz, hcase⟩ := textBefore_extends hx hp hq hle
  have hlen := length_linesUpTo hp
  have hlt : q.line.toNat - 1 < (p.linesUpTo lines).length := by
    rcases Location.le_def.mp hle with h | h <;> omega
  refine ⟨z, ?_, hcase⟩
  rw [linesUpTo, hz, hx.take_eq _ hlt, (extends_linesUpTo (one_le_line_of_le hq hle) hp).take_eq _ hlt]

theorem extends_linesUpTo_of_le (hx : Extends (p.linesUpTo lines) lines') (hp : p.line.toNat ≤ lines.length)
    (hq : 1 ≤ q.line.toNat) (hle : q ≤ p) :
    Extends (q.linesUpTo lines) (q.linesUpTo lines') := by
  obtain ⟨z, hz, -⟩ := linesUpTo_extends hx hp hq hle
  rw [hz]
  exact Span.extends_append_cons _ [] _ z

end Location

theorem unlines_linesUpTo_append (lines : List Text) (p : Location) (z : Text) :
    unlines (lines.take (p.line.toNat - 1) ++ [p.textBefore lines ++ z]) = unlines (p.linesUpTo lines) ++ z := by
  rw [Text.unlines_append_cons, Text.unlines_singleton, Location.linesUpTo]

theorem Span.Extends.trans {ls ms ns : List Text} (h : Extends ls ms) (h' : Extends ms ns) : Extends ls ns where
  length_le := Nat.le_trans h.length_le h'.length_le
  take_eq i hi := (h'.take_eq i (Nat.lt_of_lt_of_le hi h.length_le)).trans (h.take_eq i hi)
  line_eq i hi := by
    obtain ⟨t, ht⟩ := h.line_eq i hi
    obtain ⟨u, hu⟩ := h'.line_eq i (Nat.lt_of_lt_of_le hi h.length_le)
    exact ⟨t ++ u, by rw [hu, ht, List.append_assoc]⟩

/-! ## One edit -/

variable {lines lines' : List Text} {p : Location} {d : TextEdit}

/-- What an edit covers lies between the lines up to its start and those up to its end. -/
theorem linesUpTo_coveredText (h : d.Placed lines) :
    unlines (d.start.linesUpTo lines) ++ coveredText lines d = unlines (d.stop.linesUpTo lines) := by
  obtain ⟨s, hs, hso, hsl, hel, hsb, heb⟩ := Span.resolve_of_placed h
  have hhead : s.head lines = unlines (d.start.linesUpTo lines) := by
    rw [Span.head, Span.upTo, hsb, hsl]
    rfl
  have hend : Span.upTo lines s.endLine s.endByte = unlines (d.stop.linesUpTo lines) := by
    rw [Span.upTo, heb, hel]
    rfl
  rw [coveredText, hs, ← hhead, ← hend]
  exact Span.head_text hso

/-- In lines that start as others do up to a location, an edit that ends there or before covers the same text, and
maybe more past the end of its last line. -/
theorem coveredText_extends (hx : Extends (p.linesUpTo lines) lines') (hp : p.line.toNat ≤ lines.length)
    (hd : d.Placed lines) (hle : d.stop ≤ p) :
    d.Placed lines' ∧ ∃ z, coveredText lines' d = coveredText lines d ++ z ∧
      (z = [] ∨ d.start ≠ d.stop ∧ d.stop.Past lines ∧ d.endLine = p.line ∧
        lineAt lines' (p.line.toNat - 1) ≠ lineAt lines (p.line.toNat - 1)) := by
  have hstart : d.start ≤ p := Location.le_trans hd.forward hle
  have hlines : d.startLine.toNat ≤ d.endLine.toNat ∧ d.endLine.toNat ≤ p.line.toNat := by
    have h₁ := Location.le_def.mp hd.forward
    have h₂ := Location.le_def.mp hle
    simp only [TextEdit.start, TextEdit.stop] at h₁ h₂
    omega
  have hlen : p.line.toNat ≤ lines'.length := by
    have := hx.length_le
    rw [Location.length_linesUpTo hp] at this
    omega
  have hd' : d.Placed lines' :=
    ⟨hd.forward, ⟨hd.start_line.1, by omega⟩, hd.stop_line.1, by omega⟩
  refine ⟨hd', ?_⟩
  obtain ⟨y, hy, hycase⟩ := Location.linesUpTo_extends hx hp hd.start_line.1 hstart
  obtain ⟨z, hz, hzcase⟩ := Location.linesUpTo_extends hx hp hd.stop_line.1 hle
  have hcovered := linesUpTo_coveredText hd
  have hcovered' := linesUpTo_coveredText hd'
  rw [hy, hz, unlines_linesUpTo_append, unlines_linesUpTo_append, ← hcovered, List.append_assoc, List.append_assoc,
    List.append_cancel_left_eq] at hcovered'
  by_cases hne : d.start = d.stop
  · have hnil : ∀ ls, d.Placed ls → coveredText ls d = [] := by
      intro ls h
      have := linesUpTo_coveredText h
      rw [hne] at this
      exact List.append_right_eq_self.mp this
    exact ⟨[], by rw [hnil _ hd, hnil _ hd', List.append_nil], .inl rfl⟩
  rcases hycase with rfl | ⟨hpast, hline, hdiff⟩
  · exact ⟨z, hcovered', hzcase.imp_right fun hmore => ⟨hne, hmore⟩⟩
  · -- All of the edit lies past the end of its line, where it covers nothing.
    have hend : d.endLine = d.startLine := by
      have : d.startLine.toNat = p.line.toNat := congrArg UInt32.toNat hline
      exact UInt32.toNat_inj.mp (by omega)
    have hpast' : d.stop.Past lines := by
      have hforward := Location.le_def.mp hd.forward
      simp only [Location.Past, TextEdit.start, TextEdit.stop, hend] at hpast hforward ⊢
      omega
    have hsame : d.start.linesUpTo lines = d.stop.linesUpTo lines := by
      rw [Location.linesUpTo, Location.linesUpTo, Location.textBefore_of_past hpast, Location.textBefore_of_past hpast',
        TextEdit.start, TextEdit.stop, hend]
    rw [hsame] at hcovered
    have hnil : coveredText lines d = [] := List.append_right_eq_self.mp hcovered
    exact ⟨coveredText lines' d, by rw [hnil, List.nil_append], .inr ⟨hne, hpast', hend.trans hline, hdiff⟩⟩

/-- An edit leaves the lines up to its start. -/
theorem applyEdit_extends (hl : ∀ l ∈ lines, '\n' ∉ l) (hd : d.Placed lines) :
    ∃ result, applyEdit lines d = .ok result ∧ (∀ l ∈ result, '\n' ∉ l) ∧ Extends (d.start.linesUpTo lines) result := by
  obtain ⟨s, hs, hso, hsl, -, hsb, -⟩ := Span.resolve_of_placed hd
  have hbefore : s.linesBefore lines = d.start.linesUpTo lines := by
    rw [Span.linesBefore, Span.before, hsb, hsl]
    rfl
  have hlt := Nat.lt_of_le_of_lt hso.lines_le hso.endLine_lt
  have hcut := Span.isLines_linesBefore hl hlt
  refine ⟨_, by rw [applyEdit, hs], ?_, ?_⟩
  · rw [Span.replace_eq hl]
    exact (Text.isLines_lines _).no_newline
  · rw [Span.replace_eq hl, List.append_assoc, ← Span.unlines_linesBefore, ← hbefore]
    exact Span.extends_lines hcut _

/-- In lines that start as others do up to a location, an edit that ends there or before can be applied, and leaves
lines that start as the others do up to its start. -/
theorem applyEdit_of_extends (hl : ∀ l ∈ lines', '\n' ∉ l) (hd : d.Placed lines) (hx : Extends (p.linesUpTo lines) lines')
    (hp : p.line.toNat ≤ lines.length) (hle : d.stop ≤ p) :
    ∃ next, applyEdit lines' d = .ok next ∧ (∀ l ∈ next, '\n' ∉ l) ∧ Extends (d.start.linesUpTo lines) next := by
  obtain ⟨hd', -⟩ := coveredText_extends hx hp hd hle
  obtain ⟨next, hnext, hnl, hxnext⟩ := applyEdit_extends hl hd'
  have hstart := Location.le_trans hd.forward hle
  exact ⟨next, hnext, hnl, (Location.extends_linesUpTo_of_le hx hp hd.start_line.1 hstart).trans hxnext⟩

/-! ## All edits -/

namespace TextEdit

/-- An edit that covers something and ends past the end of the line that another edit, not before it, starts in. -/
def Overruns (lines : List Text) (edits : List TextEdit) (d : TextEdit) : Prop :=
  d.start ≠ d.stop ∧ d.stop.Past lines ∧ ∃ e ∈ edits, e.startLine = d.endLine ∧ d.stop ≤ e.start

instance (lines : List Text) (edits : List TextEdit) (d : TextEdit) : Decidable (Overruns lines edits d) :=
  inferInstanceAs (Decidable (_ ∧ _ ∧ ∃ e ∈ edits, _))

/-- What an edit removes is what it covers in the given lines, and more only if it overruns its line. -/
def Removes (lines : List Text) (edits : List TextEdit) (d : TextEdit) (removed : Text) : Prop :=
  ∃ z, removed = coveredText lines d ++ z ∧ (z = [] ∨ d.Overruns lines edits)

end TextEdit

/-- Edits from the last to the first, applied to lines that start as the given ones do up to a location: the end of
one of them, or the start of an edit that was applied before. -/
theorem removes_of_extends {edits es : List TextEdit} (hl : ∀ l ∈ lines', '\n' ∉ l) (hd : ∀ d ∈ es, d.Placed lines)
    (hs : es.Pairwise fun a b => b.stop ≤ a.start) (hx : Extends (p.linesUpTo lines) lines')
    (hp : p.line.toNat ≤ lines.length) (hle : ∀ d ∈ es, d.stop ≤ p) (hmem : ∀ d ∈ es, d ∈ edits)
    (hline : lineAt lines' (p.line.toNat - 1) = lineAt lines (p.line.toNat - 1) ∨ ∃ e ∈ edits, e.start = p) :
    (∃ result, applyEdits lines' es = .ok result) ∧
      List.Forall₂ (TextEdit.Removes lines edits) es (removedTexts lines' es) := by
  induction es generalizing lines' p with
  | nil => exact ⟨⟨lines', rfl⟩, .nil⟩
  | cons d es ih =>
    obtain ⟨hdd, hdes⟩ := List.forall_mem_cons.mp hd
    obtain ⟨hsd, hses⟩ := List.pairwise_cons.mp hs
    obtain ⟨hld, -⟩ := List.forall_mem_cons.mp hle
    obtain ⟨hmd, hmes⟩ := List.forall_mem_cons.mp hmem
    obtain ⟨-, z, hz, hcase⟩ := coveredText_extends hx hp hdd hld
    obtain ⟨next, hnext, hnl, hxd⟩ := applyEdit_of_extends hl hdd hx hp hld
    obtain ⟨hok, hremoves⟩ := ih hnl hdes hses hxd hdd.start_line.2 hsd hmes (.inr ⟨d, hmd, rfl⟩)
    rw [applyEdits, removedTexts, hnext]
    refine ⟨hok, .cons ⟨z, hz, hcase.imp_right ?_⟩ hremoves⟩
    rintro ⟨hne, hpast, hend, hdiff⟩
    obtain ⟨e, he, rfl⟩ := hline.resolve_left hdiff
    exact ⟨hne, hpast, e, he, hend.symm, hld⟩

theorem eq_map_of_removes {edits es : List TextEdit} {removed : List Text}
    (h : List.Forall₂ (TextEdit.Removes lines edits) es removed) (hno : ∀ e ∈ es, ¬ e.Overruns lines edits) :
    removed = es.map (coveredText lines) := by
  induction h with
  | nil => rfl
  | @cons e r es removed he _ ih =>
    obtain ⟨hnoe, hnoes⟩ := List.forall_mem_cons.mp hno
    obtain ⟨z, rfl, hcase⟩ := he
    rw [hcase.resolve_right hnoe, List.append_nil, ih hnoes, List.map_cons]

/-- Nothing lies behind the end of the edit that comes first. -/
theorem stop_le_of_pairwise {e : TextEdit} {es : List TextEdit} (he : e.start ≤ e.stop)
    (hs : (e :: es).Pairwise fun a b => b.stop ≤ a.start) : ∀ d ∈ e :: es, d.stop ≤ e.stop := by
  refine List.forall_mem_cons.mpr ⟨Location.le_def.mpr (by omega), fun d hd => ?_⟩
  exact Location.le_trans ((List.pairwise_cons.mp hs).1 d hd) he

/-- Sorted edits between lines that are there, that run forward and lie apart, remove texts that begin with what their
log says. An edit removes nothing more unless it overruns the line that another starts in; so the log is exact if none of
them does. -/
theorem removedTexts_logged {lines : List Text} {edits : List TextEdit} (path : Path) (hl : ∀ l ∈ lines, '\n' ∉ l)
    (hd : ∀ e ∈ edits, e.Placed lines) (ha : edits.Pairwise TextEdit.Apart) :
    (∃ result, applyEdits lines (sortEdits edits) = .ok result) ∧
      List.Forall₂ (TextEdit.Removes lines edits) (sortEdits edits) (removedTexts lines (sortEdits edits)) ∧
      List.Forall₂ (fun entry removed => entry.oldText <+: removed)
        (changeRecord lines (sortEdits edits) path).entries (removedTexts lines (sortEdits edits)) ∧
      ((∀ e ∈ edits, ¬ e.Overruns lines edits) →
        removedTexts lines (sortEdits edits) = (changeRecord lines (sortEdits edits) path).entries.map (·.oldText)) := by
  have hmem : ∀ e ∈ sortEdits edits, e ∈ edits := fun e he => (sortEdits_perm edits).mem_iff.mp he
  have hremoves : (∃ result, applyEdits lines (sortEdits edits) = .ok result) ∧
      List.Forall₂ (TextEdit.Removes lines edits) (sortEdits edits) (removedTexts lines (sortEdits edits)) := by
    have hs := pairwise_stop_le (fun e he => (hd e he).forward) ha
    cases hsort : sortEdits edits with
    | nil => exact ⟨⟨lines, rfl⟩, .nil⟩
    | cons e es =>
      rw [hsort] at hmem hs
      have he := hd e (hmem e List.mem_cons_self)
      exact removes_of_extends (p := e.stop) hl (fun d h => hd d (hmem d h)) hs
        (Location.extends_linesUpTo he.stop_line.1 he.stop_line.2) he.stop_line.2 (stop_le_of_pairwise he.forward hs) hmem
        (.inl rfl)
  obtain ⟨hok, hremoves⟩ := hremoves
  refine ⟨hok, hremoves, ?_, fun hno => ?_⟩
  · rw [changeRecord, List.forall₂_map_left_iff]
    refine hremoves.imp fun e removed he => ?_
    obtain ⟨z, hz, -⟩ := he
    exact ⟨z, hz.symm⟩
  · rw [eq_map_of_removes hremoves fun e he => hno e (hmem e he), changeRecord, List.map_map]
    rfl

/-- Edits past the ends of two lines, and none that overruns. -/
theorem removedTexts_logged_clamped :
    let lines : List Text := [['a', 'b', 'c'], ['d', '😀']]
    let edits : List TextEdit := [⟨1, 2, 1, 99, ['Z']⟩, ⟨2, 9, 2, 9, ['!', '\n']⟩, ⟨2, 1, 2, 3, ['D']⟩]
    ((∀ l ∈ lines, '\n' ∉ l) ∧ (∀ e ∈ edits, e.Placed lines) ∧ edits.Pairwise TextEdit.Apart ∧
      ∀ e ∈ edits, ¬ e.Overruns lines edits) ∧
      List.Forall₂ (TextEdit.Removes lines edits) (sortEdits edits) (removedTexts lines (sortEdits edits)) ∧
      removedTexts lines (sortEdits edits) =
        (changeRecord lines (sortEdits edits) ⟨"a.ts"⟩).entries.map (·.oldText) := by
  intro lines edits
  have hl : ∀ l ∈ lines, '\n' ∉ l := by decide
  have hd : ∀ e ∈ edits, e.Placed lines := by decide
  have ha : edits.Pairwise TextEdit.Apart := by decide
  have hno : ∀ e ∈ edits, ¬ e.Overruns lines edits := by decide
  obtain ⟨-, hremoves, -, hexact⟩ := removedTexts_logged ⟨"a.ts"⟩ hl hd ha
  exact ⟨⟨hl, hd, ha, hno⟩, hremoves, hexact hno⟩

/-- Text put behind the end of a line is removed with the rest of the line by an edit that ends as far on, and its log
does not tell. -/
theorem removedTexts_overrun :
    let lines : List Text := [['a', 'b', 'c']]
    let edits : List TextEdit := [⟨1, 2, 1, 10, []⟩, ⟨1, 10, 1, 10, ['X', 'Y', 'Z']⟩]
    ((∀ l ∈ lines, '\n' ∉ l) ∧ (∀ e ∈ edits, e.Placed lines) ∧ edits.Pairwise TextEdit.Apart) ∧
      removedTexts lines (sortEdits edits) ≠
        (changeRecord lines (sortEdits edits) ⟨"a.ts"⟩).entries.map (·.oldText) ∧
      applyEdits lines (sortEdits edits) = .ok [['a']] := by
  intro lines edits
  let sorted : List TextEdit := [⟨1, 10, 1, 10, ['X', 'Y', 'Z']⟩, ⟨1, 2, 1, 10, []⟩]
  have hsort : sortEdits edits = sorted := List.mergeSort_of_pairwise (by decide)
  have hremoved : removedTexts lines sorted = [[], ['b', 'c', 'X', 'Y', 'Z']] := by decide
  have hlogged : (changeRecord lines sorted ⟨"a.ts"⟩).entries.map (·.oldText) = [[], ['b', 'c']] := by decide
  have hresult : applyEdits lines sorted = .ok [['a']] := by decide
  rw [hsort, hremoved, hlogged, hresult]
  exact ⟨⟨by decide, by decide, by decide⟩, by decide, rfl⟩

end Refactor
