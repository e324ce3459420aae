import Refactor.Proofs.Removals

/-!
# Edits that are refused

Edits are refused together as soon as one of them, in its turn, does not fit the lines that the ones before it left. An
edit that has no place in the lines as they were may find one then, but only where edits get in the way of each other:
edits that lie apart cannot make room for it.

* `TextEdit.Refused`, `applyEdits_error_iff`: when applying edits fails;
* `TextEdit.Misplaced`, `resolve_error_iff`: edits without a place in the lines;
* `applyEdits_extends`: edits that are applied leave the lines up to the first of them;
* `refused_of_apart`: edits that lie apart are refused if one of them is misplaced in the lines as they were;
* `misplaced_edit_accepted`: of edits that overlap this is not so.
-/

namespace Refactor

open Refactor.Span (lineAt byteOfOffset Extends)

/-! ## Refusals -/

namespace TextEdit

/-- One of the edits, in its turn, does not fit the lines that the ones before it left. -/
def Refused (lines : List Text) (edits : List TextEdit) : Prop :=
  ∃ before e after current err, edits = before ++ e :: after ∧ applyEdits lines before = .ok current ∧
    Span.resolve current e = .error err

/-- An edit without a place in the lines: a line of it is not there, or it ends before it starts. -/
def Misplaced (lines : List Text) (e : TextEdit) : Prop :=
  ¬ (1 ≤ e.startLine.toNat ∧ e.startLine.toNat ≤ lines.length ∧ 1 ≤ e.endLine.toNat ∧ e.endLine.toNat ≤ lines.length) ∨
    e.endLine.toNat < e.startLine.toNat ∨
    e.startLine.toNat = e.endLine.toNat ∧
      byteOfOffset (lineAt lines (e.endLine.toNat - 1)) e.endOffset.toNat <
        byteOfOffset (lineAt lines (e.startLine.toNat - 1)) e.startOffset.toNat

instance (lines : List Text) (e : TextEdit) : Decidable (Misplaced lines e) :=
  inferInstanceAs (Decidable (¬ (_ ∧ _ ∧ _ ∧ _) ∨ _ < _ ∨ _ ∧ _ < _))

end TextEdit

theorem applyEdits_error_iff {lines : List Text} {edits : List TextEdit} :
    (∃ err, applyEdits lines edits = .error err) ↔ TextEdit.Refused lines edits := by
  induction edits generalizing lines with
  | nil =>
    constructor
    · rintro ⟨err, h⟩
      cases h
    · rintro ⟨before, e, after, _, _, h, -⟩
      cases before <;> cases h
  | cons e es ih =>
    rw [applyEdits]
    cases hr : Span.resolve lines e with
    | error err =>
      have he : applyEdit lines e = .error err := by rw [applyEdit, hr]
      rw [he]
      exact ⟨fun _ => ⟨[], e, es, lines, err, rfl, rfl, hr⟩, fun _ => ⟨err, rfl⟩⟩
    | ok s =>
      have he : applyEdit lines e = .ok (s.replace lines e.newText) := by rw [applyEdit, hr]
      rw [he]
      refine ih.trans ⟨?_, ?_⟩ <;> rintro ⟨before, e', after, current, err, hes, hb, hr'⟩
      · refine ⟨e :: before, e', after, current, err, by rw [hes]; rfl, ?_, hr'⟩
        rw [applyEdits, he]
        exact hb
      · cases before with
        | nil =>
          cases hes
          cases hb
          rw [hr] at hr'
          cases hr'
        | cons e₀ before =>
          cases hes
          rw [applyEdits, he] at hb
          exact ⟨before, e', after, current, err, rfl, hb, hr'⟩

theorem resolve_error_iff {lines : List Text} {e : TextEdit} :
    (∃ err, Span.resolve lines e = .error err) ↔ e.Misplaced lines := by
  simp only [Span.resolve, TextEdit.Misplaced]
  split
  · rename_i h
    exact iff_of_true ⟨_, rfl⟩ (.inl h)
  rename_i hinside
  split
  · rename_i h
    exact iff_of_true ⟨_, rfl⟩ (.inr (.inl h))
  rename_i hlines
  split
  · rename_i h
    exact iff_of_true ⟨_, rfl⟩ (.inr (.inr h))
  · rename_i hoffsets
    refine iff_of_false ?_ (not_or.mpr ⟨hinside, not_or.mpr ⟨hlines, hoffsets⟩⟩)
    rintro ⟨err, herr⟩
    cases herr

/-! ## Edits that are applied -/

variable {lines lines' : List Text} {p : Location} {e : TextEdit} {es edits : List TextEdit}

theorem TextEdit.placed_of_not_misplaced (h : ¬ e.Misplaced lines) (hf : e.start ≤ e.stop) : e.Placed lines := by
  rw [TextEdit.Misplaced, not_or, not_not] at h
  obtain ⟨⟨hs₁, hs₂, he₁, he₂⟩, -⟩ := h
  exact ⟨hf, ⟨hs₁, hs₂⟩, he₁, he₂⟩

/-- Edits from the last to the first leave the lines up to every location before them. -/
theorem applyEdits_of_extends (hl : ∀ l ∈ lines', '\n' ∉ l) (hd : ∀ d ∈ es, d.Placed lines)
    (hs : es.Pairwise fun a b => b.stop ≤ a.start) (hx : Extends (p.linesUpTo lines) lines')
    (hp : p.line.toNat ≤ lines.length) (hle : ∀ d ∈ es, d.stop ≤ p) :
    ∃ result, applyEdits lines' es = .ok result ∧
      ∀ q : Location, 1 ≤ q.line.toNat → q ≤ p → (∀ d ∈ es, q ≤ d.start) → Extends (q.linesUpTo lines) result := by
  induction es generalizing lines' p with
  | nil =>
    refine ⟨lines', rfl, fun q hq hqp _ => ?_⟩
    have hlen := hx.length_le
    rw [Location.length_linesUpTo hp] at hlen
    have hline := Location.le_def.mp hqp
    exact (Location.extends_linesUpTo_of_le hx hp hq hqp).trans (Location.extends_linesUpTo hq (by omega))
  | cons d es ih =>
    obtain ⟨hdd, hdes⟩ := List.forall_mem_cons.mp hd
    obtain ⟨hsd, hses⟩ := List.pairwise_cons.mp hs
    obtain ⟨hld, -⟩ := List.forall_mem_cons.mp hle
    obtain ⟨next, hnext, hnl, hxd⟩ := applyEdit_of_extends hl hdd hx hp hld
    obtain ⟨result, hresult, hbefore⟩ := ih hnl hdes hses hxd hdd.start_line.2 hsd
    refine ⟨result, by rw [applyEdits, hnext]; exact hresult, fun q hq _ hqs => ?_⟩
    obtain ⟨hqd, hqes⟩ := List.forall_mem_cons.mp hqs
    exact hbefore q hq hqd hqes

theorem applyEdits_extends (hl : ∀ l ∈ lines, '\n' ∉ l) (hd : ∀ d ∈ es, d.Placed lines)
    (hs : es.Pairwise fun a b => b.stop ≤ a.start) :
    ∃ result, applyEdits lines es = .ok result ∧ ∀ q : Location, 1 ≤ q.line.toNat → q.line.toNat ≤ lines.length →
      (∀ d ∈ es, q ≤ d.start) → Extends (q.linesUpTo lines) result := by
  cases es with
  | nil => exact ⟨lines, rfl, fun q hq hqn _ => Location.extends_linesUpTo hq hqn⟩
  | cons d es =>
    obtain ⟨hdd, -⟩ := List.forall_mem_cons.mp hd
    obtain ⟨result, hresult, hbefore⟩ := applyEdits_of_extends hl hd hs
      (Location.extends_linesUpTo hdd.stop_line.1 hdd.stop_line.2) hdd.stop_line.2 (stop_le_of_pairwise hdd.forward hs)
    refine ⟨result, hresult, fun q hq _ hqs => hbefore q hq ?_ hqs⟩
    exact Location.le_trans (hqs d List.mem_cons_self) hdd.forward

/-! ## Misplaced edits -/

theorem Location.byteSize_textBefore (p : Location) (lines : List Text) :
    Text.byteSize (p.textBefore lines) = byteOfOffset (lineAt lines (p.line.toNat - 1)) p.offset.toNat :=
  Text.byteSize_takeBytes_boundaryAt _ _

/-- An edit that ends before it starts in its line still does in lines that are the same up to its start. -/
theorem TextEdit.offsetsReversed_of_extends (hx : Extends (e.start.linesUpTo lines) lines')
    (hstart : 1 ≤ e.startLine.toNat ∧ e.startLine.toNat ≤ lines.length) (hline : e.startLine.toNat = e.endLine.toNat)
    (h : byteOfOffset (lineAt lines (e.endLine.toNat - 1)) e.endOffset.toNat <
      byteOfOffset (lineAt lines (e.startLine.toNat - 1)) e.startOffset.toNat) :
    byteOfOffset (lineAt lines' (e.endLine.toNat - 1)) e.endOffset.toNat <
      byteOfOffset (lineAt lines' (e.startLine.toNat - 1)) e.startOffset.toNat := by
  have hoffset : e.endOffset.toNat < e.startOffset.toNat := by
    refine Nat.lt_of_not_le fun hle => ?_
    have hmono := Text.boundaryAt_mono (Nat.sub_le_sub_right hle 1) (lineAt lines (e.startLine.toNat - 1))
    rw [← hline] at h
    exact absurd h (Nat.not_lt_of_le hmono)
  have hle : e.stop ≤ e.start := Location.le_def.mpr (.inr ⟨hline.symm, Nat.le_of_lt hoffset⟩)
  have hself : e.start ≤ e.start := Location.le_def.mpr (.inr ⟨rfl, Nat.le_refl _⟩)
  obtain ⟨y, hy, -⟩ := Location.textBefore_extends hx hstart.2 hstart.1 hself
  obtain ⟨z, hz, hcase⟩ := Location.textBefore_extends hx hstart.2 (hline ▸ hstart.1) hle
  -- The end is not past its line, since there is more of the line before the start.
  have hnil : z = [] := by
    refine hcase.resolve_right fun hpast => ?_
    have hunits : Text.units (lineAt lines (e.endLine.toNat - 1)) + 1 < e.endOffset.toNat := hpast.1
    have hend : byteOfOffset (lineAt lines (e.endLine.toNat - 1)) e.endOffset.toNat =
        Text.byteSize (lineAt lines (e.endLine.toNat - 1)) := Text.boundaryAt_of_units_le (by omega)
    rw [hend, ← hline] at h
    exact absurd h (Nat.not_lt_of_le (Text.boundaryAt_le_byteSize _ _))
  have hbefore := e.stop.byteSize_textBefore lines'
  have hbefore' := e.start.byteSize_textBefore lines'
  rw [hz, hnil, List.append_nil, Location.byteSize_textBefore] at hbefore
  rw [hy, Text.byteSize_append, Location.byteSize_textBefore] at hbefore'
  simp only [TextEdit.start, TextEdit.stop] at hbefore hbefore'
  omega

/-- An edit before one that has a place is misplaced in lines that are the same up to its start, if it was before. -/
theorem TextEdit.Misplaced.of_extends {d : TextEdit} (h : e.Misplaced lines) (hd : d.Placed lines)
    (hstart : e.start ≤ d.start) (hstop : e.stop ≤ d.start)
    (hx : 1 ≤ e.startLine.toNat → e.startLine.toNat ≤ lines.length → Extends (e.start.linesUpTo lines) lines') :
    e.Misplaced lines' := by
  have hline := hd.start_line
  rw [Location.le_def] at hstart hstop
  simp only [TextEdit.start, TextEdit.stop] at hstart hstop
  rcases h with hout | hlines | ⟨heq, hoffsets⟩
  · exact .inl (by omega)
  · exact .inr (.inl hlines)
  · by_cases hzero : e.startLine.toNat = 0
    · exact .inl (by omega)
    · have hin : 1 ≤ e.startLine.toNat ∧ e.startLine.toNat ≤ lines.length := by omega
      exact .inr (.inr ⟨heq, TextEdit.offsetsReversed_of_extends (hx hin.1 hin.2) hin heq hoffsets⟩)

theorem exists_first_misplaced (h : ∃ d ∈ es, d.Misplaced lines) : ∃ before e after, es = before ++ e :: after ∧
    (∀ d ∈ before, ¬ d.Misplaced lines) ∧ e.Misplaced lines := by
  obtain ⟨d, hd, hdm⟩ := h
  have hfound : (es.find? fun c => c.Misplaced lines).isSome = true :=
    List.find?_isSome.mpr ⟨d, hd, by simpa using hdm⟩
  obtain ⟨e, he⟩ := Option.isSome_iff_exists.mp hfound
  obtain ⟨hem, before, after, hsplit, hnot⟩ := List.find?_eq_some_iff_append.mp he
  exact ⟨before, e, after, hsplit, fun c hc => by simpa using hnot c hc, by simpa using hem⟩

/-- Edits that lie apart are refused if one of them has no place in the lines as they were. Edits that are not misplaced
have to run forward: past the end of a line an edit can run backward and still have a place. -/
theorem refused_of_apart (hl : ∀ l ∈ lines, '\n' ∉ l) (ha : edits.Pairwise TextEdit.Apart)
    (hf : ∀ d ∈ edits, d.Misplaced lines ∨ d.start ≤ d.stop) (hmis : ∃ d ∈ edits, d.Misplaced lines) :
    TextEdit.Refused lines (sortEdits edits) := by
  have hmem : ∀ d, d ∈ sortEdits edits ↔ d ∈ edits := fun d => (sortEdits_perm edits).mem_iff
  -- The first misplaced edit is the one that is refused.
  obtain ⟨before, e, after, hsplit, hbefore, he⟩ : ∃ before e after, sortEdits edits = before ++ e :: after ∧
      (∀ d ∈ before, ¬ d.Misplaced lines) ∧ e.Misplaced lines :=
    exists_first_misplaced (hmis.imp fun d hd => hd.imp_left (hmem d).mpr)
  have hplaced : ∀ d ∈ before, d.Placed lines := by
    intro d hd
    have hd' : d ∈ edits := (hmem d).mp (by simp [hsplit, hd])
    exact TextEdit.placed_of_not_misplaced (hbefore d hd) ((hf d hd').resolve_left (hbefore d hd))
  have hrank := pairwise_sortEdits edits
  have hapart := pairwise_apart_sortEdits ha
  rw [hsplit, List.pairwise_append] at hrank hapart
  have hstop : before.Pairwise fun a b => b.stop ≤ a.start := by
    refine (hrank.1.and hapart.1).imp_of_mem fun {a b} hma _ hab => ?_
    exact hab.2.stop_le hab.1 (hplaced a hma).forward
  have hstart : ∀ d ∈ before, e.start ≤ d.start ∧ e.stop ≤ d.start := by
    intro d hd
    have hr := hrank.2.2 d hd e List.mem_cons_self
    exact ⟨(TextEdit.rank_le_iff.mp hr).1, (hapart.2.2 d hd e List.mem_cons_self).stop_le hr (hplaced d hd).forward⟩
  obtain ⟨current, hcurrent, hx⟩ := applyEdits_extends hl hplaced hstop
  have hcurrent' : e.Misplaced current := by
    cases before with
    | nil =>
      cases hcurrent
      exact he
    | cons d before =>
      obtain ⟨hes, hee⟩ := hstart d List.mem_cons_self
      exact he.of_extends (hplaced d List.mem_cons_self) hes hee fun h₁ h₂ => hx e.start h₁ h₂ fun c hc => (hstart c hc).1
  obtain ⟨err, herr⟩ := resolve_error_iff.mpr hcurrent'
  exact ⟨before, e, after, current, err, hsplit, hcurrent, herr⟩

/-- An edit over more lines than there are is accepted after one inside it that makes the lines. -/
theorem misplaced_edit_accepted :
    let lines : List Text := [['a', 'b']]
    let edits : List TextEdit := [⟨1, 1, 3, 1, []⟩, ⟨1, 3, 1, 3, ['\n', '\n']⟩]
    ((∃ e ∈ edits, e.Misplaced lines) ∧ (∀ e ∈ edits, e.start ≤ e.stop) ∧ ¬ edits.Pairwise TextEdit.Apart) ∧
      applyEdits lines (sortEdits edits) = .ok [[]] := by
  intro lines edits
  have hsort : sortEdits edits = [⟨1, 3, 1, 3, ['\n', '\n']⟩, ⟨1, 1, 3, 1, []⟩] := List.mergeSort_of_pairwise (by decide)
  rw [hsort]
  exact ⟨by decide, by decide⟩

end Refactor
