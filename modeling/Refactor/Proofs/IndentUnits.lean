import Mathlib.Data.List.Basic
import Refactor.Indent

/-!
# Indent units

The unit of a file is the step between the indentations of consecutive lines that occurs most often, and the first
one where several do.

* `Leads`, `Extends`, `Steps`: indentations and steps between them, said without computing them;
* `Tallied`: counts of steps that are kept in no order, as a map keeps them; `Counts`: what they say;
* `MostFrequent`: the unit, which the best of the counts is (`unitOf_mostFrequent`);
* `Reworded`: files with the same indentations;
* `indentUnit_detects`: all of it for the unit of a file.
-/

namespace Refactor.Indent

/-! ## Steps -/

/-- A line starts with an indentation, and goes on with something else. -/
def Leads (indent line : Text) : Prop :=
  (∀ c ∈ indent, c = ' ' ∨ c = '\t') ∧
    ∃ rest, line = indent ++ rest ∧ ∀ c, rest.head? = some c → ¬ (c = ' ' ∨ c = '\t')

theorem isIndent_iff {c : Char} : isIndent c = true ↔ c = ' ' ∨ c = '\t' := by
  rw [isIndent, Bool.or_eq_true, beq_iff_eq, beq_iff_eq]

theorem leads_iff {indent line : Text} : Leads indent line ↔ indent = leading line := by
  constructor
  · rintro ⟨hindent, rest, rfl, hrest⟩
    rw [leading, List.takeWhile_append_of_pos fun c hc => isIndent_iff.mpr (hindent c hc)]
    cases rest with
    | nil => exact (List.append_nil indent).symm
    | cons c rest =>
      have hc : ¬ isIndent c = true := fun h => hrest c rfl (isIndent_iff.mp h)
      rw [List.takeWhile_cons_of_neg hc, List.append_nil]
  · rintro rfl
    refine ⟨fun c hc => ?_, line.dropWhile isIndent, List.takeWhile_append_dropWhile.symm, fun c hc h => ?_⟩
    · exact isIndent_iff.mp (List.all_eq_true.mp List.all_takeWhile c hc)
    · have hnot := List.head?_dropWhile_not isIndent line
      rw [hc] at hnot
      exact Bool.false_ne_true (hnot.symm.trans (isIndent_iff.mpr h))

/-- One of two indentations is the other with something added. -/
def Extends (a b added : Text) : Prop := added ≠ [] ∧ (b = a ++ added ∨ a = b ++ added)

theorem added_iff {a b s : Text} :
    (if a.isPrefixOf b then some (b.drop a.length) else none) = some s ↔ b = a ++ s := by
  by_cases h : a <+: b
  · obtain ⟨t, rfl⟩ := h
    rw [if_pos (List.isPrefixOf_iff_prefix.mpr (List.prefix_append a t)), List.drop_left, Option.some.injEq,
      List.append_cancel_left_eq]
  · rw [if_neg fun hp => h (List.isPrefixOf_iff_prefix.mp hp)]
    refine iff_of_false (Option.some_ne_none s).symm fun hb => h ?_
    rw [hb]
    exact List.prefix_append a s

theorem step?_eq_some_iff {a b s : Text} : step? a b = some s ↔ Extends a b s := by
  have hlen : ∀ {x y : Text}, y = x ++ s → y.length = x.length + s.length := by
    rintro x y rfl
    exact List.length_append
  have hne : s ≠ [] ↔ 0 < s.length := List.length_pos_iff.symm
  unfold step? Extends
  split
  · rename_i hlt
    rw [added_iff]
    constructor
    · intro h
      have := hlen h
      exact ⟨hne.mpr (by omega), .inl h⟩
    · rintro ⟨-, h | h⟩
      · exact h
      · have := hlen h
        omega
  · split
    · rename_i hgt
      rw [added_iff]
      constructor
      · intro h
        have := hlen h
        exact ⟨hne.mpr (by omega), .inr h⟩
      · rintro ⟨-, h | h⟩
        · have := hlen h
          omega
        · exact h
    · refine iff_of_false (Option.some_ne_none s).symm ?_
      rintro ⟨hs, h⟩
      have hpos := hne.mp hs
      rcases h with h | h
      · have := hlen h
        omega
      · have := hlen h
        omega

/-- The steps between consecutive lines. -/
inductive Steps : List Text → List Text → Prop where
  | nil : Steps [] []
  | single (line : Text) : Steps [line] []
  | step {a b s line next : Text} {rest ss : List Text} (ha : Leads a line) (hb : Leads b next) (h : Extends a b s)
    (hrest : Steps (next :: rest) ss) : Steps (line :: next :: rest) (s :: ss)
  | none {a b line next : Text} {rest ss : List Text} (ha : Leads a line) (hb : Leads b next)
    (h : ∀ s, ¬ Extends a b s) (hrest : Steps (next :: rest) ss) : Steps (line :: next :: rest) ss

theorem steps_stepsBetween (lines : List Text) : Steps lines (stepsBetween (lines.map leading)) := by
  induction lines with
  | nil => exact .nil
  | cons line lines ih =>
    cases lines with
    | nil => exact .single line
    | cons next rest =>
      have ha : Leads (leading line) line := leads_iff.mpr rfl
      have hb : Leads (leading next) next := leads_iff.mpr rfl
      show Steps _ ((step? (leading line) (leading next)).toList ++ _)
      cases hstep : step? (leading line) (leading next) with
      | none =>
        refine .none ha hb (fun s hs => ?_) ih
        rw [step?_eq_some_iff.mpr hs] at hstep
        cases hstep
      | some s => exact .step ha hb (step?_eq_some_iff.mp hstep) ih

/-- Steps are made of spaces and tabs, since indentations are. -/
theorem indents_of_mem_steps {lines ss : List Text} (h : Steps lines ss) {s : Text} (hs : s ∈ ss) :
    s ≠ [] ∧ ∀ c ∈ s, c = ' ' ∨ c = '\t' := by
  induction h with
  | nil => cases hs
  | single line => cases hs
  | none _ _ _ _ ih => exact ih hs
  | @step a b s' _ _ _ _ ha hb h _ ih =>
    rcases List.mem_cons.mp hs with rfl | hs
    · refine ⟨h.1, fun c hc => ?_⟩
      rcases h.2 with hlong | hlong
      · exact hb.1 c (by rw [hlong]; exact List.mem_append_right _ hc)
      · exact ha.1 c (by rw [hlong]; exact List.mem_append_right _ hc)
    · exact ih hs

/-! ## Counts -/

/-- Counts of steps taken one by one, in whatever order the counts are kept meanwhile. -/
inductive Tallied : List Text → List Tally → Prop where
  | nil : Tallied [] []
  | step {ss : List Text} {ts : List Tally} (h : Tallied ss ts) (s : Text) : Tallied (ss ++ [s]) (tallyStep ts s)
  | perm {ss : List Text} {ts ts' : List Tally} (h : Tallied ss ts) (hperm : ts.Perm ts') : Tallied ss ts'

theorem tallied_foldl {taken : List Text} {ts : List Tally} (h : Tallied taken ts) (ss : List Text) :
    Tallied (taken ++ ss) (ss.foldl tallyStep ts) := by
  induction ss generalizing taken ts with
  | nil =>
    rw [List.append_nil]
    exact h
  | cons s ss ih =>
    rw [List.append_cons]
    exact ih (h.step s)

theorem tallied_tally (ss : List Text) : Tallied ss (tally ss) := tallied_foldl .nil ss

/-- Each step has one count, and the ranks of the counts are in the order in which the steps first occur. -/
structure Counts (ss : List Text) (ts : List Tally) : Prop where
  mem_iff : ∀ s, (∃ t ∈ ts, t.step = s) ↔ s ∈ ss
  count_eq : ∀ t ∈ ts, t.count = ss.count t.step
  seen_lt : ∀ t ∈ ts, t.seen < ts.length
  ranked : ∀ t ∈ ts, ∀ t' ∈ ts, ss.idxOf t.step < ss.idxOf t'.step → t.seen < t'.seen

theorem Counts.nil : Counts [] [] where
  mem_iff s := by simp
  count_eq t ht := absurd ht List.not_mem_nil
  seen_lt t ht := absurd ht List.not_mem_nil
  ranked t ht := absurd ht List.not_mem_nil

/-- What the counts say does not depend on their order. -/
theorem Counts.perm {ss : List Text} {ts ts' : List Tally} (h : Counts ss ts) (hperm : ts.Perm ts') : Counts ss ts' where
  mem_iff s := by
    rw [← h.mem_iff]
    exact exists_congr fun t => and_congr_left fun _ => hperm.mem_iff.symm
  count_eq t ht := h.count_eq t (hperm.mem_iff.mpr ht)
  seen_lt t ht := by
    rw [← hperm.length_eq]
    exact h.seen_lt t (hperm.mem_iff.mpr ht)
  ranked t ht t' ht' := h.ranked t (hperm.mem_iff.mpr ht) t' (hperm.mem_iff.mpr ht')

section

variable {ss : List Text} {ts : List Tally} {s : Text}

theorem Counts.any_iff (h : Counts ss ts) : ts.any (·.step == s) = true ↔ s ∈ ss := by
  rw [List.any_eq_true, ← h.mem_iff]
  exact exists_congr fun t => and_congr_right fun _ => beq_iff_eq

theorem Counts.step_mem (h : Counts ss ts) {t : Tally} (ht : t ∈ ts) : t.step ∈ ss := (h.mem_iff t.step).mp ⟨t, ht, rfl⟩

/-- One more of a step. -/
def Tally.bump (s : Text) (t : Tally) : Tally := if t.step = s then { t with count := t.count + 1 } else t

theorem Tally.bump_step (t : Tally) : (t.bump s).step = t.step := by
  unfold Tally.bump
  split <;> rfl

theorem Tally.bump_seen (t : Tally) : (t.bump s).seen = t.seen := by
  unfold Tally.bump
  split <;> rfl

theorem Tally.bump_count (t : Tally) : (t.bump s).count = t.count + [s].count t.step := by
  unfold Tally.bump
  rw [List.count_singleton]
  by_cases h : t.step = s
  · rw [if_pos h, if_pos (by rw [h]; exact beq_self_eq_true s)]
  · rw [if_neg h, if_neg fun hs => h (beq_iff_eq.mp hs).symm]
    rfl

/-- A step that occurred before is counted, and all ranks stay. -/
theorem Counts.known (h : Counts ss ts) (hs : s ∈ ss) : Counts (ss ++ [s]) (ts.map (Tally.bump s)) where
  mem_iff s' := by
    have hmem : s' ∈ ss ++ [s] ↔ s' ∈ ss := by
      rw [List.mem_append, List.mem_singleton]
      exact or_iff_left_of_imp fun heq => heq ▸ hs
    rw [hmem, ← h.mem_iff]
    constructor
    · rintro ⟨t, ht, rfl⟩
      obtain ⟨u, hu, rfl⟩ := List.mem_map.mp ht
      exact ⟨u, hu, u.bump_step.symm⟩
    · rintro ⟨u, hu, rfl⟩
      exact ⟨u.bump s, List.mem_map_of_mem hu, u.bump_step⟩
  count_eq t ht := by
    obtain ⟨u, hu, rfl⟩ := List.mem_map.mp ht
    rw [Tally.bump_count, Tally.bump_step, h.count_eq u hu, List.count_append]
  seen_lt t ht := by
    obtain ⟨u, hu, rfl⟩ := List.mem_map.mp ht
    rw [Tally.bump_seen, List.length_map]
    exact h.seen_lt u hu
  ranked t ht t' ht' := by
    obtain ⟨u, hu, rfl⟩ := List.mem_map.mp ht
    obtain ⟨u', hu', rfl⟩ := List.mem_map.mp ht'
    rw [Tally.bump_step, Tally.bump_step, Tally.bump_seen, Tally.bump_seen, List.idxOf_append, List.idxOf_append,
      if_pos (h.step_mem hu), if_pos (h.step_mem hu')]
    exact h.ranked u hu u' hu'

/-- A step that is new comes last in rank, as it does in the order of first occurrence. -/
theorem Counts.new (h : Counts ss ts) (hs : s ∉ ss) : Counts (ss ++ [s]) (ts ++ [⟨s, 1, ts.length⟩]) where
  mem_iff s' := by
    rw [List.mem_append, List.mem_singleton, ← h.mem_iff]
    constructor
    · rintro ⟨t, ht, rfl⟩
      rcases List.mem_append.mp ht with ht | ht
      · exact .inl ⟨t, ht, rfl⟩
      · rw [List.mem_singleton.mp ht]
        exact .inr rfl
    · rintro (⟨t, ht, rfl⟩ | rfl)
      · exact ⟨t, List.mem_append_left _ ht, rfl⟩
      · exact ⟨_, List.mem_append_right _ (List.mem_singleton.mpr rfl), rfl⟩
  count_eq t ht := by
    rw [List.count_append]
    rcases List.mem_append.mp ht with ht | ht
    · have hne : t.step ≠ s := fun heq => hs (heq ▸ h.step_mem ht)
      rw [h.count_eq t ht, List.count_eq_zero_of_not_mem fun hmem => hne (List.mem_singleton.mp hmem), Nat.add_zero]
    · rw [List.mem_singleton.mp ht]
      show 1 = ss.count s + [s].count s
      rw [List.count_eq_zero_of_not_mem hs, List.count_singleton_self]
  seen_lt t ht := by
    rw [List.length_append, List.length_singleton]
    rcases List.mem_append.mp ht with ht | ht
    · exact Nat.lt_succ_of_lt (h.seen_lt t ht)
    · rw [List.mem_singleton.mp ht]
      exact Nat.lt_succ_self _
  ranked t ht t' ht' := by
    have hnew : (ss ++ [s]).idxOf s = ss.length := by
      rw [List.idxOf_append, if_neg hs]
      simp
    have hold : ∀ u ∈ ts, (ss ++ [s]).idxOf u.step = ss.idxOf u.step ∧ ss.idxOf u.step < ss.length := by
      intro u hu
      rw [List.idxOf_append, if_pos (h.step_mem hu)]
      exact ⟨rfl, List.idxOf_lt_length_of_mem (h.step_mem hu)⟩
    rcases List.mem_append.mp ht with ht | ht
    · rcases List.mem_append.mp ht' with ht' | ht'
      · rw [(hold t ht).1, (hold t' ht').1]
        exact h.ranked t ht t' ht'
      · rw [List.mem_singleton.mp ht']
        exact fun _ => h.seen_lt t ht
    · rw [List.mem_singleton.mp ht]
      show (ss ++ [s]).idxOf s < _ → _
      rw [hnew]
      intro hlt
      rcases List.mem_append.mp ht' with ht' | ht'
      · have := hold t' ht'
        omega
      · rw [List.mem_singleton.mp ht'] at hlt
        have : ss.length < (ss ++ [s]).idxOf s := hlt
        omega

theorem Counts.step (h : Counts ss ts) (s : Text) : Counts (ss ++ [s]) (tallyStep ts s) := by
  unfold tallyStep
  split
  · rename_i hany
    exact h.known (h.any_iff.mp hany)
  · rename_i hany
    exact h.new fun hs => hany (h.any_iff.mpr hs)

theorem counts_of_tallied (h : Tallied ss ts) : Counts ss ts := by
  induction h with
  | nil => exact .nil
  | step _ s ih => exact ih.step s
  | perm _ hperm ih => exact ih.perm hperm

end

/-! ## The best count -/

/-- The step that occurs most often, and first among those that do. -/
structure MostFrequent (ss : List Text) (u : Text) : Prop where
  mem : u ∈ ss
  most : ∀ s ∈ ss, ss.count s ≤ ss.count u
  first : ∀ s ∈ ss, ss.count s = ss.count u → ss.idxOf u ≤ ss.idxOf s

theorem MostFrequent.unique {ss : List Text} {u v : Text} (hu : MostFrequent ss u) (hv : MostFrequent ss v) : u = v := by
  have hcount : ss.count u = ss.count v := Nat.le_antisymm (hv.most u hu.mem) (hu.most v hv.mem)
  have hidx : ss.idxOf u = ss.idxOf v := Nat.le_antisymm (hu.first v hv.mem hcount.symm) (hv.first u hu.mem hcount)
  exact (List.idxOf_inj hu.mem).mp hidx

/-- No count is better. -/
def Tally.Tops (a b : Tally) : Prop := b.count < a.count ∨ b.count = a.count ∧ a.seen ≤ b.seen

theorem Tally.better_eq (a b : Tally) : a.better b = a ∨ a.better b = b := by
  unfold Tally.better
  split
  · exact .inl rfl
  · exact .inr rfl

theorem Tally.better_tops (a b : Tally) : (a.better b).Tops a ∧ (a.better b).Tops b := by
  unfold Tally.better Tally.Tops
  split
  · exact ⟨by omega, by omega⟩
  · exact ⟨by omega, by omega⟩

theorem Tally.Tops.trans {a b c : Tally} (hab : a.Tops b) (hbc : b.Tops c) : a.Tops c := by
  unfold Tally.Tops at *
  omega

theorem foldl_better (t : Tally) (ts : List Tally) :
    ts.foldl Tally.better t ∈ t :: ts ∧ ∀ x ∈ t :: ts, (ts.foldl Tally.better t).Tops x := by
  induction ts generalizing t with
  | nil =>
    refine ⟨List.mem_singleton.mpr rfl, fun x hx => ?_⟩
    rw [List.mem_singleton.mp hx]
    exact .inr ⟨rfl, Nat.le_refl _⟩
  | cons u ts ih =>
    obtain ⟨hmem, htops⟩ := ih (t.better u)
    obtain ⟨ht, hu⟩ := t.better_tops u
    have hbest := htops _ List.mem_cons_self
    rw [List.foldl_cons]
    constructor
    · rcases List.mem_cons.mp hmem with heq | hmem
      · rw [heq]
        rcases t.better_eq u with hbetter | hbetter
        · rw [hbetter]
          exact List.mem_cons_self
        · rw [hbetter]
          exact List.mem_cons_of_mem _ List.mem_cons_self
      · exact List.mem_cons_of_mem _ (List.mem_cons_of_mem _ hmem)
    · intro x hx
      rcases List.mem_cons.mp hx with rfl | hx
      · exact hbest.trans ht
      · rcases List.mem_cons.mp hx with rfl | hx
        · exact hbest.trans hu
        · exact htops x (List.mem_cons_of_mem _ hx)

/-- The unit that counts give. -/
def unitOf (ts : List Tally) : Text := ((best? ts).map (·.step)).getD []

theorem indentUnit_eq (lines : List Text) : indentUnit lines = unitOf (tally (steps lines)) := by
  unfold indentUnit unitOf
  cases best? (tally (steps lines)) <;> rfl

/-- The best count is that of the unit. Where two counts are equal, their ranks decide as first occurrences do. -/
theorem unitOf_mostFrequent {ss : List Text} {ts : List Tally} (h : Counts ss ts) (hss : ss ≠ []) :
    MostFrequent ss (unitOf ts) := by
  cases ts with
  | nil =>
    obtain ⟨s, hs⟩ := List.exists_mem_of_ne_nil ss hss
    obtain ⟨t, ht, -⟩ := (h.mem_iff s).mpr hs
    cases ht
  | cons t ts =>
    obtain ⟨hmem, htops⟩ := foldl_better t ts
    show MostFrequent ss (ts.foldl Tally.better t).step
    generalize ts.foldl Tally.better t = b at hmem htops ⊢
    have hcount := h.count_eq b hmem
    refine ⟨h.step_mem hmem, fun s hs => ?_, fun s hs heq => ?_⟩
    · obtain ⟨x, hx, rfl⟩ := (h.mem_iff s).mpr hs
      have hxcount := h.count_eq x hx
      rcases htops x hx with hlt | heq
      · omega
      · omega
    · obtain ⟨x, hx, rfl⟩ := (h.mem_iff s).mpr hs
      have hxcount := h.count_eq x hx
      rcases htops x hx with hlt | ⟨-, hseen⟩
      · omega
      · refine Nat.le_of_not_lt fun hlt => ?_
        exact Nat.not_lt_of_le hseen (h.ranked x hx b hmem hlt)

theorem unitOf_of_nil {ts : List Tally} (h : Counts [] ts) : unitOf ts = [] := by
  cases ts with
  | nil => rfl
  | cons t ts => exact absurd (h.step_mem List.mem_cons_self) List.not_mem_nil

/-! ## Other words -/

/-- Files with the same indentations: blank lines come and go, and lines have other words after their indentation. -/
inductive Reworded : List Text → List Text → Prop where
  | nil : Reworded [] []
  | removed {blank : Text} {lines lines' : List Text} (hblank : Text.isBlank blank = true) (h : Reworded lines lines') :
    Reworded (blank :: lines) lines'
  | inserted {blank : Text} {lines lines' : List Text} (hblank : Text.isBlank blank = true) (h : Reworded lines lines') :
    Reworded lines (blank :: lines')
  | kept (line : Text) {lines lines' : List Text} (h : Reworded lines lines') : Reworded (line :: lines) (line :: lines')
  | replaced {indent line : Text} {first : Char} (words : Text) {lines lines' : List Text}
    (hline : Text.isBlank line = false) (hindent : Leads indent line) (hfirst : Text.isBlankChar first = false)
    (h : Reworded lines lines') : Reworded (line :: lines) ((indent ++ first :: words) :: lines')

/-- The indentations of the lines that are not blank. -/
def indentations (lines : List Text) : List Text := (lines.filter fun l => !Text.isBlank l).map leading

theorem indentations_cons_of_blank {line : Text} (h : Text.isBlank line = true) (lines : List Text) :
    indentations (line :: lines) = indentations lines := by
  rw [indentations, List.filter_cons_of_neg (by rw [h]; decide)]
  rfl

theorem indentations_cons_of_not_blank {line : Text} (h : Text.isBlank line = false) (lines : List Text) :
    indentations (line :: lines) = leading line :: indentations lines := by
  rw [indentations, List.filter_cons_of_pos (by rw [h]; decide)]
  rfl

theorem isBlankChar_of_isIndent {c : Char} (h : c = ' ' ∨ c = '\t') : Text.isBlankChar c = true := by
  rcases h with rfl | rfl
  · decide
  · decide

theorem indentations_eq_of_reworded {lines lines' : List Text} (h : Reworded lines lines') :
    indentations lines' = indentations lines := by
  induction h with
  | nil => rfl
  | removed hblank _ ih => rw [indentations_cons_of_blank hblank, ih]
  | inserted hblank _ ih => rw [indentations_cons_of_blank hblank, ih]
  | kept line _ ih =>
    cases hline : Text.isBlank line with
    | true => rw [indentations_cons_of_blank hline, indentations_cons_of_blank hline, ih]
    | false => rw [indentations_cons_of_not_blank hline, indentations_cons_of_not_blank hline, ih]
  | @replaced indent line first words _ _ hline hindent hfirst _ ih =>
    have hnew : Text.isBlank (indent ++ first :: words) = false := by
      rw [Text.isBlank, List.all_append, List.all_cons, hfirst, Bool.false_and, Bool.and_false]
    have hleads : Leads indent (indent ++ first :: words) := by
      refine ⟨hindent.1, first :: words, rfl, fun c hc hspace => ?_⟩
      rw [← Option.some.inj hc] at hspace
      rw [isBlankChar_of_isIndent hspace] at hfirst
      cases hfirst
    rw [indentations_cons_of_not_blank hline, indentations_cons_of_not_blank hnew, ih, ← leads_iff.mp hleads,
      ← leads_iff.mp hindent]

/-! ## Units -/

/-- What makes a text the unit of a file. -/
structure Detects (lines : List Text) (unit : Text) : Prop where
  taken : Steps (lines.filter fun l => !Text.isBlank l) (steps lines)
  mostFrequent : steps lines ≠ [] → MostFrequent (steps lines) unit
  eq_nil_iff : unit = [] ↔ steps lines = []
  anyOrder : ∀ ts, Tallied (steps lines) ts → unitOf ts = unit
  indents : ∀ c ∈ unit, c = ' ' ∨ c = '\t'
  reworded : ∀ lines', Reworded lines lines' → indentUnit lines' = unit

/-- Every file has its unit detected. -/
theorem indentUnit_detects (lines : List Text) : Detects lines (indentUnit lines) := by
  have hsteps : Steps (lines.filter fun l => !Text.isBlank l) (steps lines) := steps_stepsBetween _
  have hcounts := counts_of_tallied (tallied_tally (steps lines))
  have hmost : steps lines ≠ [] → MostFrequent (steps lines) (indentUnit lines) := by
    intro hne
    rw [indentUnit_eq]
    exact unitOf_mostFrequent hcounts hne
  have hempty : steps lines = [] → indentUnit lines = [] := by
    intro hnil
    rw [indentUnit_eq, hnil]
    rfl
  refine ⟨hsteps, hmost, ⟨fun hunit => ?_, hempty⟩, fun ts hts => ?_, fun c hc => ?_, fun lines' h => ?_⟩
  · refine Classical.byContradiction fun hne => ?_
    exact (indents_of_mem_steps hsteps (hmost hne).mem).1 hunit
  · by_cases hnil : steps lines = []
    · rw [hempty hnil]
      rw [hnil] at hts
      exact unitOf_of_nil (counts_of_tallied hts)
    · exact (unitOf_mostFrequent (counts_of_tallied hts) hnil).unique (hmost hnil)
  · by_cases hnil : steps lines = []
    · rw [hempty hnil] at hc
      cases hc
    · exact (indents_of_mem_steps hsteps (hmost hnil).mem).2 c hc
  · have hindentations := indentations_eq_of_reworded h
    rw [indentUnit_eq, indentUnit_eq]
    show unitOf (tally (stepsBetween (indentations lines'))) = unitOf (tally (stepsBetween (indentations lines)))
    rw [hindentations]

-- two spaces and a tab are taken twice each, the spaces first
example : indentUnit [['a'], [' ', ' ', 'b'], [], ['c'], ['\t', 'd'], ['e']] = [' ', ' '] := by decide

end Refactor.Indent
