import Refactor.Edit.Span

/-!
# Lines and positions of a text

What edits need of lines and of positions inside them, stated on the text that
the lines make up:

* `lines_unlines`, `unlines_lines`: cutting a text into lines and putting lines
  together undo each other, as long as no line holds a newline (`IsLines`);
* `lines_append_newline`: a newline anywhere cuts the lines of a text in two;
* `takeBytes_append_left`, `boundaryAt_append_left`: what stands before a
  position does not depend on what comes after it; `takeBytes_append_right`,
  `boundaryAt_append_right`: positions past a part of the text count from its end;
* `byteSize_takeBytes_boundaryAt`, `le_units_takeBytes`: the text before a
  boundary has the bytes, and at least the units, that were asked for.
-/

namespace Refactor.Text

/-! ## Lines -/

/-- At least one line, and none that holds a newline. -/
structure IsLines (ls : List Text) : Prop where
  ne_nil : ls ≠ []
  no_newline : ∀ l ∈ ls, '\n' ∉ l

theorem pieces_append_sep (sep : Char) (t u : Text) :
    pieces sep (t ++ sep :: u) = pieces sep t ++ pieces sep u := by
  induction t with
  | nil => simp [pieces]
  | cons c t ih =>
    simp only [List.cons_append, pieces, ih]
    split
    · rfl
    · cases h : pieces sep t with
      | nil => exact absurd h (pieces_ne_nil sep t)
      | cons l ls => rfl

theorem pieces_of_notMem {sep : Char} {t : Text} (h : sep ∉ t) : pieces sep t = [t] := by
  induction t with
  | nil => rfl
  | cons c t ih =>
    simp only [List.mem_cons, not_or] at h
    rw [pieces, if_neg (Ne.symm h.1), ih h.2]
    rfl

theorem notMem_of_mem_pieces {sep : Char} {t l : Text} (h : l ∈ pieces sep t) : sep ∉ l := by
  induction t generalizing l with
  | nil => simp_all [pieces]
  | cons c t ih =>
    rw [pieces] at h
    split at h
    · rcases List.mem_cons.mp h with rfl | h
      · simp
      · exact ih h
    · rename_i hc
      cases hp : pieces sep t with
      | nil => exact absurd hp (pieces_ne_nil sep t)
      | cons m ms =>
        rw [hp, List.modifyHead_cons] at h
        rcases List.mem_cons.mp h with rfl | h
        · have := ih (l := m) (by rw [hp]; exact List.mem_cons_self)
          simp only [List.mem_cons, not_or]
          exact ⟨Ne.symm hc, this⟩
        · exact ih (by rw [hp]; exact List.mem_cons_of_mem _ h)

theorem intercalate_pieces (sep : Char) (t : Text) : [sep].intercalate (pieces sep t) = t := by
  induction t with
  | nil => simp [pieces]
  | cons c t ih =>
    rw [pieces]
    split
    · rename_i hc
      rw [List.intercalate_cons_of_ne_nil (pieces_ne_nil sep t), ih, hc]
      rfl
    · cases h : pieces sep t with
      | nil => exact absurd h (pieces_ne_nil sep t)
      | cons l ls =>
        rw [h] at ih
        rw [List.modifyHead_cons, List.intercalate_cons_cons_left, ih]

/-- A newline cuts the lines of a text in two. -/
theorem lines_append_newline (t u : Text) : lines (t ++ '\n' :: u) = lines t ++ lines u :=
  pieces_append_sep '\n' t u

theorem lines_of_notMem {t : Text} (h : '\n' ∉ t) : lines t = [t] := pieces_of_notMem h

theorem unlines_lines (t : Text) : unlines (lines t) = t := intercalate_pieces '\n' t

theorem isLines_lines (t : Text) : IsLines (lines t) :=
  ⟨pieces_ne_nil '\n' t, fun _ hl => notMem_of_mem_pieces hl⟩

theorem lines_append_of_notMem {t : Text} (h : '\n' ∉ t) (u : Text) :
    ∃ v ls, lines (t ++ u) = (t ++ v) :: ls := by
  induction t with
  | nil => exact List.exists_cons_of_ne_nil (pieces_ne_nil '\n' u)
  | cons c t ih =>
    simp only [List.mem_cons, not_or] at h
    obtain ⟨v, ls, hv⟩ := ih h.2
    refine ⟨v, ls, ?_⟩
    rw [lines] at hv
    rw [lines, List.cons_append, pieces, if_neg (Ne.symm h.1), hv]
    rfl

@[simp] theorem unlines_singleton (l : Text) : unlines [l] = l := List.intercalate_singleton

theorem unlines_cons {l : Text} {ls : List Text} (h : ls ≠ []) :
    unlines (l :: ls) = l ++ '\n' :: unlines ls := by
  rw [unlines, List.intercalate_cons_of_ne_nil h, List.append_assoc]
  rfl

theorem unlines_append {ls ms : List Text} (hl : ls ≠ []) (hm : ms ≠ []) :
    unlines (ls ++ ms) = unlines ls ++ '\n' :: unlines ms := by
  induction ls with
  | nil => exact absurd rfl hl
  | cons l ls ih =>
    by_cases h : ls = []
    · subst h
      rw [List.singleton_append, unlines_cons hm, unlines_singleton]
    · rw [List.cons_append, unlines_cons (by simp [h]), unlines_cons h, ih h, List.append_assoc]
      rfl

/-- Cutting a line in two cuts the text there. -/
theorem unlines_append_cons (ls ms : List Text) (t u : Text) :
    unlines (ls ++ (t ++ u) :: ms) = unlines (ls ++ [t]) ++ unlines (u :: ms) := by
  have hcut : unlines ((t ++ u) :: ms) = t ++ unlines (u :: ms) := by
    by_cases hm : ms = []
    · simp [hm]
    · rw [unlines_cons hm, unlines_cons hm, List.append_assoc]
  by_cases hl : ls = []
  · rw [hl, List.nil_append, List.nil_append, unlines_singleton, hcut]
  · rw [unlines_append hl (by simp), unlines_append hl (by simp), unlines_singleton, hcut,
      List.append_assoc, List.cons_append]

/-- What follows the last of some lines belongs to the lines from there on. -/
theorem lines_unlines_append {ls : List Text} (h : ∀ l ∈ ls, '\n' ∉ l) (a t : Text) :
    lines (unlines (ls ++ [a]) ++ t) = ls ++ lines (a ++ t) := by
  induction ls with
  | nil => simp
  | cons l ls ih =>
    rw [List.cons_append, unlines_cons (by simp), List.append_assoc, List.cons_append,
      lines_append_newline, lines_of_notMem (h l List.mem_cons_self),
      ih fun m hm => h m (List.mem_cons_of_mem _ hm)]
    rfl

/-- What comes before the first of some lines belongs to the lines up to there. -/
theorem lines_append_unlines {ls : List Text} (h : ∀ l ∈ ls, '\n' ∉ l) (a t : Text) :
    lines (t ++ unlines (a :: ls)) = lines (t ++ a) ++ ls := by
  induction ls generalizing a t with
  | nil => simp
  | cons l ls ih =>
    have hl := ih (fun m hm => h m (List.mem_cons_of_mem _ hm)) l []
    rw [unlines_cons (by simp), ← List.append_assoc, lines_append_newline]
    rw [List.nil_append, List.nil_append, lines_of_notMem (h l List.mem_cons_self)] at hl
    rw [hl]
    rfl

theorem lines_unlines {ls : List Text} (h : IsLines ls) : lines (unlines ls) = ls := by
  cases ls with
  | nil => exact absurd rfl h.ne_nil
  | cons l ls =>
    have hl := lines_append_unlines (fun m hm => h.no_newline m (List.mem_cons_of_mem _ hm)) l []
    rw [List.nil_append, List.nil_append, lines_of_notMem (h.no_newline l List.mem_cons_self)] at hl
    exact hl

/-! ## Bytes -/

theorem byteSize_append (t u : Text) : byteSize (t ++ u) = byteSize t + byteSize u := by
  induction t with
  | nil => simp [byteSize]
  | cons c t ih => rw [List.cons_append, byteSize, byteSize, ih, Nat.add_assoc]

theorem units_append (t u : Text) : units (t ++ u) = units t + units u := by
  induction t with
  | nil => simp [units]
  | cons c t ih => rw [List.cons_append, units, units, ih, Nat.add_assoc]

@[simp] theorem takeBytes_zero (t : Text) : takeBytes 0 t = [] := by simp [takeBytes]

@[simp] theorem takeBytes_nil (n : Nat) : takeBytes n [] = [] := by cases n <;> simp [takeBytes]

theorem takeBytes_cons (n : Nat) (c : Char) (t : Text) :
    takeBytes (c.utf8Size + n) (c :: t) = c :: takeBytes n t := by
  obtain ⟨k, hk⟩ := Nat.exists_eq_add_of_lt c.utf8Size_pos
  rw [show c.utf8Size + n = k + n + 1 by omega, takeBytes,
    show k + n + 1 - c.utf8Size = n by omega]

/-- The text before a position does not depend on what comes after it. -/
theorem takeBytes_append_left {n : Nat} {t : Text} (h : n ≤ byteSize t) (u : Text) :
    takeBytes n (t ++ u) = takeBytes n t := by
  induction t generalizing n with
  | nil =>
    rw [byteSize, Nat.le_zero] at h
    subst h
    simp
  | cons c t ih =>
    cases n with
    | zero => simp
    | succ n =>
      rw [byteSize] at h
      rw [List.cons_append, takeBytes, takeBytes, ih (by omega)]

/-- The text before a position past the first part of a text has all of that part. -/
theorem takeBytes_append_right (t u : Text) (n : Nat) : takeBytes (byteSize t + n) (t ++ u) = t ++ takeBytes n u := by
  induction t with
  | nil => rw [byteSize, Nat.zero_add, List.nil_append, List.nil_append]
  | cons c t ih => rw [byteSize, Nat.add_assoc, List.cons_append, takeBytes_cons, ih, List.cons_append]

theorem takeBytes_byteSize (t : Text) : takeBytes (byteSize t) t = t := by
  simpa using takeBytes_append_right t [] 0

/-! ## Boundaries -/

@[simp] theorem boundaryAt_zero (t : Text) : boundaryAt 0 t = 0 := by simp [boundaryAt]

theorem boundaryAt_mono {m n : Nat} (h : m ≤ n) (t : Text) : boundaryAt m t ≤ boundaryAt n t := by
  induction t generalizing m n with
  | nil => cases m <;> simp [boundaryAt]
  | cons c t ih =>
    cases m with
    | zero => simp
    | succ m =>
      obtain ⟨k, rfl⟩ := Nat.exists_eq_add_of_le h
      have := ih (m := m + 1 - charUnits c) (n := m + 1 + k - charUnits c) (by omega)
      rw [Nat.add_right_comm, boundaryAt, boundaryAt, Nat.add_right_comm]
      omega

/-- A boundary inside the first part of a text is found there. -/
theorem boundaryAt_append_left {n : Nat} {t : Text} (h : n ≤ units t) (u : Text) :
    boundaryAt n (t ++ u) = boundaryAt n t := by
  induction t generalizing n with
  | nil =>
    rw [units, Nat.le_zero] at h
    subst h
    simp
  | cons c t ih =>
    cases n with
    | zero => simp
    | succ n =>
      rw [units] at h
      rw [List.cons_append, boundaryAt, boundaryAt, ih (by omega)]

/-- A boundary past the first part of a text is found behind it. -/
theorem boundaryAt_append_right {n : Nat} {t : Text} (h : units t ≤ n) (u : Text) :
    boundaryAt n (t ++ u) = byteSize t + boundaryAt (n - units t) u := by
  induction t generalizing n with
  | nil => rw [byteSize, units, Nat.zero_add, Nat.sub_zero, List.nil_append]
  | cons c t ih =>
    have hc : 0 < charUnits c := by
      rw [charUnits]
      split <;> omega
    rw [units] at h
    obtain ⟨m, rfl⟩ := Nat.exists_eq_add_of_le' (show 1 ≤ n by omega)
    rw [List.cons_append, boundaryAt, ih (by omega), byteSize, units, Nat.add_assoc, Nat.sub_sub]

/-- A text that is too short has its last boundary at the end. -/
theorem boundaryAt_of_units_le {n : Nat} {t : Text} (h : units t ≤ n) : boundaryAt n t = byteSize t := by
  have hnil : ∀ m, boundaryAt m [] = 0 := fun m => by cases m <;> simp [boundaryAt]
  simpa [hnil] using boundaryAt_append_right h []

/-- The text before a boundary ends exactly there. -/
theorem byteSize_takeBytes_boundaryAt (n : Nat) (t : Text) :
    byteSize (takeBytes (boundaryAt n t) t) = boundaryAt n t := by
  induction t generalizing n with
  | nil => cases n <;> simp [boundaryAt, byteSize]
  | cons c t ih =>
    cases n with
    | zero => simp [byteSize]
    | succ n => rw [boundaryAt, takeBytes_cons, byteSize, ih]

theorem boundaryAt_le_byteSize (n : Nat) (t : Text) : boundaryAt n t ≤ byteSize t := by
  have h := congrArg byteSize (takeBytes_append_dropBytes (boundaryAt n t) t)
  rw [byteSize_append, byteSize_takeBytes_boundaryAt] at h
  omega

/-- The text before the boundary of `n` units has at least as many. -/
theorem le_units_takeBytes {n : Nat} {t : Text} (h : n ≤ units t) :
    n ≤ units (takeBytes (boundaryAt n t) t) := by
  induction t generalizing n with
  | nil =>
    rw [units, Nat.le_zero] at h
    subst h
    simp
  | cons c t ih =>
    cases n with
    | zero => simp
    | succ n =>
      rw [units] at h
      have := ih (n := n + 1 - charUnits c) (by omega)
      rw [boundaryAt, takeBytes_cons, units]
      omega

end Refactor.Text
