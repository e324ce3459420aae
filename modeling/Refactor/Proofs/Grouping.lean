import Refactor.Batch

/-!
# Grouping the edits of a batch

The entries of a batch are brought together by file, in the order of paths.

* `Path.compare_eq_iff`: paths compare as equal when they have the same parts, and
  the order of paths is transitive (an instance of `Std.TransCmp`);
* `ordered_group`: every file of a batch comes once, in increasing order of paths;
* `covers_group`: the files of a batch are those that its entries name, entries that
  ask for nothing left out.
-/

namespace Refactor

/-! ## The order of paths -/

namespace Path

theorem Part.compare_name (a b : String) : (Part.name a).compare (.name b) = Ord.compare a b := rfl

instance : Std.TransCmp Part.compare where
  eq_swap {a b} := by
    cases a <;> cases b <;> try rfl
    rw [Part.compare_name, Part.compare_name]
    exact Std.OrientedCmp.eq_swap
  isLE_trans {a b c} hab hbc := by
    cases a <;> cases b <;> cases c <;> first | rfl | contradiction | skip
    rw [Part.compare_name] at *
    exact Std.TransCmp.isLE_trans hab hbc

instance : Std.LawfulEqCmp Part.compare where
  compare_self {a} := by
    cases a with
    | name n =>
      rw [Part.compare_name]
      exact Std.ReflCmp.compare_self
    | root | here | up => rfl
  eq_of_compare {a b} h := by
    cases a <;> cases b <;> first | rfl | contradiction | skip
    rw [Part.compare_name] at h
    rw [Std.LawfulEqCmp.eq_of_compare h]

theorem compareParts_eq (as bs : List Part) : compareParts as bs = List.compareLex Part.compare as bs := by
  induction as generalizing bs with
  | nil => cases bs <;> rfl
  | cons a as ih =>
    cases bs with
    | nil => rfl
    | cons b bs => rw [compareParts, ih, List.compareLex_cons_cons]

theorem compare_def (p q : Path) : p.compare q = List.compareLex Part.compare p.parts q.parts :=
  compareParts_eq _ _

instance : Std.TransCmp Path.compare where
  eq_swap {p q} := by
    rw [compare_def, compare_def]
    exact Std.OrientedCmp.eq_swap
  isLE_trans {p q r} hpq hqr := by
    rw [compare_def] at *
    exact Std.TransCmp.isLE_trans hpq hqr

theorem compare_swap (p q : Path) : p.compare q = (q.compare p).swap := Std.OrientedCmp.eq_swap

theorem compare_eq_iff {p q : Path} : p.compare q = .eq ↔ p.same q = true := by
  rw [compare_def, Std.LawfulEqCmp.compare_eq_iff_eq, same, beq_iff_eq]

end Path

namespace Batch

/-! ## Adding the edits of an entry -/

/-- The files of a batch come in strictly increasing order of paths. -/
def Ordered (ps : List Pending) : Prop := ps.Pairwise fun p q => p.path.compare q.path = .lt

variable {path : Path} {edits : List TextEdit} {isNew : Bool} {ps : List Pending}

/-- The paths after an insertion are those before it and the new one. -/
theorem mem_insert {q : Pending} (h : q ∈ insert path edits isNew ps) :
    q.path = path ∨ ∃ p ∈ ps, p.path = q.path := by
  induction ps with
  | nil =>
    rw [insert, List.mem_singleton] at h
    exact .inl (by rw [h])
  | cons p ps ih =>
    rw [insert] at h
    split at h
    · rcases List.mem_cons.mp h with rfl | h
      · exact .inl rfl
      · exact .inr ⟨q, h, rfl⟩
    · rcases List.mem_cons.mp h with rfl | h
      · exact .inr ⟨p, List.mem_cons_self, rfl⟩
      · exact .inr ⟨q, List.mem_cons_of_mem _ h, rfl⟩
    · rcases List.mem_cons.mp h with rfl | h
      · exact .inr ⟨q, List.mem_cons_self, rfl⟩
      · exact (ih h).imp_right fun ⟨p', hp', he⟩ => ⟨p', List.mem_cons_of_mem _ hp', he⟩

theorem exists_mem_insert_self : ∃ q ∈ insert path edits isNew ps, q.path.same path = true := by
  induction ps with
  | nil => exact ⟨_, List.mem_singleton_self _, BEq.rfl⟩
  | cons p ps ih =>
    rw [insert]
    split
    · exact ⟨_, List.mem_cons_self, BEq.rfl⟩
    · rename_i heq
      refine ⟨_, List.mem_cons_self, ?_⟩
      rw [← Path.compare_eq_iff, Path.compare_swap, heq]
      rfl
    · obtain ⟨q, hq, hs⟩ := ih
      exact ⟨q, List.mem_cons_of_mem _ hq, hs⟩

theorem exists_mem_insert_of_mem {p : Pending} (h : p ∈ ps) : ∃ q ∈ insert path edits isNew ps, q.path = p.path := by
  induction ps with
  | nil => cases h
  | cons p' ps ih =>
    rw [insert]
    split
    · exact ⟨p, List.mem_cons_of_mem _ h, rfl⟩
    · rcases List.mem_cons.mp h with rfl | h
      · exact ⟨_, List.mem_cons_self, rfl⟩
      · exact ⟨p, List.mem_cons_of_mem _ h, rfl⟩
    · rcases List.mem_cons.mp h with rfl | h
      · exact ⟨p, List.mem_cons_self, rfl⟩
      · obtain ⟨q, hq, hs⟩ := ih h
        exact ⟨q, List.mem_cons_of_mem _ hq, hs⟩

theorem ordered_insert (h : Ordered ps) : Ordered (insert path edits isNew ps) := by
  induction ps with
  | nil => exact List.pairwise_singleton _ _
  | cons p ps ih =>
    obtain ⟨hp, hps⟩ := List.pairwise_cons.mp h
    rw [insert]
    split
    · rename_i hlt
      refine List.pairwise_cons.mpr ⟨fun q hq => ?_, h⟩
      rcases List.mem_cons.mp hq with rfl | hq
      · exact hlt
      · exact Std.TransCmp.lt_trans hlt (hp q hq)
    · exact List.pairwise_cons.mpr ⟨hp, hps⟩
    · rename_i hgt
      refine List.pairwise_cons.mpr ⟨fun q hq => ?_, ih hps⟩
      rcases mem_insert hq with hq | ⟨p', hp', he⟩
      · rw [hq, Path.compare_swap, hgt]
        rfl
      · rw [← he]
        exact hp p' hp'

/-! ## The files of a batch -/

theorem ordered_foldl_insert {t : FileTree} {root : Path} (fs : List FileEdits) (h : Ordered ps) :
    Ordered (fs.foldl (fun ps f => insert (resolvePath t root f.fileName) f.flat f.isNew ps) ps) := by
  induction fs generalizing ps with
  | nil => exact h
  | cons f fs ih => exact ih (ordered_insert h)

/-- Every file of a batch comes once, in increasing order of paths. -/
theorem ordered_group (t : FileTree) (root : Path) (fs : List FileEdits) : Ordered (group t root fs) :=
  ordered_foldl_insert _ .nil

theorem mem_foldl_insert {t : FileTree} {root : Path} {fs : List FileEdits} {q : Pending}
    (h : q ∈ fs.foldl (fun ps f => insert (resolvePath t root f.fileName) f.flat f.isNew ps) ps) :
    (∃ f ∈ fs, q.path = resolvePath t root f.fileName) ∨ ∃ p ∈ ps, p.path = q.path := by
  induction fs generalizing ps with
  | nil => exact .inr ⟨q, h, rfl⟩
  | cons f fs ih =>
    rcases ih h with ⟨f', hf', he⟩ | ⟨p, hp, he⟩
    · exact .inl ⟨f', List.mem_cons_of_mem _ hf', he⟩
    · rcases mem_insert hp with hp | ⟨p', hp', he'⟩
      · exact .inl ⟨f, List.mem_cons_self, he.symm.trans hp⟩
      · exact .inr ⟨p', hp', he'.trans he⟩

/-- A file of a batch is one that an entry names. -/
theorem mem_group {t : FileTree} {root : Path} {fs : List FileEdits} {q : Pending} (h : q ∈ group t root fs) :
    ∃ f ∈ fs, isRelevant f = true ∧ q.path = resolvePath t root f.fileName := by
  rcases mem_foldl_insert h with ⟨f, hf, he⟩ | ⟨p, hp, -⟩
  · obtain ⟨hf, hr⟩ := List.mem_filter.mp hf
    exact ⟨f, hf, hr, he⟩
  · cases hp

theorem exists_mem_foldl_insert {t : FileTree} {root : Path} (fs : List FileEdits) {p : Pending} (h : p ∈ ps) :
    ∃ q ∈ fs.foldl (fun ps f => insert (resolvePath t root f.fileName) f.flat f.isNew ps) ps, q.path = p.path := by
  induction fs generalizing ps p with
  | nil => exact ⟨p, h, rfl⟩
  | cons f fs ih =>
    obtain ⟨p', hp', he⟩ := exists_mem_insert_of_mem h
    obtain ⟨q, hq, he'⟩ := ih hp'
    exact ⟨q, hq, he'.trans he⟩

/-- The file that an entry names is among those of the batch, if the entry asks for anything. -/
theorem exists_mem_group (t : FileTree) (root : Path) {fs : List FileEdits} {f : FileEdits} (hf : f ∈ fs)
    (hr : isRelevant f = true) : ∃ q ∈ group t root fs, q.path.same (resolvePath t root f.fileName) = true := by
  obtain ⟨before, after, hsplit⟩ := List.append_of_mem (List.mem_filter.mpr ⟨hf, hr⟩)
  rw [group, hsplit, List.foldl_append, List.foldl_cons]
  obtain ⟨p, hp, hs⟩ := exists_mem_insert_self
  obtain ⟨q, hq, he⟩ := exists_mem_foldl_insert after hp
  exact ⟨q, hq, he ▸ hs⟩

/-- `ps` are the files that the entries of a batch ask to change, in the order of paths. -/
structure Covers (t : FileTree) (root : Path) (fs : List FileEdits) (ps : List Pending) : Prop where
  ordered : Ordered ps
  named : ∀ p ∈ ps, ∃ f ∈ fs, isRelevant f = true ∧ p.path = resolvePath t root f.fileName
  complete : ∀ f ∈ fs, isRelevant f = true → ∃ p ∈ ps, p.path.same (resolvePath t root f.fileName) = true

theorem covers_group (t : FileTree) (root : Path) (fs : List FileEdits) : Covers t root fs (group t root fs) :=
  ⟨ordered_group t root fs, fun _ => mem_group, fun _ => exists_mem_group t root⟩

end Batch

end Refactor
