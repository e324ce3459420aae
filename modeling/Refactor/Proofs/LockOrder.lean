import Refactor.Proofs.Batches
import Refactor.Proofs.Denotation

/-!
# The order of locks

A batch resolves its paths first and then takes the locks of the resolved paths, in their order. The lock of a
path is filed under its canonical path, which is looked up anew. That gives the resolved path itself, so the locks
are taken in the order of what they are filed under, and none is taken twice.

* `FileTree.canonicalOr_canonicalOr`: what is resolved already stays as it is;
* `Batch.keyOf_of_mem_group`: the locks of a batch are filed under its paths;
* `FileTree.Grows.canonical_eq`: a canonical path stays one while files are written;
* `Batch.grows_run`: a batch, whether it works or not, adds to the files and takes none away.
-/

namespace Refactor

theorem Path.parts_ne_of_lt {p q : Path} (h : p.compare q = .lt) : p.parts ≠ q.parts := by
  intro heq
  have hsame : p.compare q = .eq := compare_eq_iff.mpr (by simp [same, heq])
  rw [h] at hsame
  cases hsame

namespace FileTree

variable {t t' : FileTree} {p : Path}

/-- What is resolved already stays as it is. -/
theorem canonicalOr_canonicalOr (hw : ∀ m ∈ t.workingDir, IsName m) (p : Path) :
    t.canonicalOr (t.canonicalOr p) = t.canonicalOr p := by
  rcases t.canonicalOr_cases p with ⟨loc, n, hlead, heq⟩ | ⟨-, heq⟩
  · rw [heq]
    rcases t.canonicalOr_cases (pathOf loc) with ⟨loc', n', hlead', heq'⟩ | ⟨-, heq'⟩
    · have hback := destination_pathOf (hlead.isName hw) hlead.look_eq hlead.not_link
      rw [heq', Option.some.inj (hlead'.destination_eq.symm.trans hback)]
    · exact heq'
  · rw [heq, heq]

/-! ## Canonical paths while files are written -/

namespace Grows

/-- What is there stays there, a directory as a directory and a file as a file. -/
theorem get?_eq_some (h : Grows t t') {loc : List String} {n : Node} (hn : t.get? loc = some n)
    (hlink : ∀ target, n.entry ≠ .link target) :
    ∃ m, t'.get? loc = some m ∧ m.isDir = n.isDir ∧ ∀ target, m ≠ .link target := by
  have hlook := look_of_get? hn
  cases n with
  | link target => exact absurd rfl (hlink target)
  | dir es =>
    obtain ⟨es', hes'⟩ := get?_of_look_dir (h.dir hlook)
    exact ⟨.dir es', hes', rfl, fun _ => by simp⟩
  | file content x =>
    have he := h.entry loc
    rw [hlook] at he
    cases hlook' : t'.look loc with
    | none => rw [hlook'] at he; cases he
    | some e =>
      rw [hlook'] at he
      cases he with
      | same => exact ⟨_, get?_of_look_file hlook', rfl, fun _ => by simp⟩
      | written _ content' => exact ⟨_, get?_of_look_file hlook', rfl, fun _ => by simp⟩

theorem leadsTo (h : Grows t t') {loc : List String} {n : Node} (hp : t.LeadsTo p loc n) :
    ∃ m, t'.LeadsTo p loc m := by
  have hlink := hp.not_link
  obtain ⟨place, htrace, hnode⟩ := hp
  obtain ⟨slash, rfl⟩ := node_ok hnode
  obtain ⟨hstart, hwalk⟩ := trace_ok htrace
  obtain ⟨m, hm, hdir, hlink'⟩ := h.get?_eq_some (walk_sound hstart hwalk) hlink
  refine ⟨m, .found loc m slash, ?_, ?_⟩
  · rw [trace] at htrace ⊢
    split at htrace
    · cases htrace
    split at htrace
    · cases htrace
    rename_i hempty hnul
    rw [if_neg hempty, if_neg hnul]
    dsimp only
    rw [h.start_eq, if_pos (any_isDir_iff.mpr (h.dir hstart))]
    exact h.walk_node hstart hwalk hm hlink'
  · rw [Place.node] at hnode ⊢
    rw [hdir]
    split at hnode
    · cases hnode
    · rename_i hslash
      exact if_neg hslash

theorem canonical_eq (h : Grows t t') {q : Path} (hp : t.canonical p = .ok q) : t'.canonical p = .ok q := by
  obtain ⟨loc, n, hlead, hlimit, rfl⟩ := canonical_ok_iff.mp hp
  obtain ⟨m, hlead'⟩ := h.leadsTo hlead
  exact canonical_ok_iff.mpr ⟨loc, m, hlead', hlimit, rfl⟩

end Grows

end FileTree

namespace Batch

open FileTree (Grows)

theorem grows_writeFile (t : FileTree) (c : Computed) : Grows t (writeFile t c).1 := by
  rcases h : writeFile t c with ⟨t', _ | _⟩
  · exact (writeFile_error h).1.grows
  · exact (writeFile_ok h).1.grows

theorem grows_writeAll (t : FileTree) (cs : List Computed) : Grows t (writeAll t cs).1 := by
  induction cs generalizing t with
  | nil => exact .refl t
  | cons c cs ih =>
    have hc := grows_writeFile t c
    rw [writeAll]
    generalize writeFile t c = written at hc
    obtain ⟨t', _ | _⟩ := written
    · exact hc
    · exact hc.trans (ih t')

/-- A batch adds to the files, and takes none away. -/
theorem grows_run (t : FileTree) (options : ApplyOptions) (ps : List Pending) : Grows t (run t options ps).1 := by
  rcases run_cases t options ps with ⟨e, -, hrun⟩ | ⟨cs, -, hrun⟩
  · rw [hrun]
    exact .refl t
  · rw [hrun]
    split
    · exact .refl t
    · exact grows_writeAll t cs

/-- The locks of a batch are filed under its paths. -/
theorem keyOf_of_mem_group {t : FileTree} (hw : ∀ m ∈ t.workingDir, FileTree.IsName m) {root : Path}
    {fs : List FileEdits} {p : Pending} (hp : p ∈ group t root fs) : Locks.keyOf t p.path = p.path.parts := by
  obtain ⟨f, -, -, heq⟩ := mem_group hp
  rw [heq, Locks.keyOf, resolvePath, FileTree.canonicalOr_canonicalOr hw]

end Batch

end Refactor
