import Mathlib.Data.List.Sort
import Refactor.Proofs.Batches
import Refactor.Proofs.Splice

/-!
# What becomes of the edits of a batch

The entries of a batch that resolve to one path make up one file of the batch:
nothing of them is lost, doubled or mixed with other files, and entries for
different paths can come in any order.

* `pendingOf?_group`: the file of a path is made of the entries for that path, in
  their order;
* `eq_of_pendingOf?_eq`: files in the order of paths are known by their paths;
* `group_eq_of_rearranged`: hence rearranging the entries of different paths changes
  nothing;
* `flatMap_edits_group`: all edits of a batch are in its files, each once;
* `apply_conserves`: the log of a batch, and its independence of order.
-/

namespace Refactor

namespace Path

theorem same_comm (p q : Path) : p.same q = q.same p := Bool.beq_comm

theorem same_congr {p q : Path} (h : p.same q = true) (r : Path) : p.same r = q.same r := by
  rw [same, beq_iff_eq] at h
  rw [same, same, h]

theorem not_same_of_lt {p q : Path} (h : p.compare q = .lt) : p.same q = false := by
  rw [Bool.eq_false_iff, ne_eq, ← compare_eq_iff, h]
  simp

end Path

namespace Batch

variable {t : FileTree} {root : Path} {ps ps' : List Pending}

/-! ## Files by path -/

/-- The file of a path among the files of a batch. -/
def pendingOf? (path : Path) (ps : List Pending) : Option Pending := ps.find? fun p => p.path.same path

/-- A file with the edits of one more entry, or a new one with them. -/
def extend (path : Path) (edits : List TextEdit) (isNew : Bool) : Option Pending → Pending
  | some p => ⟨p.path, p.edits ++ edits, p.isNew || isNew⟩
  | none => ⟨path, edits, isNew⟩

theorem pendingOf?_cons (p : Pending) (ps : List Pending) (q : Path) :
    pendingOf? q (p :: ps) = if p.path.same q then some p else pendingOf? q ps := by
  rw [pendingOf?, List.find?_cons]
  cases p.path.same q <;> rfl

theorem pendingOf?_congr {p q : Path} (h : p.same q = true) (ps : List Pending) : pendingOf? p ps = pendingOf? q ps := by
  rw [pendingOf?, pendingOf?]
  congr 1
  funext r
  rw [Path.same_comm, Path.same_congr h, Path.same_comm]

theorem pendingOf?_of_lt {path : Path} (h : ∀ p ∈ ps, path.compare p.path = .lt) : pendingOf? path ps = none := by
  rw [pendingOf?, List.find?_eq_none]
  intro p hp
  rw [Path.same_comm, Path.not_same_of_lt (h p hp)]
  simp

/-- An entry is added to the file of its path and to no other. -/
theorem pendingOf?_insert {path : Path} {edits : List TextEdit} {isNew : Bool} (h : Ordered ps) (q : Path) :
    pendingOf? q (insert path edits isNew ps) =
      if path.same q then some (extend path edits isNew (pendingOf? q ps)) else pendingOf? q ps := by
  induction ps with
  | nil => rw [insert, pendingOf?_cons]; rfl
  | cons p ps ih =>
    obtain ⟨hp, hps⟩ := List.pairwise_cons.mp h
    rw [insert]
    split
    · rename_i hlt
      rw [pendingOf?_cons]
      split
      · rename_i hq
        -- All files come after the path, so there was none of it.
        have hnone : pendingOf? path (p :: ps) = none := by
          refine pendingOf?_of_lt fun r hr => ?_
          rcases List.mem_cons.mp hr with rfl | hr
          · exact hlt
          · exact Std.TransCmp.lt_trans hlt (hp r hr)
        rw [← pendingOf?_congr hq, hnone]
        rfl
      · rfl
    · rename_i heq
      rw [pendingOf?_cons, pendingOf?_cons, Path.same_congr (Path.compare_eq_iff.mp heq)]
      split <;> rfl
    · rename_i hgt
      have hne : p.path.same path = false := Path.not_same_of_lt (by rw [Path.compare_swap, hgt]; rfl)
      rw [pendingOf?_cons, pendingOf?_cons, ih hps]
      cases hq : p.path.same q with
      | true =>
        have : path.same q = false := by rw [Path.same_comm, ← Path.same_congr hq, hne]
        simp [this]
      | false => rfl

/-- Files in the order of paths are known by their paths. -/
theorem mem_iff_pendingOf? (h : Ordered ps) {p : Pending} : p ∈ ps ↔ pendingOf? p.path ps = some p := by
  refine ⟨fun hp => ?_, List.mem_of_find?_eq_some⟩
  induction ps with
  | nil => cases hp
  | cons r ps ih =>
    obtain ⟨hr, hps⟩ := List.pairwise_cons.mp h
    rw [pendingOf?_cons]
    rcases List.mem_cons.mp hp with rfl | hp
    · exact if_pos BEq.rfl
    · rw [Path.not_same_of_lt (hr p hp), ih hps hp]
      rfl

theorem eq_of_pendingOf?_eq (h : Ordered ps) (h' : Ordered ps') (he : ∀ q, pendingOf? q ps = pendingOf? q ps') :
    ps = ps' := by
  have : Std.Irrefl fun p q : Pending => p.path.compare q.path = .lt := ⟨fun p hp => by
    rw [Path.compare_eq_iff.mpr BEq.rfl] at hp
    cases hp⟩
  have : Std.Antisymm fun p q : Pending => p.path.compare q.path = .lt := ⟨fun p q hpq hqp => by
    rw [Path.compare_swap, hqp] at hpq
    cases hpq⟩
  refine List.Pairwise.eq_of_mem_iff h h' fun p => ?_
  rw [mem_iff_pendingOf? h, mem_iff_pendingOf? h', he]

/-! ## The entries of a path -/

/-- Whether an entry resolves to a path. -/
def resolvesTo (t : FileTree) (root path : Path) (f : FileEdits) : Bool := (resolvePath t root f.fileName).same path

/-- The edits of all entries for a path, in their order. -/
def editsFor (t : FileTree) (root : Path) (fs : List FileEdits) (path : Path) : List TextEdit :=
  (fs.filter (resolvesTo t root path)).flatMap FileEdits.flat

/-- Whether an entry for a path takes its file for a new one. -/
def isNewFor (t : FileTree) (root : Path) (fs : List FileEdits) (path : Path) : Bool :=
  (fs.filter (resolvesTo t root path)).any (·.isNew)

/-- The file that the entries of one path make up. -/
def merge (t : FileTree) (root : Path) : List FileEdits → Option Pending
  | [] => none
  | f :: fs => some ⟨resolvePath t root f.fileName, (f :: fs).flatMap FileEdits.flat, (f :: fs).any (·.isNew)⟩

theorem foldl_extend_some (fs : List FileEdits) (p : Pending) :
    fs.foldl (fun o f => some (extend (resolvePath t root f.fileName) f.flat f.isNew o)) (some p) =
      some ⟨p.path, p.edits ++ fs.flatMap FileEdits.flat, p.isNew || fs.any (·.isNew)⟩ := by
  induction fs generalizing p with
  | nil => simp
  | cons f fs ih =>
    rw [List.foldl_cons, ih]
    simp [extend, Bool.or_assoc]

theorem pendingOf?_foldl_insert (fs : List FileEdits) (h : Ordered ps) (q : Path) :
    pendingOf? q (fs.foldl (fun ps f => insert (resolvePath t root f.fileName) f.flat f.isNew ps) ps) =
      (fs.filter (resolvesTo t root q)).foldl
        (fun o f => some (extend (resolvePath t root f.fileName) f.flat f.isNew o)) (pendingOf? q ps) := by
  induction fs generalizing ps with
  | nil => rfl
  | cons f fs ih =>
    rw [List.foldl_cons, ih (ordered_insert h), pendingOf?_insert h, List.filter_cons]
    show _ = List.foldl _ _ (if (resolvePath t root f.fileName).same q = true then _ else _)
    split <;> rfl

/-- The file of a path is made of the entries for that path, in their order. -/
theorem pendingOf?_group (t : FileTree) (root : Path) (fs : List FileEdits) (q : Path) :
    pendingOf? q (group t root fs) = merge t root ((fs.filter (resolvesTo t root q)).filter isRelevant) := by
  rw [group, pendingOf?_foldl_insert _ .nil, List.filter_comm]
  cases (fs.filter (resolvesTo t root q)).filter isRelevant with
  | nil => rfl
  | cons f fs => exact foldl_extend_some fs _

/-- Entries that ask for nothing have no edits, and no new file. -/
theorem flatMap_flat_filter (fs : List FileEdits) :
    (fs.filter isRelevant).flatMap FileEdits.flat = fs.flatMap FileEdits.flat := by
  induction fs with
  | nil => rfl
  | cons f fs ih =>
    rw [List.filter_cons]
    split
    · rw [List.flatMap_cons, List.flatMap_cons, ih]
    · rename_i h
      have hf : f.changes = [] := by simp [isRelevant] at h; exact h.1
      rw [List.flatMap_cons, ih, FileEdits.flat, hf]
      rfl

theorem any_isNew_filter (fs : List FileEdits) : (fs.filter isRelevant).any (·.isNew) = fs.any (·.isNew) := by
  rw [List.any_filter]
  congr 1
  funext f
  cases hf : f.isNew <;> simp [isRelevant, hf]

/-- A file of a batch has the edits of all entries for its path, in their order. -/
theorem edits_of_mem_group {fs : List FileEdits} {p : Pending} (h : p ∈ group t root fs) :
    p.edits = editsFor t root fs p.path ∧ p.isNew = isNewFor t root fs p.path := by
  rw [mem_iff_pendingOf? (ordered_group t root fs), pendingOf?_group] at h
  rw [editsFor, isNewFor, ← flatMap_flat_filter, ← any_isNew_filter]
  cases hfs : (fs.filter (resolvesTo t root p.path)).filter isRelevant with
  | nil => simp [hfs, merge] at h
  | cons f fs =>
    rw [hfs, merge, Option.some.injEq] at h
    rw [← h]
    exact ⟨rfl, rfl⟩

/-! ## Order -/

/-- A batch with its entries in another order, but for entries of one path. -/
structure Rearranged (t : FileTree) (root : Path) (fs fs' : List FileEdits) : Prop where
  perm : fs'.Perm fs
  order : ∀ path, fs'.filter (resolvesTo t root path) = fs.filter (resolvesTo t root path)

theorem group_eq_of_rearranged {fs fs' : List FileEdits} (h : Rearranged t root fs fs') :
    group t root fs' = group t root fs := by
  refine eq_of_pendingOf?_eq (ordered_group t root fs') (ordered_group t root fs) fun q => ?_
  rw [pendingOf?_group, pendingOf?_group, h.order]

/-! ## Counting -/

theorem flatMap_edits_insert (path : Path) (edits : List TextEdit) (isNew : Bool) (ps : List Pending) :
    ((insert path edits isNew ps).flatMap (·.edits)).Perm (ps.flatMap (·.edits) ++ edits) := by
  induction ps with
  | nil => simp [insert]
  | cons p ps ih =>
    rw [insert]
    split
    · exact List.perm_append_comm
    · simp only [List.flatMap_cons, List.append_assoc]
      exact List.perm_append_comm.append_left _
    · simp only [List.flatMap_cons, List.append_assoc]
      exact ih.append_left _

/-- The edits of a batch are those of its files, none lost and none doubled. -/
theorem flatMap_edits_group (t : FileTree) (root : Path) (fs : List FileEdits) :
    ((group t root fs).flatMap (·.edits)).Perm (fs.flatMap FileEdits.flat) := by
  have hfold : ∀ (fs : List FileEdits) (ps : List Pending),
      ((fs.foldl (fun ps f => insert (resolvePath t root f.fileName) f.flat f.isNew ps) ps).flatMap (·.edits)).Perm
        (ps.flatMap (·.edits) ++ fs.flatMap FileEdits.flat) := by
    intro fs
    induction fs with
    | nil => simp
    | cons f fs ih =>
      intro ps
      rw [List.foldl_cons, List.flatMap_cons, ← List.append_assoc]
      exact (ih _).trans ((flatMap_edits_insert _ _ _ ps).append_right _)
  rw [← flatMap_flat_filter]
  exact hfold _ []

/-! ## Logs -/

/-- What editing a file in memory comes to. -/
theorem compute_ok {normalize : Bool} {p : Pending} {c : Computed} (h : compute t normalize p = .ok c) :
    ∃ source lines, readSource t p.path p.isNew = .ok source ∧
      applyEdits source.lines (source.prepare normalize p.edits) = .ok lines ∧
      c = ⟨p.path, source.withLines lines, changeRecord source.lines (source.prepare normalize p.edits) p.path, p.isNew⟩ := by
  rw [compute] at h
  cases hs : readSource t p.path p.isNew with
  | error e => simp [hs] at h
  | ok source =>
    simp only [hs, SourceText.edit] at h
    cases hl : applyEdits source.lines (source.prepare normalize p.edits) with
    | error e => simp [hl] at h
    | ok lines =>
      simp only [hl, Except.ok.injEq] at h
      exact ⟨source, lines, rfl, hl, h.symm⟩

theorem length_prepare (source : SourceText) (normalize : Bool) (edits : List TextEdit) :
    (source.prepare normalize edits).length = edits.length := by
  rw [SourceText.prepare, (sortEdits_perm _).length_eq]
  split <;> simp

/-- The records of a batch that worked are those of its files, one after the other. -/
theorem records_of_run {options : ApplyOptions} {records : List ChangeRecord}
    (h : (run t options ps).2 = .ok records) :
    ∃ cs : List Computed, ps.map (compute t options.normalize) = cs.map .ok ∧ records = cs.map (·.record) := by
  rcases run_cases t options ps with ⟨e, -, hrun⟩ | ⟨cs, hcs, hrun⟩
  · rw [hrun] at h
    cases h
  · refine ⟨cs, map_compute hcs, ?_⟩
    rw [hrun] at h
    split at h
    · exact (Except.ok.inj h).symm
    · cases hw : (writeAll t cs).2 with
      | error e => simp [hw, Except.map] at h
      | ok u => simpa [hw, Except.map] using h.symm

/-- `records` are the logs of a batch: one for each path that an entry asks to change, in the order of paths,
with the edits of all entries for the path as they were applied. -/
structure Recorded (t : FileTree) (root : Path) (normalize : Bool) (fs : List FileEdits)
    (records : List ChangeRecord) : Prop where
  ordered : records.Pairwise fun r s => r.path.compare s.path = .lt
  named : ∀ r ∈ records, ∃ f ∈ fs, isRelevant f = true ∧ r.path = resolvePath t root f.fileName
  complete : ∀ f ∈ fs, isRelevant f = true → ∃ r ∈ records, r.path.same (resolvePath t root f.fileName) = true
  log : ∀ r ∈ records, ∃ source, readSource t r.path (isNewFor t root fs r.path) = .ok source ∧
    r.entries.map (fun e => (e.line, e.column, e.newText)) =
      (sortEdits (if normalize then (editsFor t root fs r.path).map (Indent.normalize source.lines)
        else editsFor t root fs r.path)).map fun e => (e.startLine, some e.startOffset, e.newText)

/-- The record of a file. -/
theorem record_of_compute {normalize : Bool} {p : Pending} {c : Computed} (h : compute t normalize p = .ok c) :
    ∃ source, readSource t p.path p.isNew = .ok source ∧
      c.record = changeRecord source.lines (source.prepare normalize p.edits) p.path := by
  obtain ⟨source, lines, hs, -, rfl⟩ := compute_ok h
  exact ⟨source, hs, rfl⟩

theorem records_of_map_compute {normalize : Bool} {cs : List Computed}
    (h : ps.map (compute t normalize) = cs.map .ok) :
    cs.map (·.record.path) = ps.map (·.path) ∧
      ChangeRecord.countAll (cs.map (·.record)) = (ps.flatMap (·.edits)).length := by
  induction ps generalizing cs with
  | nil =>
    cases List.map_eq_nil_iff.mp h.symm
    exact ⟨rfl, rfl⟩
  | cons p ps ih =>
    cases cs with
    | nil => cases h
    | cons c cs =>
      rw [List.map_cons, List.map_cons, List.cons.injEq] at h
      obtain ⟨source, -, hrecord⟩ := record_of_compute h.1
      obtain ⟨hpaths, hcount⟩ := ih h.2
      rw [List.map_cons, List.map_cons, hpaths, List.map_cons, ChangeRecord.countAll, hcount, hrecord,
        List.flatMap_cons, List.length_append]
      refine ⟨rfl, ?_⟩
      rw [changeRecord, List.length_map, length_prepare]

theorem recorded_of_run {options : ApplyOptions} {fs : List FileEdits} {records : List ChangeRecord}
    (h : (run t options (group t root fs)).2 = .ok records) : Recorded t root options.normalize fs records := by
  obtain ⟨cs, hmap, rfl⟩ := records_of_run h
  obtain ⟨hpaths, -⟩ := records_of_map_compute hmap
  obtain ⟨hordered, hnamed, hcomplete⟩ := covers_group t root fs
  -- Each record is that of one file of the batch.
  have hfile : ∀ r ∈ cs.map (·.record), ∃ p ∈ group t root fs, ∃ source,
      readSource t p.path p.isNew = .ok source ∧
        r = changeRecord source.lines (source.prepare options.normalize p.edits) p.path := by
    intro r hr
    obtain ⟨c, hc, rfl⟩ := List.mem_map.mp hr
    have hmem : Except.ok c ∈ (group t root fs).map (compute t options.normalize) := hmap ▸ List.mem_map_of_mem hc
    obtain ⟨p, hp, hpc⟩ := List.mem_map.mp hmem
    exact ⟨p, hp, record_of_compute hpc⟩
  refine ⟨?_, ?_, ?_, ?_⟩
  · have : (cs.map (·.record.path)).Pairwise fun p q => p.compare q = .lt := hpaths ▸ List.pairwise_map.mpr hordered
    rwa [List.pairwise_map] at this ⊢
  · intro r hr
    obtain ⟨p, hp, source, -, rfl⟩ := hfile r hr
    exact hnamed p hp
  · intro f hf hrel
    obtain ⟨p, hp, hsame⟩ := hcomplete f hf hrel
    have hmem : p.path ∈ cs.map (·.record.path) := hpaths ▸ List.mem_map_of_mem hp
    obtain ⟨c, hc, hcp⟩ := List.mem_map.mp hmem
    exact ⟨c.record, List.mem_map_of_mem hc, hcp ▸ hsame⟩
  · intro r hr
    obtain ⟨p, hp, source, hsource, rfl⟩ := hfile r hr
    obtain ⟨hedits, hnew⟩ := edits_of_mem_group hp
    refine ⟨source, hnew ▸ hsource, ?_⟩
    rw [hedits, changeRecord, List.map_map]
    rfl

theorem countAll_of_run {options : ApplyOptions} {fs : List FileEdits} {records : List ChangeRecord}
    (h : (run t options (group t root fs)).2 = .ok records) :
    ChangeRecord.countAll records = (fs.flatMap (·.changes)).length := by
  obtain ⟨cs, hmap, rfl⟩ := records_of_run h
  rw [(records_of_map_compute hmap).2, (flatMap_edits_group t root fs).length_eq]
  simp only [List.length_flatMap, FileEdits.flat, List.length_map]

end Batch

/-- A batch that works has one record for each path that it is asked to change, in the order of paths, with all
edits of the path; and entries for different paths may come in any order. -/
theorem apply_conserves (w : Workspace) (root : Path) (options : ApplyOptions) (fs : List FileEdits) :
    ((w.apply root options fs).2.success = true →
      Batch.Recorded w.files root options.normalize fs (w.apply root options fs).2.files ∧
        (w.apply root options fs).2.totalEdits = (fs.flatMap (·.changes)).length) ∧
    ∀ fs', Batch.Rearranged w.files root fs fs' →
      (w.apply root options fs').2 = (w.apply root options fs).2 ∧
        (w.apply root options fs').1.files = (w.apply root options fs).1.files := by
  refine ⟨fun hok => ?_, fun fs' h => ?_⟩
  · rw [apply_report, Batch.success_reportOf] at hok
    obtain ⟨records, hrecords⟩ := hok
    rw [apply_report, hrecords, Report.totalEdits, Batch.files_reportOf]
    exact ⟨Batch.recorded_of_run hrecords, Batch.countAll_of_run hrecords⟩
  · rw [apply_report, apply_report, apply_files, apply_files, Batch.group_eq_of_rearranged h]
    exact ⟨rfl, rfl⟩

/-- Two spellings of one file, and a new file that may come first or last. -/
theorem apply_conserves_spellings :
    let t : FileTree := ⟨.dir [("a.ts", .file (Bytes.ofString "one") false)], [], {}⟩
    let e₁ : FileEdits := ⟨"a.ts", [⟨⟨1, 1⟩, ⟨1, 2⟩, ['O']⟩], false⟩
    let e₂ : FileEdits := ⟨"/a.ts", [⟨⟨1, 4⟩, ⟨1, 4⟩, ['!']⟩], false⟩
    let e₃ : FileEdits := ⟨"n.ts", [⟨⟨1, 1⟩, ⟨1, 1⟩, ['x']⟩], true⟩
    let w : Workspace := ⟨t, {}⟩
    let options : ApplyOptions := { preview := true }
    ((w.apply ⟨"/"⟩ options [e₁, e₂, e₃]).2.success = true ∧
      Batch.Rearranged t ⟨"/"⟩ [e₁, e₂, e₃] [e₃, e₁, e₂]) ∧
    Batch.Recorded t ⟨"/"⟩ false [e₁, e₂, e₃] (w.apply ⟨"/"⟩ options [e₁, e₂, e₃]).2.files ∧
      (w.apply ⟨"/"⟩ options [e₁, e₂, e₃]).2.totalEdits = 3 ∧
      (w.apply ⟨"/"⟩ options [e₃, e₁, e₂]).2 = (w.apply ⟨"/"⟩ options [e₁, e₂, e₃]).2 := by
  intro t e₁ e₂ e₃ w options
  have hold : t.trace true ⟨"/a.ts"⟩ = .ok (.found ["a.ts"] (.file (Bytes.ofString "one") false) false) := by
    show t.walk true 40 [] [.name "a.ts"] false = _
    rw [FileTree.walk]
    rfl
  have hfree : t.trace true ⟨"/n.ts"⟩ = .ok (.vacant [] "n.ts" false) := by
    show t.walk true 40 [] [.name "n.ts"] false = _
    rw [FileTree.walk]
    rfl
  have ha : ∀ name, name = "a.ts" ∨ name = "/a.ts" → Batch.resolvePath t ⟨"/"⟩ name = ⟨"/a.ts"⟩ := by
    rintro name (rfl | rfl) <;>
    · show t.canonicalOr ⟨"/a.ts"⟩ = _
      rw [FileTree.canonicalOr, FileTree.canonical, hold]
      rfl
  have hn : Batch.resolvePath t ⟨"/"⟩ "n.ts" = ⟨"/n.ts"⟩ := by
    show t.canonicalOr ⟨"/n.ts"⟩ = _
    rw [FileTree.canonicalOr, FileTree.canonical, hfree]
    rfl
  have hrearranged : Batch.Rearranged t ⟨"/"⟩ [e₁, e₂, e₃] [e₃, e₁, e₂] := by
    refine ⟨by decide, fun path => ?_⟩
    have h₁ : Batch.resolvesTo t ⟨"/"⟩ path e₁ = Path.same ⟨"/a.ts"⟩ path := by rw [Batch.resolvesTo, ha _ (.inl rfl)]
    have h₂ : Batch.resolvesTo t ⟨"/"⟩ path e₂ = Path.same ⟨"/a.ts"⟩ path := by rw [Batch.resolvesTo, ha _ (.inr rfl)]
    have h₃ : Batch.resolvesTo t ⟨"/"⟩ path e₃ = Path.same ⟨"/n.ts"⟩ path := by rw [Batch.resolvesTo, hn]
    simp only [List.filter_cons, List.filter_nil, h₁, h₂, h₃]
    cases hp : Path.same ⟨"/a.ts"⟩ path with
    | false => rfl
    | true =>
      rw [Path.same_comm, ← Path.same_congr hp]
      rfl
  have hgroup : Batch.group t ⟨"/"⟩ [e₁, e₂, e₃] =
      [⟨⟨"/a.ts"⟩, [⟨1, 1, 1, 2, ['O']⟩, ⟨1, 4, 1, 4, ['!']⟩], false⟩, ⟨⟨"/n.ts"⟩, [⟨1, 1, 1, 1, ['x']⟩], true⟩] := by
    show Batch.insert (Batch.resolvePath t ⟨"/"⟩ "n.ts") _ _ (Batch.insert (Batch.resolvePath t ⟨"/"⟩ "/a.ts") _ _
      (Batch.insert (Batch.resolvePath t ⟨"/"⟩ "a.ts") _ _ [])) = _
    rw [hn, ha _ (.inl rfl), ha _ (.inr rfl)]
    decide
  have hok : (w.apply ⟨"/"⟩ options [e₁, e₂, e₃]).2.success = true := by
    have hbytes : (Bytes.ofString "one").toString? = some "one" := by decide
    have hread₁ : t.readText ⟨"/a.ts"⟩ = .ok "one" := FileTree.readText_of_found hold rfl hbytes
    have hread₂ : t.readText ⟨"/n.ts"⟩ = .error .notFound := by
      simp only [FileTree.readText, FileTree.read, FileTree.find, show t.resolve true ⟨"/n.ts"⟩ = _ from hfree,
        FileTree.Place.node]
    have hsort₁ : sortEdits [⟨1, 1, 1, 2, ['O']⟩, ⟨1, 4, 1, 4, ['!']⟩] = [⟨1, 4, 1, 4, ['!']⟩, ⟨1, 1, 1, 2, ['O']⟩] :=
      List.mergeSort_of_pairwise (by decide)
    have hsort₂ : sortEdits [⟨1, 1, 1, 1, ['x']⟩] = [⟨1, 1, 1, 1, ['x']⟩] := List.mergeSort_of_pairwise (by decide)
    let c₁ : Batch.Computed := ⟨⟨"/a.ts"⟩, ⟨[['O', 'n', 'e', '!']], .lf⟩,
      ⟨"a.ts", ⟨"/a.ts"⟩, [⟨1, some 4, [], ['!']⟩, ⟨1, some 1, ['o'], ['O']⟩]⟩, false⟩
    let c₂ : Batch.Computed := ⟨⟨"/n.ts"⟩, ⟨[['x']], .lf⟩, ⟨"n.ts", ⟨"/n.ts"⟩, [⟨1, some 1, [], ['x']⟩]⟩, true⟩
    have hc : Batch.computeAll t false (Batch.group t ⟨"/"⟩ [e₁, e₂, e₃]) = .ok [c₁, c₂] := by
      rw [hgroup]
      simp only [Batch.computeAll, Batch.compute, Batch.readSource, hread₁, hread₂, SourceText.edit, SourceText.prepare,
        Bool.false_eq_true, if_false, hsort₁, hsort₂]
      rfl
    have hrun : Batch.run t options (Batch.group t ⟨"/"⟩ [e₁, e₂, e₃]) = (t, .ok [c₁.record, c₂.record]) := by
      rw [Batch.run, hc]
      rfl
    rw [apply_report, hrun, Batch.success_reportOf]
    exact ⟨_, rfl⟩
  obtain ⟨hlog, horder⟩ := apply_conserves w ⟨"/"⟩ options [e₁, e₂, e₃]
  exact ⟨⟨hok, hrearranged⟩, (hlog hok).1, (hlog hok).2, (horder _ hrearranged).1⟩

end Refactor
