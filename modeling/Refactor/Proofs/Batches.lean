import Refactor.Proofs.Files
import Refactor.Proofs.Grouping
import Refactor.Proofs.Refusals
import Refactor.Proofs.TextSessions

/-!
# What a batch changes

All files of a batch are edited in memory before the first is written, and then
written in the order of their paths up to the first that cannot be. The system may
refuse any of these writes, and leave a part of the file that it refuses.

* `computeAll_error_iff`: a batch is refused when a file cannot be read or one of
  its edits does not fit in its turn (`Fails`); `fails_of_misfits`: and when one does
  not fit the file as it is read, if edits do not get in the way of each other;
* `Changes`: the files that were written and the directories that were made on the
  way to new files; `writeAll_changes`: writing files changes nothing else;
* `writeAll_holds`: a file holds its text once it is written, as long as no later
  path denotes it; `writeAll_reaches`: files that are written have no faults;
* `writeAll_error`: a failure stops the writing; `writeFile_error`: what it leaves of
  the file (`Leftover`);
* `apply_atomic`: all of it for a whole batch, with and without preview.
-/

namespace Refactor

theorem Indent.normalize_span (lines : List Text) (e : TextEdit) :
    ∃ newText, Indent.normalize lines e = { e with newText := newText } := by
  rw [Indent.normalize]
  split
  · exact ⟨_, rfl⟩
  · exact ⟨e.newText, rfl⟩

namespace Batch

open FileTree (Grows)

/-! ## Editing in memory -/

/-- A file of a batch cannot be read, or one of its edits does not fit. -/
def Fails (t : FileTree) (normalize : Bool) (p : Pending) : Prop :=
  (∃ e, readSource t p.path p.isNew = .error e) ∨
    ∃ source, readSource t p.path p.isNew = .ok source ∧
      TextEdit.Refused source.lines (source.prepare normalize p.edits)

/-- A file of a batch that can be read, with edits that lie apart and run forward where they have a place, and one that
has no place in the text as it is read. -/
def Misfits (t : FileTree) (p : Pending) : Prop :=
  ∃ source, readSource t p.path p.isNew = .ok source ∧ p.edits.Pairwise TextEdit.Apart ∧
    (∀ e ∈ p.edits, e.Misplaced source.lines ∨ e.start ≤ e.stop) ∧ ∃ e ∈ p.edits, e.Misplaced source.lines

variable {t t' t'' : FileTree} {normalize : Bool} {p : Pending} {ps : List Pending} {c : Computed} {cs : List Computed}

theorem isLines_of_readSource {path : Path} {isNew : Bool} {source : SourceText}
    (h : readSource t path isNew = .ok source) : Text.IsLines source.lines := by
  rw [readSource] at h
  split at h
  · cases h
    exact (SourceText.held_parse _).isLines
  · split at h <;> cases h
    exact (SourceText.held_parse _).isLines

/-- Fitting the texts of edits to the indentation of the file leaves the edits where they are. -/
theorem fails_of_misfits (h : Misfits t p) : Fails t normalize p := by
  obtain ⟨source, hsource, hapart, hforward, hmis⟩ := h
  refine .inr ⟨source, hsource, ?_⟩
  have hl := (isLines_of_readSource hsource).no_newline
  rw [SourceText.prepare]
  cases normalize with
  | false => exact refused_of_apart hl hapart hforward hmis
  | true =>
    have hspan := Indent.normalize_span source.lines
    refine refused_of_apart hl (List.pairwise_map.mpr (hapart.imp fun {a b} hab => ?_)) (fun d hd => ?_) ?_
    · obtain ⟨x, hx⟩ := hspan a
      obtain ⟨y, hy⟩ := hspan b
      rw [hx, hy]
      exact hab
    · obtain ⟨e, he, rfl⟩ := List.mem_map.mp hd
      obtain ⟨x, hx⟩ := hspan e
      rw [hx]
      exact hforward e he
    · obtain ⟨e, he, hem⟩ := hmis
      refine ⟨_, List.mem_map_of_mem he, ?_⟩
      obtain ⟨x, hx⟩ := hspan e
      rw [hx]
      exact hem

theorem compute_error_iff : (∃ e, compute t normalize p = .error e) ↔ Fails t normalize p := by
  rw [compute, Fails]
  cases readSource t p.path p.isNew with
  | error e => exact ⟨fun _ => .inl ⟨e, rfl⟩, fun _ => ⟨e, rfl⟩⟩
  | ok source =>
    simp only [reduceCtorEq, exists_false, false_or, Except.ok.injEq, exists_eq_left', ← applyEdits_error_iff,
      SourceText.edit]
    cases applyEdits source.lines (source.prepare normalize p.edits) with
    | error err => exact ⟨fun _ => ⟨err, rfl⟩, fun _ => ⟨_, rfl⟩⟩
    | ok lines => constructor <;> rintro ⟨_, h⟩ <;> cases h

theorem path_of_compute (h : compute t normalize p = .ok c) : c.path = p.path ∧ c.isNew = p.isNew := by
  rw [compute] at h
  split at h
  · cases h
  split at h
  · cases h
    exact ⟨rfl, rfl⟩
  · cases h

theorem computeAll_error_iff : (∃ e, computeAll t normalize ps = .error e) ↔ ∃ p ∈ ps, Fails t normalize p := by
  induction ps with
  | nil => simp [computeAll]
  | cons p ps ih =>
    simp only [List.mem_cons, exists_eq_or_imp]
    rw [← ih, ← compute_error_iff, computeAll]
    cases compute t normalize p with
    | error e => exact ⟨fun _ => .inl ⟨e, rfl⟩, fun _ => ⟨e, rfl⟩⟩
    | ok c =>
      cases computeAll t normalize ps with
      | error e => exact ⟨fun _ => .inr ⟨e, rfl⟩, fun _ => ⟨e, rfl⟩⟩
      | ok cs => simp

theorem map_compute (h : computeAll t normalize ps = .ok cs) : ps.map (compute t normalize) = cs.map .ok := by
  induction ps generalizing cs with
  | nil =>
    cases h
    rfl
  | cons p ps ih =>
    rw [computeAll] at h
    cases hp : compute t normalize p with
    | error e => simp [hp] at h
    | ok c =>
      cases hps : computeAll t normalize ps with
      | error e => simp [hp, hps] at h
      | ok cs' =>
        simp only [hp, hps, Except.ok.injEq] at h
        rw [← h, List.map_cons, List.map_cons, hp, ih hps]

/-- The paths of the new files. -/
def newPaths (cs : List Computed) : List Path := (cs.filter (·.isNew)).map (·.path)

theorem newPaths_append (cs cs' : List Computed) : newPaths (cs ++ cs') = newPaths cs ++ newPaths cs' := by
  rw [newPaths, List.filter_append, List.map_append]
  rfl

theorem paths_of_map_compute (h : ps.map (compute t normalize) = cs.map .ok) :
    cs.map (·.path) = ps.map (·.path) ∧ newPaths cs = (ps.filter (·.isNew)).map (·.path) := by
  induction ps generalizing cs with
  | nil =>
    cases List.map_eq_nil_iff.mp h.symm
    exact ⟨rfl, rfl⟩
  | cons p ps ih =>
    cases cs with
    | nil => cases h
    | cons c cs =>
      rw [List.map_cons, List.map_cons, List.cons.injEq] at h
      obtain ⟨hpath, hnew⟩ := path_of_compute h.1
      obtain ⟨hpaths, hnews⟩ := ih h.2
      refine ⟨by rw [List.map_cons, List.map_cons, hpath, hpaths], ?_⟩
      rw [newPaths, List.filter_cons, List.filter_cons, hnew]
      split
      · rw [List.map_cons, List.map_cons, hpath, ← hnews, newPaths]
      · exact hnews

/-! ## Writing -/

/-- `t'` is `t` but for the files that the paths of `written` denote and for directories that were
missing on the way to the paths of `made`. -/
structure Changes (t t' : FileTree) (written made : List Path) : Prop where
  grows : Grows t t'
  look_eq : ∀ loc, (∀ p ∈ written, t.destination p ≠ some loc) → t'.look loc = t.look loc ∨
    t.look loc = none ∧ t'.look loc = some .dir ∧ ∃ p ∈ made, ∃ q : Path, q.IsAncestor p ∧ t.destination q = some loc

theorem Changes.refl (t : FileTree) : Changes t t [] [] := ⟨.refl t, fun _ _ => .inl rfl⟩

theorem Changes.trans {written written' made made' : List Path} (h : Changes t t' written made)
    (h' : Changes t' t'' written' made') : Changes t t'' (written ++ written') (made ++ made') := by
  refine ⟨h.grows.trans h'.grows, fun loc hloc => ?_⟩
  rw [List.forall_mem_append] at hloc
  -- A path that denotes the location after the first changes denoted it before them.
  have hloc' : ∀ p ∈ written', t'.destination p ≠ some loc := fun p hp he => hloc.2 p hp (h.grows.destination_eq he)
  rcases h.look_eq loc hloc.1 with h₁ | ⟨h₁, h₂, p, hp, q, hq, hd⟩
  · rw [← h₁]
    refine (h'.look_eq loc hloc').imp_right fun ⟨h₂, h₃, p, hp, q, hq, hd⟩ => ⟨h₂, h₃, p, ?_, q, hq, ?_⟩
    · exact List.mem_append_right _ hp
    · exact h.grows.destination_eq hd
  · rcases h'.look_eq loc hloc' with h₃ | ⟨h₃, -⟩
    · exact .inr ⟨h₁, h₃.trans h₂, p, List.mem_append_left _ hp, q, hq, hd⟩
    · rw [h₂] at h₃
      cases h₃

theorem Changes.mono {written written' made : List Path} (h : Changes t t' written made) (hw : written ⊆ written') :
    Changes t t' written' made := ⟨h.grows, fun loc hloc => h.look_eq loc fun p hp => hloc p (hw hp)⟩

/-- What is written into a file. -/
def Computed.content (c : Computed) : Bytes := Bytes.ofString (String.ofList c.text.join)

theorem prepareDir_changes (t : FileTree) (c : Computed) : Changes t (prepareDir t c).1 [] (newPaths [c]) := by
  rw [prepareDir]
  split
  · rename_i dir hnew hdir
    have hmade := FileTree.makeDirs_spec t dir
    have hchanges : Changes t (t.makeDirs dir).1 [] (newPaths [c]) := by
      refine ⟨hmade.grows, fun loc _ => ?_⟩
      refine (hmade.look_eq loc).imp_right fun ⟨h₁, h₂, q, hq, hd⟩ => ⟨h₁, h₂, c.path, ?_, q, ?_, hd⟩
      · simp [newPaths, hnew]
      · rcases hq with rfl | hq
        · exact .parent hdir
        · exact .above hdir hq
    split <;> rename_i heq <;> rw [heq] at hchanges <;> exact hchanges
  · exact ⟨.refl t, fun _ _ => .inl rfl⟩

/-- A path denotes a file with the content that the system let be written, and leads to that file whatever is written
to it later. -/
def Holds (t t' : FileTree) (p : Path) (content : Bytes) : Prop :=
  ∃ loc x, t.destination p = some loc ∧ t.faults.writing loc = none ∧ t'.look loc = some (.file content x) ∧
    ∀ t'' content' y, Grows t' t'' → t''.look loc = some (.file content' y) → t''.find p = .ok (loc, .file content' y)

/-- What a write that fails leaves at a location: what was there, a directory that was missing, or what the fault at the
location says. -/
def Leftover (t t' : FileTree) (loc : List String) : Prop :=
  (t'.look loc = t.look loc ∨ t.look loc = none ∧ t'.look loc = some .dir) ∨
    ∃ e left x, t.faults.writing loc = some ⟨e, some left⟩ ∧ t'.look loc = some (.file left x)

theorem changes_set {path : Path} {loc : List String} {x : Bool} (h : t.Target path loc x) (content : Bytes) :
    Changes t (t.set loc (.file content x)) [path] [] := by
  refine ⟨h.grows content, fun l hl => .inl ?_⟩
  rw [(h.puts content).look_eq, if_neg]
  rintro rfl
  exact hl _ List.mem_cons_self h.destination_eq

theorem writeFile_of_write {u : Unit} {outcome : Except OsError Unit} (hd : prepareDir t c = (t', .ok u))
    (hw : t'.write c.path c.content = (t'', outcome)) : writeFile t c = (t'', outcome.mapError (.ioAt c.path)) := by
  rw [Computed.content] at hw
  cases outcome <;> simp only [writeFile, hd, hw] <;> rfl

/-- Writing a file makes its directory and writes it, or fails at one of the two. -/
theorem writeFile_cases (t : FileTree) (c : Computed) :
    (∃ t₁ e, prepareDir t c = (t₁, .error e) ∧ writeFile t c = (t₁, .error e)) ∨
    ∃ t₁ t₂, prepareDir t c = (t₁, .ok ()) ∧
      (t₁.write c.path c.content = (t₂, .ok ()) ∧ writeFile t c = (t₂, .ok ()) ∨
        ∃ e, t₁.write c.path c.content = (t₂, .error e) ∧ writeFile t c = (t₂, .error (.ioAt c.path e))) := by
  rcases hprep : prepareDir t c with ⟨t₁, e | u⟩
  · exact .inl ⟨t₁, e, rfl, by rw [writeFile, hprep]⟩
  · rcases hwrite : t₁.write c.path c.content with ⟨t₂, e | u⟩
    · exact .inr ⟨t₁, t₂, rfl, .inr ⟨e, hwrite, writeFile_of_write hprep hwrite⟩⟩
    · exact .inr ⟨t₁, t₂, rfl, .inl ⟨hwrite, writeFile_of_write hprep hwrite⟩⟩

theorem writeFile_ok {u : Unit} (h : writeFile t c = (t', .ok u)) :
    Changes t t' [c.path] (newPaths [c]) ∧ Holds t t' c.path c.content := by
  have hprep := prepareDir_changes t c
  rcases writeFile_cases t c with ⟨t₁, e, -, hfile⟩ | ⟨t₁, t₂, hdir, ⟨hwrite, hfile⟩ | ⟨e, -, hfile⟩⟩
  · rw [hfile] at h
    cases h
  · rw [hfile] at h
    cases h
    rw [hdir] at hprep
    obtain ⟨loc, x, htarget, hfault, rfl⟩ := FileTree.write_ok hwrite
    have hgrows := htarget.grows c.content
    refine ⟨?_, loc, x, hprep.grows.destination_eq htarget.destination_eq, hprep.grows.faults_eq ▸ hfault, ?_,
      fun t'' _ _ hg => htarget.find_eq t'' _ _ (hgrows.trans hg)⟩
    · have := hprep.trans (changes_set htarget c.content)
      rwa [List.nil_append, List.append_nil] at this
    · rw [(htarget.puts _).look_eq, if_pos rfl]
  · rw [hfile] at h
    cases h

theorem writeFile_error {e : Failure} (h : writeFile t c = (t', .error e)) :
    Changes t t' [c.path] (newPaths [c]) ∧ ∀ loc, Leftover t t' loc := by
  have hprep := prepareDir_changes t c
  -- As long as nothing is written, only directories are new.
  have hdirs : ∀ {t₁}, Changes t t₁ [] (newPaths [c]) →
      Changes t t₁ [c.path] (newPaths [c]) ∧ ∀ loc, Leftover t t₁ loc := fun hchanges =>
    ⟨hchanges.mono (List.nil_subset _), fun loc =>
      .inl ((hchanges.look_eq loc fun _ hp => absurd hp List.not_mem_nil).imp_right fun hmade => ⟨hmade.1, hmade.2.1⟩)⟩
  rcases writeFile_cases t c with ⟨t₁, e', hdir, hfile⟩ | ⟨t₁, t₂, hdir, ⟨-, hfile⟩ | ⟨e', hwrite, hfile⟩⟩
  · rw [hfile] at h
    cases h
    rw [hdir] at hprep
    exact hdirs hprep
  · rw [hfile] at h
    cases h
  · rw [hfile] at h
    cases h
    rw [hdir] at hprep
    obtain ⟨hchanges, hleft⟩ := hdirs hprep
    rcases FileTree.write_error hwrite with rfl | ⟨loc, x, left, htarget, hfault, rfl⟩
    · exact ⟨hchanges, hleft⟩
    · refine ⟨?_, fun l => ?_⟩
      · have := hprep.trans (changes_set htarget left)
        rwa [List.nil_append, List.append_nil] at this
      · by_cases hl : l = loc
        · subst hl
          refine .inr ⟨e', left, x, hprep.grows.faults_eq ▸ hfault, ?_⟩
          rw [(htarget.puts _).look_eq, if_pos rfl]
        · rw [Leftover, (htarget.puts left).look_eq, if_neg hl]
          exact hleft l

theorem Leftover.of_changes {loc : List String} {written made : List Path} (h : Leftover t' t'' loc)
    (hchanges : Changes t t' written made) (hfree : ∀ q ∈ written, t.destination q ≠ some loc) : Leftover t t'' loc := by
  rcases h with hlook | ⟨e, left, x, hfault, hleft⟩
  · left
    rcases hchanges.look_eq loc hfree with h₁ | ⟨h₁, h₂, -⟩
    · rwa [← h₁]
    · rcases hlook with h₃ | ⟨h₃, -⟩
      · exact .inr ⟨h₁, h₃.trans h₂⟩
      · rw [h₂] at h₃
        cases h₃
  · exact .inr ⟨e, left, x, hchanges.grows.faults_eq ▸ hfault, hleft⟩

/-- A file keeps its text while others are written. -/
theorem Holds.keep {path : Path} {content : Bytes} {written made : List Path} (h : Holds t t' path content)
    (hg : Grows t t') (hchanges : Changes t' t'' written made)
    (hne : ∀ q ∈ written, ∀ loc, t.destination path = some loc → t.destination q ≠ some loc) :
    Holds t t'' path content := by
  obtain ⟨loc, x, hdest, hfault, hlook, hfind⟩ := h
  refine ⟨loc, x, hdest, hfault, ?_, fun t₃ _ _ hg' => hfind t₃ _ _ (hchanges.grows.trans hg')⟩
  have hfree : ∀ q ∈ written, t'.destination q ≠ some loc := fun q hq he =>
    hne q hq loc hdest (hg.destination_eq he)
  -- A file at the location keeps directories away.
  rcases hchanges.look_eq loc hfree with h₁ | ⟨h₁, -⟩
  · exact h₁.trans hlook
  · rw [hlook] at h₁
    cases h₁

theorem writeAll_cons_ok {u : Unit} (h : writeAll t (c :: cs) = (t', .ok u)) :
    ∃ t₁, writeFile t c = (t₁, .ok ()) ∧ writeAll t₁ cs = (t', .ok ()) := by
  rw [writeAll] at h
  split at h
  · rename_i t₁ _ heq
    exact ⟨t₁, heq, h⟩
  · cases h

/-- Writing files changes these files and makes directories on the way to new ones. -/
theorem writeAll_changes {u : Unit} (h : writeAll t cs = (t', .ok u)) :
    Changes t t' (cs.map (·.path)) (newPaths cs) := by
  induction cs generalizing t with
  | nil =>
    cases h
    exact .refl _
  | cons c cs ih =>
    obtain ⟨t₁, hc, hcs⟩ := writeAll_cons_ok h
    rw [← List.singleton_append, newPaths_append]
    exact (writeFile_ok hc).1.trans (ih hcs)

/-- No two of the paths denote one location. -/
def Separate (t : FileTree) (paths : List Path) : Prop :=
  paths.Pairwise fun p q => t.destination p = t.destination q → t.destination p = none

theorem Separate.ne {paths paths' : List Path} (hs : Separate t (paths ++ paths')) {q q' : Path} (hq : q ∈ paths)
    (hq' : q' ∈ paths') {loc : List String} (hloc : t.destination q = some loc) : t.destination q' ≠ some loc := by
  intro he
  have hnone := (List.pairwise_append.mp hs).2.2 q hq q' hq' (hloc.trans he.symm)
  rw [hloc] at hnone
  cases hnone

/-- A file holds its text once it is written, if no file that is written later is the same. -/
theorem writeAll_holds {u : Unit} {done later : List Computed} (h : writeAll t (done ++ c :: later) = (t', .ok u))
    (hlater : ∀ q ∈ later.map (·.path), ∀ loc, t.destination c.path = some loc → t.destination q ≠ some loc) :
    Holds t t' c.path c.content := by
  induction done generalizing t with
  | nil =>
    obtain ⟨t₁, hc, hcs⟩ := writeAll_cons_ok h
    obtain ⟨hchanges, hholds⟩ := writeFile_ok hc
    exact hholds.keep hchanges.grows (writeAll_changes hcs) hlater
  | cons d done ih =>
    obtain ⟨t₁, hd, hrest⟩ := writeAll_cons_ok h
    have hg := (writeFile_ok hd).1.grows
    obtain ⟨loc, x, hdest, hfault, hlook, hfind⟩ := ih hrest fun q hq loc hloc he =>
      hlater q hq loc (hg.destination_eq hloc) (hg.destination_eq he)
    exact ⟨loc, x, hg.destination_eq hdest, hg.faults_eq ▸ hfault, hlook, hfind⟩

/-- Files that are written all denote locations that the system lets be written. -/
theorem writeAll_reaches {u : Unit} (h : writeAll t cs = (t', .ok u)) :
    ∀ c ∈ cs, ∃ loc, t.destination c.path = some loc ∧ t.faults.writing loc = none := by
  induction cs generalizing t with
  | nil => exact fun c hc => absurd hc List.not_mem_nil
  | cons c cs ih =>
    obtain ⟨t₁, hc, hcs⟩ := writeAll_cons_ok h
    obtain ⟨hchanges, loc, x, hdest, hfault, -⟩ := writeFile_ok hc
    refine List.forall_mem_cons.mpr ⟨⟨loc, hdest, hfault⟩, fun d hd => ?_⟩
    obtain ⟨loc', hdest', hfault'⟩ := ih hcs d hd
    exact ⟨loc', hchanges.grows.destination_eq hdest', hchanges.grows.faults_eq ▸ hfault'⟩

/-- A failure stops the writing: the files before it are written, and those after it are not reached. -/
theorem writeAll_error {e : Failure} (h : writeAll t cs = (t', .error e)) :
    ∃ done c later t₁, cs = done ++ c :: later ∧ writeAll t done = (t₁, .ok ()) ∧ writeFile t₁ c = (t', .error e) := by
  induction cs generalizing t with
  | nil => cases h
  | cons c cs ih =>
    rw [writeAll] at h
    split at h
    · rename_i t₁ _ heq
      obtain ⟨done, c', later, t₂, hsplit, hdone, hfail⟩ := ih h
      refine ⟨c :: done, c', later, t₂, by rw [hsplit]; rfl, ?_, hfail⟩
      rw [writeAll, heq]
      exact hdone
    · rename_i heq
      cases h
      exact ⟨[], c, cs, _, rfl, rfl, heq⟩

/-! ## Whole batches -/

/-- A file of a batch holds its computed text: its path leads to that text, where it denoted before. -/
def Written (t t' : FileTree) (normalize : Bool) (p : Pending) : Prop :=
  ∃ c loc x, compute t normalize p = .ok c ∧ t.destination p.path = some loc ∧
    t'.find p.path = .ok (loc, .file c.content x)

/-- `t'` is what a batch that worked leaves of `t`: every file holds its computed text, and nothing else changed. -/
structure Installed (t t' : FileTree) (normalize : Bool) (ps : List Pending) : Prop where
  changes : Changes t t' (ps.map (·.path)) ((ps.filter (·.isNew)).map (·.path))
  written : ∀ p ∈ ps, Written t t' normalize p

/-- `t'` is what a batch leaves of `t` when the files `before` are written and `p` cannot be. -/
structure Stopped (t t' : FileTree) (normalize : Bool) (before : List Pending) (p : Pending)
    (after : List Pending) : Prop where
  fails : ∃ done c t₁ e, before.map (compute t normalize) = done.map .ok ∧ compute t normalize p = .ok c ∧
    writeAll t done = (t₁, .ok ()) ∧ writeFile t₁ c = (t', .error e)
  changes : Changes t t' ((before ++ [p]).map (·.path)) (((before ++ [p]).filter (·.isNew)).map (·.path))
  written : ∀ q ∈ before, Written t t' normalize q
  /-- At the place of the file that failed is what was there, or what the fault says. -/
  leftover : ∀ loc, t.destination p.path = some loc → Leftover t t' loc
  /-- Nothing is written at the places of later files. A directory that was missing on the way to an earlier file can be
  there. -/
  unwritten : ∀ q ∈ after, ∀ loc, t.destination q.path = some loc →
    t'.look loc = t.look loc ∨ t.look loc = none ∧ t'.look loc = some .dir

theorem written_of_holds (hc : compute t normalize p = .ok c) (h : Holds t t' c.path c.content) :
    Written t t' normalize p := by
  obtain ⟨loc, x, hdest, -, hlook, hfind⟩ := h
  rw [(path_of_compute hc).1] at hdest hfind
  exact ⟨c, loc, x, hc, hdest, hfind t' _ x (.refl t') hlook⟩

/-- A file of a batch that was written holds its text, if no file after it is the same. -/
theorem holds_of_writeAll {u : Unit} {before after : List Pending}
    (hc : (before ++ p :: after).map (compute t normalize) = cs.map .ok) (hw : writeAll t cs = (t', .ok u))
    (hafter : ∀ q ∈ after.map (·.path), ∀ loc, t.destination p.path = some loc → t.destination q ≠ some loc) :
    ∃ c, compute t normalize p = .ok c ∧ Holds t t' c.path c.content := by
  rw [List.map_append, List.map_cons] at hc
  obtain ⟨done, rest, rfl, -, hrest⟩ := List.map_eq_append_iff.mp hc.symm
  obtain ⟨c, later, rfl, hp, hlater⟩ := List.map_eq_cons_iff.mp hrest
  refine ⟨c, hp.symm, writeAll_holds hw ?_⟩
  rwa [(paths_of_map_compute hlater.symm).1, (path_of_compute hp.symm).1]

theorem reaches_of_writeAll {u : Unit} (hc : ps.map (compute t normalize) = cs.map .ok)
    (hw : writeAll t cs = (t', .ok u)) : ∀ p ∈ ps, ∃ loc, t.destination p.path = some loc ∧ t.faults.writing loc = none := by
  intro p hp
  have hmem : p.path ∈ cs.map (·.path) := (paths_of_map_compute hc).1 ▸ List.mem_map_of_mem hp
  obtain ⟨c, hc, hpath⟩ := List.mem_map.mp hmem
  exact hpath ▸ writeAll_reaches hw c hc

theorem installed_of_writeAll {u : Unit} (hc : computeAll t normalize ps = .ok cs) (hw : writeAll t cs = (t', .ok u))
    (hs : Separate t (ps.map (·.path))) : Installed t t' normalize ps := by
  have hmap := map_compute hc
  obtain ⟨hpaths, hnews⟩ := paths_of_map_compute hmap
  refine ⟨hpaths ▸ hnews ▸ writeAll_changes hw, fun p hp => ?_⟩
  obtain ⟨before, after, rfl⟩ := List.append_of_mem hp
  rw [List.append_cons, List.map_append, List.map_append] at hs
  obtain ⟨c, hpc, hholds⟩ := holds_of_writeAll hmap hw fun q hq _ =>
    hs.ne (List.mem_append_right _ List.mem_cons_self) hq
  exact written_of_holds hpc hholds

/-- Files that are written keep their texts while the next one is changed, which is none of them. -/
theorem written_of_changes {u : Unit} {before after : List Pending} {made : List Path}
    (hs : Separate t ((before ++ p :: after).map (·.path))) (hc : before.map (compute t normalize) = cs.map .ok)
    (hw : writeAll t cs = (t', .ok u)) (hchanges : Changes t' t'' [p.path] made) :
    ∀ q ∈ before, Written t t'' normalize q := by
  intro q hq
  obtain ⟨first, second, rfl⟩ := List.append_of_mem hq
  have hs' : Separate t ((first ++ [q]).map (·.path) ++ (second.map (·.path) ++ p.path :: after.map (·.path))) := by
    simpa using hs
  have hne : ∀ q' ∈ second.map (·.path) ++ p.path :: after.map (·.path), ∀ loc,
      t.destination q.path = some loc → t.destination q' ≠ some loc := fun q' hq' loc =>
    hs'.ne (List.mem_map_of_mem List.mem_concat_self) hq'
  obtain ⟨c, hqc, hholds⟩ := holds_of_writeAll hc hw fun q' hq' => hne q' (List.mem_append_left _ hq')
  refine written_of_holds hqc (hholds.keep (writeAll_changes hw).grows hchanges ?_)
  rw [(path_of_compute hqc).1, List.forall_mem_singleton]
  exact hne p.path (List.mem_append_right _ List.mem_cons_self)

theorem stopped_of_writeAll {e : Failure} (hc : computeAll t normalize ps = .ok cs)
    (hw : writeAll t cs = (t', .error e)) (hs : Separate t (ps.map (·.path))) :
    ∃ before p after, ps = before ++ p :: after ∧ Stopped t t' normalize before p after := by
  obtain ⟨done, c, later, t₁, rfl, hdone, hfail⟩ := writeAll_error hw
  have hmap := map_compute hc
  rw [List.map_append, List.map_eq_append_iff] at hmap
  obtain ⟨before, rest, rfl, hbefore, hrest⟩ := hmap
  rw [List.map_cons, List.map_eq_cons_iff] at hrest
  obtain ⟨p, after, rfl, hp, -⟩ := hrest
  obtain ⟨hlast, hleft⟩ := writeFile_error hfail
  have hreached : (before ++ [p]).map (compute t normalize) = (done ++ [c]).map .ok := by
    rw [List.map_append, List.map_append, hbefore, List.map_singleton, List.map_singleton, hp]
  have hchanges : Changes t t' ((before ++ [p]).map (·.path)) (((before ++ [p]).filter (·.isNew)).map (·.path)) := by
    obtain ⟨hpaths, hnews⟩ := paths_of_map_compute hreached
    rw [← hpaths, ← hnews, newPaths_append, List.map_append, List.map_singleton]
    exact (writeAll_changes hdone).trans hlast
  refine ⟨before, p, after, rfl, ⟨done, c, t₁, e, hbefore, hp, hdone, hfail⟩, hchanges, fun q hq => ?_,
    fun loc hloc => ?_, fun q hq loc hloc => ?_⟩
  · rw [(path_of_compute hp).1] at hlast
    exact written_of_changes hs hbefore hdone hlast q hq
  · rw [List.map_append] at hs
    refine (hleft loc).of_changes (writeAll_changes hdone) fun path hpath he => ?_
    rw [(paths_of_map_compute hbefore).1] at hpath
    exact hs.ne hpath List.mem_cons_self he hloc
  · rw [List.append_cons, List.map_append] at hs
    refine (hchanges.look_eq loc fun path hpath he => ?_).imp_right fun hmade => ⟨hmade.1, hmade.2.1⟩
    exact hs.ne hpath (List.mem_map_of_mem hq) he hloc

theorem success_withWarning (r : Report) (w : String) : (r.withWarning w).success = r.success := by
  rw [Report.withWarning]
  split <;> rfl

theorem files_withWarning (r : Report) (w : String) : (r.withWarning w).files = r.files := by
  rw [Report.withWarning]
  split <;> rfl

theorem success_reportOf {options : ApplyOptions} {outcome : Attempt (List ChangeRecord)} :
    (reportOf options outcome).success = true ↔ ∃ records, outcome = .ok records := by
  cases outcome with
  | ok records => exact ⟨fun _ => ⟨records, rfl⟩, fun _ => success_withWarning _ _⟩
  | error e =>
    refine ⟨fun h => absurd h Bool.false_ne_true, ?_⟩
    rintro ⟨records, h⟩
    cases h

theorem not_success_reportOf {options : ApplyOptions} {outcome : Attempt (List ChangeRecord)} :
    (reportOf options outcome).success = false ↔ ∃ e, outcome = .error e := by
  rw [Bool.eq_false_iff, ne_eq, success_reportOf]
  cases outcome <;> simp

theorem files_reportOf (options : ApplyOptions) (records : List ChangeRecord) :
    (reportOf options (.ok records)).files = records := files_withWarning _ _

/-- A batch is refused, or previewed, or written. -/
theorem run_cases (t : FileTree) (options : ApplyOptions) (ps : List Pending) :
    (∃ e, computeAll t options.normalize ps = .error e ∧ run t options ps = (t, .error e)) ∨
    ∃ cs, computeAll t options.normalize ps = .ok cs ∧ run t options ps =
      if options.preview then (t, .ok (cs.map (·.record)))
      else ((writeAll t cs).1, (writeAll t cs).2.map fun _ => cs.map (·.record)) := by
  rw [run]
  cases hc : computeAll t options.normalize ps with
  | error e => exact .inl ⟨e, rfl, rfl⟩
  | ok cs =>
    refine .inr ⟨cs, rfl, ?_⟩
    dsimp only
    obtain ⟨t', outcome⟩ := writeAll t cs
    cases outcome <;> rfl

theorem run_of_fails {options : ApplyOptions} (h : ∃ p ∈ ps, Fails t options.normalize p) :
    ∃ e, run t options ps = (t, .error e) := by
  obtain ⟨e, he⟩ := computeAll_error_iff.mpr h
  rcases run_cases t options ps with ⟨e', -, hrun⟩ | ⟨cs, hcs, -⟩
  · exact ⟨e', hrun⟩
  · rw [he] at hcs
    cases hcs

theorem run_preview_files (t : FileTree) {options : ApplyOptions} (ps : List Pending) (h : options.preview = true) :
    (run t options ps).1 = t := by
  rcases run_cases t options ps with ⟨e, -, hrun⟩ | ⟨cs, -, hrun⟩
  · rw [hrun]
  · rw [hrun, if_pos h]

/-- A preview lists the records of the batch itself. -/
theorem run_preview_records {options : ApplyOptions} {records : List ChangeRecord}
    (h : (run t { options with preview := false } ps).2 = .ok records) :
    (run t { options with preview := true } ps).2 = .ok records := by
  rcases run_cases t { options with preview := false } ps with ⟨e, -, hrun⟩ | ⟨cs, hcs, hrun⟩
  · rw [hrun] at h
    cases h
  · have hrecords : cs.map (·.record) = records := by
      rw [hrun] at h
      cases hw : (writeAll t cs).2 with
      | error e => simp [hw, Except.map] at h
      | ok _ => simpa [hw, Except.map] using h
    rcases run_cases t { options with preview := true } ps with ⟨e, he, -⟩ | ⟨cs', hcs', hrun'⟩
    · rw [hcs] at he
      cases he
    · rw [hcs] at hcs'
      cases hcs'
      rw [hrun', if_pos rfl, hrecords]

theorem run_of_writeAll {options : ApplyOptions} (hp : options.preview = false)
    (hc : computeAll t options.normalize ps = .ok cs) :
    run t options ps = ((writeAll t cs).1, (writeAll t cs).2.map fun _ => cs.map (·.record)) := by
  rcases run_cases t options ps with ⟨e, he, -⟩ | ⟨cs', hcs', hrun⟩
  · rw [hc] at he
    cases he
  · rw [hc] at hcs'
    cases hcs'
    rw [hrun, hp, if_neg Bool.false_ne_true]

/-- A batch that works wrote all its files. -/
theorem run_ok {options : ApplyOptions} {records : List ChangeRecord} (hp : options.preview = false)
    (h : (run t options ps).2 = .ok records) :
    ∃ cs, computeAll t options.normalize ps = .ok cs ∧ writeAll t cs = ((run t options ps).1, .ok ()) := by
  rcases run_cases t options ps with ⟨e, -, hrun⟩ | ⟨cs, hcs, hrun⟩
  · rw [hrun] at h
    cases h
  · rw [hp] at hrun
    rw [hrun] at h ⊢
    cases hw : (writeAll t cs).2 with
    | error e => simp [hw, Except.map] at h
    | ok u => exact ⟨cs, hcs, Prod.ext rfl hw⟩

/-- A batch that fails was refused, or could not write one of its files. -/
theorem run_error {options : ApplyOptions} {e : Failure} (hp : options.preview = false)
    (h : (run t options ps).2 = .error e) : (∃ p ∈ ps, Fails t options.normalize p) ∨
      ∃ cs e', computeAll t options.normalize ps = .ok cs ∧ writeAll t cs = ((run t options ps).1, .error e') := by
  rcases run_cases t options ps with ⟨e', he, -⟩ | ⟨cs, hcs, hrun⟩
  · exact .inl (computeAll_error_iff.mp ⟨e', he⟩)
  · rw [hp] at hrun
    rw [hrun] at h ⊢
    cases hw : (writeAll t cs).2 with
    | error e' => exact .inr ⟨cs, e', hcs, Prod.ext rfl hw⟩
    | ok u => simp [hw, Except.map] at h

/-- What a batch with the files `touched` does to `t`, given what it leaves and reports with and without preview. -/
structure Atomic (t : FileTree) (normalize : Bool) (touched : List Pending) (out : Bool → Workspace × Report) : Prop where
  /-- A file that cannot be read, or an edit that does not fit, refuses the batch. -/
  refused : (∃ p ∈ touched, Fails t normalize p ∨ Misfits t p) →
    ∀ preview, (out preview).2.success = false ∧ (out preview).1.files = t
  /-- A preview changes nothing, and lists what the batch itself would. -/
  preview_files : (out true).1.files = t
  preview_records : (out false).2.success = true →
    (out true).2.success = true ∧ (out true).2.files = (out false).2.files
  /-- A file that the system does not let be written fails the batch. -/
  unwritable : ∀ p ∈ touched, ∀ loc, t.destination p.path = some loc → t.faults.writing loc ≠ none →
    (out false).2.success = false
  installed : Separate t (touched.map (·.path)) → (out false).2.success = true →
    Installed t (out false).1.files normalize touched
  stopped : Separate t (touched.map (·.path)) → (out false).2.success = false →
    (∃ p ∈ touched, Fails t normalize p) ∨
      ∃ before p after, touched = before ++ p :: after ∧ Stopped t (out false).1.files normalize before p after

end Batch

theorem apply_files (w : Workspace) (root : Path) (options : ApplyOptions) (fs : List FileEdits) :
    (w.apply root options fs).1.files = (Batch.run w.files options (Batch.group w.files root fs)).1 := rfl

theorem apply_report (w : Workspace) (root : Path) (options : ApplyOptions) (fs : List FileEdits) :
    (w.apply root options fs).2 =
      Batch.reportOf options (Batch.run w.files options (Batch.group w.files root fs)).2 := rfl

theorem apply_success_iff {w : Workspace} {root : Path} {options : ApplyOptions} {fs : List FileEdits} :
    (w.apply root options fs).2.success = true ↔
      ∃ records, (Batch.run w.files options (Batch.group w.files root fs)).2 = .ok records := by
  rw [apply_report, Batch.success_reportOf]

theorem apply_failure_iff {w : Workspace} {root : Path} {options : ApplyOptions} {fs : List FileEdits} :
    (w.apply root options fs).2.success = false ↔
      ∃ e, (Batch.run w.files options (Batch.group w.files root fs)).2 = .error e := by
  rw [apply_report, Batch.not_success_reportOf]

/-- Every batch installs all its files or is refused or stops at a write that fails, wherever the system lets reading and
writing fail. -/
theorem apply_atomic (w : Workspace) (root : Path) (options : ApplyOptions) (fs : List FileEdits) :
    let touched := Batch.group w.files root fs
    Batch.Covers w.files root fs touched ∧
      Batch.Atomic w.files options.normalize touched fun preview => w.apply root { options with preview := preview } fs := by
  intro touched
  refine ⟨Batch.covers_group w.files root fs, ?_, Batch.run_preview_files _ _ rfl, ?_, ?_, ?_, ?_⟩
  · rintro ⟨p, hp, hfails⟩ preview
    have hfails : Batch.Fails w.files options.normalize p := hfails.elim id Batch.fails_of_misfits
    obtain ⟨e, he⟩ := @Batch.run_of_fails w.files touched { options with preview := preview } ⟨p, hp, hfails⟩
    rw [apply_failure_iff, apply_files, he]
    exact ⟨⟨e, rfl⟩, rfl⟩
  · intro hok
    obtain ⟨records, hrecords⟩ := apply_success_iff.mp hok
    have hpreview := Batch.run_preview_records hrecords
    refine ⟨apply_success_iff.mpr ⟨records, hpreview⟩, ?_⟩
    rw [apply_report, apply_report, hrecords, hpreview, Batch.files_reportOf, Batch.files_reportOf]
  · intro p hp loc hloc hfault
    rw [Bool.eq_false_iff]
    intro hok
    obtain ⟨records, hrecords⟩ := apply_success_iff.mp hok
    obtain ⟨cs, hcs, hwrite⟩ := Batch.run_ok rfl hrecords
    obtain ⟨loc', hloc', hnone⟩ := Batch.reaches_of_writeAll (Batch.map_compute hcs) hwrite p hp
    rw [hloc] at hloc'
    cases hloc'
    exact hfault hnone
  · intro hs hok
    obtain ⟨records, hrecords⟩ := apply_success_iff.mp hok
    obtain ⟨cs, hcs, hwrite⟩ := Batch.run_ok rfl hrecords
    exact Batch.installed_of_writeAll hcs hwrite hs
  · intro hs hfail
    obtain ⟨e, he⟩ := apply_failure_iff.mp hfail
    refine (Batch.run_error rfl he).imp_right fun hstop => ?_
    obtain ⟨cs, e', hcs, hwrite⟩ := hstop
    exact Batch.stopped_of_writeAll hcs hwrite hs

/-! ## A disk that is full -/

namespace Batch.FullDisk

/-- Two files on a disk with faults. -/
def disk (writing : List String → Option WriteFault) : FileTree :=
  ⟨.dir [("b.ts", .file (Bytes.ofString "one") false), ("c.ts", .file (Bytes.ofString "two") false)], [],
    { writing := writing }⟩

/-- No more than a byte of `b.ts` can be written. -/
def full (loc : List String) : Option WriteFault :=
  if loc = ["b.ts"] then some ⟨.errno 28, some (Bytes.ofString "O")⟩ else none

/-- Edits of both files, and a new file in a directory that is not there. -/
def batch : List FileEdits :=
  [⟨"c.ts", [⟨⟨1, 1⟩, ⟨1, 4⟩, ['T', 'W', 'O']⟩], false⟩, ⟨"a/n.ts", [⟨⟨1, 1⟩, ⟨1, 1⟩, ['n']⟩], true⟩,
    ⟨"b.ts", [⟨⟨1, 1⟩, ⟨1, 4⟩, ['O', 'N', 'E']⟩], false⟩]

def fileA : Pending := ⟨⟨"/a/n.ts"⟩, [⟨1, 1, 1, 1, ['n']⟩], true⟩
def fileB : Pending := ⟨⟨"/b.ts"⟩, [⟨1, 1, 1, 4, ['O', 'N', 'E']⟩], false⟩
def fileC : Pending := ⟨⟨"/c.ts"⟩, [⟨1, 1, 1, 4, ['T', 'W', 'O']⟩], false⟩

def textA : Computed :=
  ⟨⟨"/a/n.ts"⟩, ⟨[['n']], .lf⟩, ⟨"n.ts", ⟨"/a/n.ts"⟩, [⟨1, some 1, [], ['n']⟩]⟩, true⟩
def textB : Computed :=
  ⟨⟨"/b.ts"⟩, ⟨[['O', 'N', 'E']], .lf⟩, ⟨"b.ts", ⟨"/b.ts"⟩, [⟨1, some 1, ['o', 'n', 'e'], ['O', 'N', 'E']⟩]⟩, false⟩
def textC : Computed :=
  ⟨⟨"/c.ts"⟩, ⟨[['T', 'W', 'O']], .lf⟩, ⟨"c.ts", ⟨"/c.ts"⟩, [⟨1, some 1, ['t', 'w', 'o'], ['T', 'W', 'O']⟩]⟩, false⟩

variable (writing : List String → Option WriteFault)

theorem trace_a : (disk writing).trace true ⟨"/a/n.ts"⟩ = .error .notFound := by
  show (disk writing).walk true 40 [] [.name "a", .name "n.ts"] false = _
  rw [FileTree.walk]
  rfl

theorem trace_b : (disk writing).trace true ⟨"/b.ts"⟩ = .ok (.found ["b.ts"] (.file (Bytes.ofString "one") false) false) := by
  show (disk writing).walk true 40 [] [.name "b.ts"] false = _
  rw [FileTree.walk]
  rfl

theorem trace_c : (disk writing).trace true ⟨"/c.ts"⟩ = .ok (.found ["c.ts"] (.file (Bytes.ofString "two") false) false) := by
  show (disk writing).walk true 40 [] [.name "c.ts"] false = _
  rw [FileTree.walk]
  rfl

theorem group_batch : group (disk writing) ⟨"/"⟩ batch = [fileA, fileB, fileC] := by
  have ha : resolvePath (disk writing) ⟨"/"⟩ "a/n.ts" = ⟨"/a/n.ts"⟩ := by
    show (disk writing).canonicalOr ⟨"/a/n.ts"⟩ = _
    rw [FileTree.canonicalOr, FileTree.canonical, trace_a]
  have hb : resolvePath (disk writing) ⟨"/"⟩ "b.ts" = ⟨"/b.ts"⟩ := by
    show (disk writing).canonicalOr ⟨"/b.ts"⟩ = _
    rw [FileTree.canonicalOr, FileTree.canonical, trace_b]
    rfl
  have hc : resolvePath (disk writing) ⟨"/"⟩ "c.ts" = ⟨"/c.ts"⟩ := by
    show (disk writing).canonicalOr ⟨"/c.ts"⟩ = _
    rw [FileTree.canonicalOr, FileTree.canonical, trace_c]
    rfl
  have hrelevant : batch.filter isRelevant = batch := by decide
  rw [group, hrelevant, batch, List.foldl_cons, List.foldl_cons, List.foldl_cons, List.foldl_nil, ha, hb, hc]
  decide

theorem destination_b : (disk writing).destination ⟨"/b.ts"⟩ = some ["b.ts"] := by
  show (disk writing).locate 40 [] [.name "b.ts"] = _
  exact FileTree.locate_file rfl _ _

theorem separate_batch : Separate (disk writing) ([fileA, fileB, fileC].map (·.path)) := by
  have ha : (disk writing).destination ⟨"/a/n.ts"⟩ = some ["a", "n.ts"] := by
    show (disk writing).locate 40 [] [.name "a", .name "n.ts"] = _
    rw [FileTree.locate_none rfl, FileTree.locate_none rfl, FileTree.locate_nil]
    rfl
  have hc : (disk writing).destination ⟨"/c.ts"⟩ = some ["c.ts"] := by
    show (disk writing).locate 40 [] [.name "c.ts"] = _
    exact FileTree.locate_file rfl _ _
  simp [Separate, fileA, fileB, fileC, ha, hc, destination_b]

theorem computeAll_batch : computeAll (disk writing) false [fileA, fileB, fileC] = .ok [textA, textB, textC] := by
  have hone : (Bytes.ofString "one").toString? = some "one" := by decide
  have htwo : (Bytes.ofString "two").toString? = some "two" := by decide
  have ha : (disk writing).readText ⟨"/a/n.ts"⟩ = .error .notFound := by
    simp only [FileTree.readText, FileTree.read, FileTree.find,
      show (disk writing).resolve true ⟨"/a/n.ts"⟩ = _ from trace_a writing]
  have hb : (disk writing).readText ⟨"/b.ts"⟩ = .ok "one" := FileTree.readText_of_found (trace_b writing) rfl hone
  have hc : (disk writing).readText ⟨"/c.ts"⟩ = .ok "two" := FileTree.readText_of_found (trace_c writing) rfl htwo
  have hsort : ∀ e, sortEdits [e] = [e] := fun e => by simp [sortEdits]
  simp only [computeAll, compute, readSource, fileA, fileB, fileC, ha, hb, hc, SourceText.edit, SourceText.prepare,
    Bool.false_eq_true, if_false, hsort]
  rfl

/-- The disk once the new file is written. -/
def written : FileTree := ((disk writing).set ["a"] (.dir [])).set ["a", "n.ts"] (.file textA.content false)

theorem writeFile_a (h : writing ["a", "n.ts"] = none) : writeFile (disk writing) textA = (written writing, .ok ()) := by
  have hfree : (disk writing).resolve false ⟨"/a"⟩ = .ok (.vacant [] "a" false) := by
    show (disk writing).walk false 40 [] [.name "a"] false = _
    rw [FileTree.walk]
    rfl
  have hmake : (disk writing).makeDirs ⟨"/a"⟩ = ((disk writing).set ["a"] (.dir []), .ok ()) := by
    show FileTree.makeDirsWithin 2 (disk writing) ⟨"/a"⟩ = _
    rw [FileTree.makeDirsWithin, FileTree.makeDir, hfree]
    rfl
  have hdir : prepareDir (disk writing) textA = ((disk writing).set ["a"] (.dir []), .ok ()) := by
    have hparent : Path.parent? ⟨"/a/n.ts"⟩ = some ⟨"/a"⟩ := by decide
    simp only [prepareDir, textA, hparent, hmake]
  have hplace : ((disk writing).set ["a"] (.dir [])).resolve true ⟨"/a/n.ts"⟩ = .ok (.vacant ["a"] "n.ts" false) := by
    show ((disk writing).set ["a"] (.dir [])).walk true 40 [] [.name "a", .name "n.ts"] false = _
    rw [FileTree.walk]
    show ((disk writing).set ["a"] (.dir [])).walk true 40 ["a"] [.name "n.ts"] false = _
    rw [FileTree.walk]
    rfl
  have hwrite : ((disk writing).set ["a"] (.dir [])).write ⟨"/a/n.ts"⟩ textA.content = (written writing, .ok ()) := by
    rw [FileTree.write, hplace]
    exact FileTree.store_of_none h _ _
  exact writeFile_of_write hdir hwrite

theorem writeFile_b : writeFile (written writing) textB =
    (((written writing).store ["b.ts"] textB.content false).1,
      ((written writing).store ["b.ts"] textB.content false).2.mapError (.ioAt ⟨"/b.ts"⟩)) := by
  have hplace : (written writing).resolve true ⟨"/b.ts"⟩ =
      .ok (.found ["b.ts"] (.file (Bytes.ofString "one") false) false) := by
    show (written writing).walk true 40 [] [.name "b.ts"] false = _
    rw [FileTree.walk]
    rfl
  have hwrite : (written writing).write ⟨"/b.ts"⟩ textB.content = (written writing).store ["b.ts"] textB.content false := by
    rw [FileTree.write, hplace]
  exact writeFile_of_write rfl hwrite

/-- With room on the disk all files are written. -/
theorem writeAll_batch : ∃ t, writeAll (disk fun _ => none) [textA, textB, textC] = (t, .ok ()) := by
  let t := (written fun _ => none).set ["b.ts"] (.file textB.content false)
  have hb : writeFile (written fun _ => none) textB = (t, .ok ()) := by
    rw [writeFile_b, FileTree.store_of_none rfl]
    rfl
  have hplace : t.resolve true ⟨"/c.ts"⟩ = .ok (.found ["c.ts"] (.file (Bytes.ofString "two") false) false) := by
    show t.walk true 40 [] [.name "c.ts"] false = _
    rw [FileTree.walk]
    rfl
  have hdir : prepareDir t textC = (t, .ok ()) := rfl
  have hc : writeFile t textC = (t.set ["c.ts"] (.file textC.content false), .ok ()) :=
    writeFile_of_write hdir (FileTree.write_of_found hplace rfl _)
  refine ⟨t.set ["c.ts"] (.file textC.content false), ?_⟩
  simp only [writeAll, writeFile_a (fun _ => none) rfl, hb, hc]

theorem stopped_at_b {t : FileTree} {before after : List Pending} {p : Pending}
    (hsplit : [fileA, fileB, fileC] = before ++ p :: after) (h : Stopped (disk full) t false before p after) :
    before = [fileA] ∧ p = fileB ∧ after = [fileC] ∧ t.look ["b.ts"] = some (.file (Bytes.ofString "O") false) := by
  obtain ⟨done, c, t₁, e, hdone, hp, hwrite, hfail⟩ := h.fails
  have hcomputed := map_compute (computeAll_batch full)
  simp only [List.map_cons, List.map_nil, List.cons.injEq, and_true] at hcomputed
  obtain ⟨ha, hb, -⟩ := hcomputed
  have hwriteA := writeFile_a full rfl
  rcases before with _ | ⟨a, _ | ⟨b, before⟩⟩
  · -- The first file can be written.
    cases hsplit
    cases List.map_eq_nil_iff.mp hdone.symm
    cases hwrite
    cases hp.symm.trans ha
    cases hwriteA.symm.trans hfail
  · cases hsplit
    obtain ⟨d, rfl, hd⟩ := List.map_eq_singleton_iff.mp hdone.symm
    cases ha.symm.trans hd.symm
    rw [writeAll, hwriteA] at hwrite
    cases hwrite
    cases hp.symm.trans hb
    rw [writeFile_b] at hfail
    cases hfail
    exact ⟨rfl, rfl, rfl, rfl⟩
  · -- The second file cannot.
    obtain ⟨rfl, rfl, -⟩ : fileA = a ∧ fileB = b ∧ _ := by simpa using hsplit
    obtain ⟨loc, hloc, hnone⟩ := reaches_of_writeAll hdone hwrite fileB (by simp)
    cases (destination_b full).symm.trans hloc
    cases hnone

end Batch.FullDisk

open Batch Batch.FullDisk in
/-- With room on the disk the batch is installed. Otherwise it stops with the new file written, `b.ts` cut off and `c.ts`
as it was. -/
theorem apply_atomic_full_disk :
    let out := fun writing => (⟨disk writing, {}⟩ : Workspace).apply ⟨"/"⟩ {} batch
    (out fun _ => none).2.success = true ∧
      Installed (disk fun _ => none) (out fun _ => none).1.files false [fileA, fileB, fileC] ∧
      (out full).2.success = false ∧ Stopped (disk full) (out full).1.files false [fileA] fileB [fileC] ∧
      (out full).1.files.look ["b.ts"] = some (.file (Bytes.ofString "O") false) := by
  intro out
  obtain ⟨-, hroom⟩ := apply_atomic ⟨disk fun _ => none, {}⟩ ⟨"/"⟩ {} batch
  obtain ⟨-, hfull⟩ := apply_atomic ⟨disk full, {}⟩ ⟨"/"⟩ {} batch
  rw [group_batch] at hroom hfull
  have hok : (out fun _ => none).2.success = true := by
    refine apply_success_iff.mpr ⟨[textA.record, textB.record, textC.record], ?_⟩
    obtain ⟨t, ht⟩ := writeAll_batch
    rw [group_batch, run_of_writeAll rfl (computeAll_batch _), ht]
    rfl
  have hfails : (out full).2.success = false :=
    hfull.unwritable fileB (by simp) ["b.ts"] (destination_b full) (by simp [disk, full])
  refine ⟨hok, hroom.installed (separate_batch _) hok, hfails, ?_⟩
  rcases hfull.stopped (separate_batch _) hfails with hrefused | ⟨before, p, after, hsplit, hstop⟩
  · obtain ⟨e, he⟩ := computeAll_error_iff.mpr hrefused
    cases (computeAll_batch full).symm.trans he
  obtain ⟨rfl, rfl, rfl, hcut⟩ := stopped_at_b hsplit hstop
  exact ⟨hstop, hcut⟩

end Refactor
