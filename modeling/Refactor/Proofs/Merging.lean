import Refactor.Proofs.Conservation
import Refactor.Proofs.Denotation

/-!
# Entries for one file

Entries of a batch are brought together by path. Two entries can denote one file by
paths that differ: this does no harm where the file is there, since both have its
canonical path then. Of a file that is not there yet each spelling makes a file of
its own, the last of which is what is left.

* `same_of_destination_eq`: entries that denote one file are brought together, if a
  new file is spelled in one way (`Unambiguous`);
* `ne_of_later`, `editsFor_eq_editsAt`: so no other file of the batch is the same,
  and it has all edits that denote it;
* `apply_reflects`: no edit of a batch that works is lost;
* `apply_drops_new_file_edit`: in any other batch it can be.
-/

namespace Refactor

namespace Batch

open FileTree (IsName)

variable {t : FileTree} {root : Path} {fs : List FileEdits} {f g : FileEdits} {loc : List String}

/-- The path that an entry spells. -/
def absolute (root : Path) (f : FileEdits) : Path :=
  if Path.isAbsolute ⟨f.fileName⟩ then ⟨f.fileName⟩ else root.join ⟨f.fileName⟩

theorem resolvePath_eq (t : FileTree) (root : Path) (f : FileEdits) :
    resolvePath t root f.fileName = t.canonicalOr (absolute root f) := rfl

/-- The edits of all entries that denote a location, in their order. -/
def editsAt (t : FileTree) (root : Path) (fs : List FileEdits) (loc : List String) : List TextEdit :=
  (fs.filter fun f => t.destination (absolute root f) = some loc).flatMap FileEdits.flat

/-- The text at a location. Where nothing is, it is empty. -/
def sourceAt? (t : FileTree) (loc : List String) : Option SourceText :=
  match t.look loc with
  | none => some (.parse [])
  | some (.file content _) => content.toString?.map fun s => .parse s.toList
  | some _ => none

/-- The file that an entry denotes holds its text from before with the edits of all entries that denote it. -/
def Reflects (t t' : FileTree) (root : Path) (fs : List FileEdits) (f : FileEdits) : Prop :=
  ∃ loc source lines x, t.destination (absolute root f) = some loc ∧ sourceAt? t loc = some source ∧
    applyEdits source.lines (sortEdits (editsAt t root fs loc)) = .ok lines ∧
    t'.look loc = some (.file (Bytes.ofString (String.ofList (source.withLines lines).join)) x)

theorem editsFor_congr {p q : Path} (h : p.same q = true) : editsFor t root fs p = editsFor t root fs q := by
  have hresolves : resolvesTo t root p = resolvesTo t root q := by
    funext f
    rw [resolvesTo, resolvesTo, Path.same_comm, Path.same_congr h, Path.same_comm]
  rw [editsFor, editsFor, hresolves]

/-- Two entries denote one location, or are brought together. -/
def Meets (t : FileTree) (root : Path) (f g : FileEdits) : Prop :=
  t.destination (absolute root g) = t.destination (absolute root f) ∨
    (resolvePath t root g.fileName).same (resolvePath t root f.fileName) = true

/-- Entries that meet an entry denote a location, and are spelled as it is where the location has no canonical path.
Nothing is asked of entries for other files.

A path that has to go through a missing directory denotes nothing if there is something at its end: `x/../a.ts` is not
found while `x` is not there, so as a new file it is taken to be empty and `a.ts` is overwritten once `x` is made. -/
structure Unambiguous (t : FileTree) (root : Path) (fs : List FileEdits) (f : FileEdits) : Prop where
  names : ∀ n ∈ t.workingDir, IsName n
  denotes : ∀ g ∈ fs, isRelevant g = true → Meets t root f g → ∃ loc, t.Denotes (absolute root g) loc
  alike : ∀ g ∈ fs, isRelevant g = true → t.destination (absolute root g) = t.destination (absolute root f) →
    (∀ q, t.canonical (absolute root f) ≠ .ok q) → (absolute root f).same (absolute root g) = true

namespace Unambiguous

variable (hu : Unambiguous t root fs f)
include hu

theorem denotes_of_destination (hg : g ∈ fs) (hr : isRelevant g = true) (hdf : t.destination (absolute root f) = some loc)
    (hdg : t.destination (absolute root g) = some loc) : t.Denotes (absolute root g) loc := by
  obtain ⟨loc', h⟩ := hu.denotes g hg hr (.inl (hdg.trans hdf.symm))
  rwa [Option.some.inj (h.destination_eq.symm.trans hdg)] at h

/-- Entries that denote the location of the entry are brought together with it. -/
theorem same_of_destination_eq (hf : f ∈ fs) (hg : g ∈ fs) (hrf : isRelevant f = true) (hrg : isRelevant g = true)
    (hdf : t.destination (absolute root f) = some loc) (hdg : t.destination (absolute root g) = some loc) :
    (resolvePath t root f.fileName).same (resolvePath t root g.fileName) = true := by
  have hf' := hu.denotes_of_destination hf hrf hdf hdf
  have hg' := hu.denotes_of_destination hg hrg hdf hdg
  rw [resolvePath_eq, resolvePath_eq, FileTree.canonicalOr, FileTree.canonicalOr]
  cases hc : t.canonical (absolute root f) with
  | ok q =>
    rw [hg'.canonical_eq hdf hc]
    exact BEq.rfl
  | error e =>
    cases hc' : t.canonical (absolute root g) with
    | ok q =>
      rw [hf'.canonical_eq hdg hc'] at hc
      cases hc
    | error e' => exact hu.alike g hg hrg (hdg.trans hdf.symm) (by simp [hc])

/-- What a file of a batch is known by denotes what the entries for it denote. -/
theorem destination_resolvePath (hd : t.destination (absolute root g) = some loc) :
    t.destination (resolvePath t root g.fileName) = some loc :=
  FileTree.destination_canonicalOr hu.names hd

theorem destination_eq_of_same (hd : t.destination (absolute root f) = some loc) (hg : g ∈ fs)
    (hrg : isRelevant g = true) (h : (resolvePath t root g.fileName).same (resolvePath t root f.fileName) = true) :
    t.destination (absolute root g) = some loc := by
  obtain ⟨loc', hg'⟩ := hu.denotes g hg hrg (.inr h)
  rw [hg'.destination_eq, FileTree.destination_unique h (hu.destination_resolvePath hg'.destination_eq)
    (hu.destination_resolvePath hd)]

/-- No other file of a batch is the one of the entry. -/
theorem same_of_destination {p : Pending} (hp : p ∈ group t root fs) (hf : f ∈ fs) (hr : isRelevant f = true)
    (hdf : t.destination (absolute root f) = some loc) (hdp : t.destination p.path = some loc) :
    p.path.same (resolvePath t root f.fileName) = true := by
  obtain ⟨g, hg, hrg, hpg⟩ := (covers_group t root fs).named p hp
  rw [hpg, Path.same_comm]
  rw [hpg, resolvePath_eq] at hdp
  exact hu.same_of_destination_eq hf hg hr hrg hdf (FileTree.destination_of_canonicalOr hu.names hdp)

/-- The edits that are brought together for a file are those of all entries that denote it. -/
theorem editsFor_eq_editsAt (hf : f ∈ fs) (hr : isRelevant f = true) (hd : t.destination (absolute root f) = some loc) :
    editsFor t root fs (resolvePath t root f.fileName) = editsAt t root fs loc := by
  rw [editsFor, editsAt, ← flatMap_flat_filter, ← flatMap_flat_filter (fs.filter _), List.filter_filter,
    List.filter_filter]
  refine congrArg (List.flatMap FileEdits.flat) (List.filter_congr fun g hg => ?_)
  cases hrg : isRelevant g with
  | false => rfl
  | true =>
    rw [Bool.true_and, Bool.true_and, Bool.eq_iff_iff, decide_eq_true_iff]
    refine ⟨hu.destination_eq_of_same hd hg hrg, fun hdg => ?_⟩
    rw [resolvesTo, Path.same_comm]
    exact hu.same_of_destination_eq hf hg hr hrg hd hdg

/-- The text that a file is read as is the one at the location that its entries denote. -/
theorem sourceAt?_of_readSource {isNew : Bool} {source : SourceText} (hdf : t.destination (absolute root f) = some loc)
    (hg : g ∈ fs) (hr : isRelevant g = true) (hd : t.destination (absolute root g) = some loc)
    (h : readSource t (resolvePath t root g.fileName) isNew = .ok source) : sourceAt? t loc = some source := by
  rw [readSource, FileTree.readText] at h
  cases hread : t.read (resolvePath t root g.fileName) with
  | ok content =>
    obtain ⟨loc', x, hlead⟩ := FileTree.leadsTo_of_read hread
    obtain rfl : loc' = loc := Option.some.inj (hlead.destination_eq.symm.trans (hu.destination_resolvePath hd))
    rw [sourceAt?, hlead.look_eq]
    cases hs : content.toString? with
    | none => simp [hread, hs, show OsError.notText ≠ .notFound by decide] at h
    | some s =>
      simp only [hread, hs, Except.ok.injEq] at h
      simp [Node.entry, hs, h]
  | error e =>
    simp only [hread] at h
    split at h
    · rename_i hnew
      cases h
      -- Whatever is there, reading would not have missed it.
      have hnone : t.look loc = none := by
        by_contra hlook
        obtain ⟨n, hlead⟩ := (hu.denotes_of_destination hg hr hdf hd).leads hlook
        rw [hnew.2, resolvePath_eq] at hread
        rcases FileTree.canonicalOr_cases t (absolute root g) with ⟨loc', n', hlead', heq⟩ | ⟨-, heq⟩ <;> rw [heq] at hread
        · exact FileTree.read_pathOf_ne_notFound (hlead'.isName hu.names) hlead'.look_eq hlead'.not_link
            hlead'.look_root_eq hread
        · exact hlead.read_ne_notFound hread
      rw [sourceAt?, hnone]
    · cases h

/-- No file that is written later is the one of the entry. -/
theorem ne_of_later {p : Pending} {before after : List Pending} (hsplit : group t root fs = before ++ p :: after)
    (hf : f ∈ fs) (hr : isRelevant f = true) (hd : t.destination (absolute root f) = some loc)
    (hp : p.path.same (resolvePath t root f.fileName) = true) :
    ∀ q ∈ after, t.destination q.path ≠ some loc := by
  intro q hq he
  have hordered := ordered_group t root fs
  rw [hsplit, Ordered, List.pairwise_append, List.pairwise_cons] at hordered
  have hqs := hu.same_of_destination (by simp [hsplit, hq]) hf hr hd he
  have hne := Path.not_same_of_lt (hordered.2.1.1 q hq)
  rw [Path.same_congr hp, Path.same_comm, hqs] at hne
  cases hne

/-- The file of an entry holds the edits of all entries that denote it, once a batch is written. -/
theorem reflects_of_writeAll {t' : FileTree} {u : Unit} {cs : List Computed}
    (hc : computeAll t false (group t root fs) = .ok cs) (hw : writeAll t cs = (t', .ok u)) (hf : f ∈ fs)
    (hr : isRelevant f = true) : Reflects t t' root fs f := by
  obtain ⟨-, hnamed, hcomplete⟩ := covers_group t root fs
  obtain ⟨loc, hd⟩ := hu.denotes f hf hr (.inl rfl)
  obtain ⟨p, hp, hsame⟩ := hcomplete f hf hr
  obtain ⟨g, hg, hrg, hpg⟩ := hnamed p hp
  have hdg := hu.destination_eq_of_same hd.destination_eq hg hrg (hpg ▸ hsame)
  have hdp : t.destination p.path = some loc := hpg ▸ hu.destination_resolvePath hdg
  obtain ⟨before, after, hsplit⟩ := List.append_of_mem hp
  have hmap := map_compute hc
  rw [hsplit] at hmap
  obtain ⟨c, hpc, loc', x, hdest, -, hlook, -⟩ := holds_of_writeAll hmap hw (by
    intro path hpath loc' hloc'
    obtain ⟨q, hq, rfl⟩ := List.mem_map.mp hpath
    rw [← Option.some.inj (hdp.symm.trans hloc')]
    exact hu.ne_of_later hsplit hf hr hd.destination_eq hsame q hq)
  rw [(path_of_compute hpc).1, hdp] at hdest
  cases hdest
  obtain ⟨source, lines, hsource, hlines, rfl⟩ := compute_ok hpc
  refine ⟨loc, source, lines, x, hd.destination_eq, ?_, ?_, hlook⟩
  · rw [hpg] at hsource
    exact hu.sourceAt?_of_readSource hd.destination_eq hg hrg hdg hsource
  · rw [← hu.editsFor_eq_editsAt hf hr hd.destination_eq, ← editsFor_congr hsame, ← (edits_of_mem_group hp).1]
    exact hlines

end Unambiguous

end Batch

/-- No edit of a batch that works is lost: every file holds the edits of all entries that denote it, however they spell
its path. Files that are not there yet have to be spelled in one way. -/
theorem apply_reflects (w : Workspace) (root : Path) (options : ApplyOptions) (fs : List FileEdits) (f : FileEdits)
    (hu : Batch.Unambiguous w.files root fs f) (hp : options.preview = false) (hn : options.normalize = false)
    (hok : (w.apply root options fs).2.success = true) (hf : f ∈ fs) (hr : Batch.isRelevant f = true) :
    Batch.Reflects w.files (w.apply root options fs).1.files root fs f := by
  obtain ⟨records, hrecords⟩ := apply_success_iff.mp hok
  obtain ⟨cs, hcs, hwrite⟩ := Batch.run_ok hp hrecords
  rw [hn] at hcs
  exact hu.reflects_of_writeAll hcs hwrite hf hr

/-- A file with two spellings, one of them through a link. -/
theorem apply_reflects_linked :
    let t : FileTree := ⟨.dir [("src", .dir [("a.ts", .file (Bytes.ofString "one") false)]), ("l", .link "src")], [], {}⟩
    let e₁ : FileEdits := ⟨"src/a.ts", [⟨⟨1, 1⟩, ⟨1, 2⟩, ['O']⟩], false⟩
    let e₂ : FileEdits := ⟨"l/a.ts", [⟨⟨1, 4⟩, ⟨1, 4⟩, ['!']⟩], false⟩
    let w : Workspace := ⟨t, {}⟩
    let fs := [e₁, e₂]
    (Batch.Unambiguous t ⟨"/"⟩ fs e₂ ∧ (w.apply ⟨"/"⟩ {} fs).2.success = true ∧ e₂ ∈ fs ∧ Batch.isRelevant e₂ = true) ∧
      Batch.Reflects t (w.apply ⟨"/"⟩ {} fs).1.files ⟨"/"⟩ fs e₂ := by
  intro t e₁ e₂ w fs
  have hpath₁ : Batch.absolute ⟨"/"⟩ e₁ = ⟨"/src/a.ts"⟩ := by decide
  have hpath₂ : Batch.absolute ⟨"/"⟩ e₂ = ⟨"/l/a.ts"⟩ := by decide
  have hwalk : ∀ links, t.walk true links [] [.name "src", .name "a.ts"] false =
      .ok (.found ["src", "a.ts"] (.file (Bytes.ofString "one") false) false) := by
    intro links
    rw [FileTree.walk]
    show t.walk true links ["src"] [.name "a.ts"] false = _
    rw [FileTree.walk]
    rfl
  have hplace : t.resolve true ⟨"/src/a.ts"⟩ =
      .ok (.found ["src", "a.ts"] (.file (Bytes.ofString "one") false) false) := hwalk 40
  have htrace : ∀ f ∈ fs, t.trace true (Batch.absolute ⟨"/"⟩ f) =
      .ok (.found ["src", "a.ts"] (.file (Bytes.ofString "one") false) false) := by
    refine List.forall_mem_cons.mpr ⟨?_, List.forall_mem_singleton.mpr ?_⟩
    · rw [hpath₁]
      exact hplace
    · rw [hpath₂]
      show t.walk true 40 [] [.name "l", .name "a.ts"] false = _
      rw [FileTree.walk]
      exact hwalk 39
  have hlead : ∀ f ∈ fs, t.LeadsTo (Batch.absolute ⟨"/"⟩ f) ["src", "a.ts"] (.file (Bytes.ofString "one") false) :=
    fun f hf => ⟨_, htrace f hf, rfl⟩
  have hcanonical : ∀ f ∈ fs, t.canonical (Batch.absolute ⟨"/"⟩ f) = .ok ⟨"/src/a.ts"⟩ := fun f hf =>
    FileTree.canonical_ok_iff.mpr ⟨_, _, hlead f hf, by decide, rfl⟩
  have hmem : e₂ ∈ fs := by simp [fs]
  have hu : Batch.Unambiguous t ⟨"/"⟩ fs e₂ :=
    ⟨fun n hn => (by cases hn), fun f hf _ _ => ⟨_, (hlead f hf).denotes⟩,
      fun _ _ _ _ hc => absurd (hcanonical e₂ hmem) (hc _)⟩
  have hresolve : ∀ f ∈ fs, Batch.resolvePath t ⟨"/"⟩ f.fileName = ⟨"/src/a.ts"⟩ := fun f hf => by
    rw [Batch.resolvePath_eq, FileTree.canonicalOr, hcanonical f hf]
  have hgroup : Batch.group t ⟨"/"⟩ fs =
      [⟨⟨"/src/a.ts"⟩, [⟨1, 1, 1, 2, ['O']⟩, ⟨1, 4, 1, 4, ['!']⟩], false⟩] := by
    rw [Batch.group, show fs.filter Batch.isRelevant = fs by decide, List.foldl_cons, List.foldl_cons, List.foldl_nil,
      hresolve e₁ (by simp [fs]), hresolve e₂ (by simp [fs])]
    decide
  let c : Batch.Computed := ⟨⟨"/src/a.ts"⟩, ⟨[['O', 'n', 'e', '!']], .lf⟩,
    ⟨"a.ts", ⟨"/src/a.ts"⟩, [⟨1, some 4, [], ['!']⟩, ⟨1, some 1, ['o'], ['O']⟩]⟩, false⟩
  have hc : Batch.computeAll t false (Batch.group t ⟨"/"⟩ fs) = .ok [c] := by
    have hbytes : (Bytes.ofString "one").toString? = some "one" := by decide
    have hread : t.readText ⟨"/src/a.ts"⟩ = .ok "one" := FileTree.readText_of_found hplace rfl hbytes
    have hsort : sortEdits [⟨1, 1, 1, 2, ['O']⟩, ⟨1, 4, 1, 4, ['!']⟩] = [⟨1, 4, 1, 4, ['!']⟩, ⟨1, 1, 1, 2, ['O']⟩] :=
      List.mergeSort_of_pairwise (by decide)
    rw [hgroup]
    simp only [Batch.computeAll, Batch.compute, Batch.readSource, hread, SourceText.edit, SourceText.prepare,
      Bool.false_eq_true, if_false, hsort]
    rfl
  have hwrite : Batch.writeFile t c = (t.set ["src", "a.ts"] (.file c.content false), .ok ()) := by
    have hdir : Batch.prepareDir t c = (t, .ok ()) := rfl
    exact Batch.writeFile_of_write hdir (FileTree.write_of_found hplace rfl _)
  have hrun : (Batch.run t {} (Batch.group t ⟨"/"⟩ fs)).2 = .ok [c.record] := by
    simp only [Batch.run, hc, Bool.false_eq_true, if_false, Batch.writeAll, hwrite]
    rfl
  have hok : (w.apply ⟨"/"⟩ {} fs).2.success = true := by
    rw [apply_report, hrun, Batch.success_reportOf]
    exact ⟨_, rfl⟩
  exact ⟨⟨hu, hok, hmem, rfl⟩, apply_reflects w ⟨"/"⟩ {} fs e₂ hu rfl rfl hok hmem rfl⟩

/-- A directory that is there need not be made. -/
theorem FileTree.makeDirs_of_found {t : FileTree} {p : Path} {loc : List String} {n : Node} {slash : Bool}
    (h : ∀ follow, t.resolve follow p = .ok (.found loc n slash)) (hn : n.isDir = true)
    (hp : p.spelling.isEmpty = false) : t.makeDirs p = (t, .ok ()) := by
  have hmake : t.makeDir p = .error .alreadyExists := by rw [makeDir, h]
  have hdir : t.isDir p = true := by simp [isDir, find, h, Place.node, hn]
  rw [makeDirs]
  cases p.spelling.length with
  | zero => simp [makeDirsWithin, ensureDir, hmake, hdir]
  | succ fuel => simp [makeDirsWithin, hp, hmake, hdir, show OsError.alreadyExists ≠ .notFound by decide]

/-- A new file with two spellings: both entries are applied to nothing, and the file is written twice. -/
theorem apply_drops_new_file_edit :
    let t : FileTree := ⟨.dir [("d", .dir [])], [], {}⟩
    let e₁ : FileEdits := ⟨"n.ts", [⟨⟨1, 1⟩, ⟨1, 1⟩, ['A']⟩], true⟩
    let e₂ : FileEdits := ⟨"d/../n.ts", [⟨⟨1, 1⟩, ⟨1, 1⟩, ['B']⟩], true⟩
    let w : Workspace := ⟨t, {}⟩
    let fs := [e₁, e₂]
    ((w.apply ⟨"/"⟩ {} fs).2.success = true ∧ e₂ ∈ fs ∧ Batch.isRelevant e₂ = true) ∧
      ¬ Batch.Reflects t (w.apply ⟨"/"⟩ {} fs).1.files ⟨"/"⟩ fs e₂ := by
  intro t e₁ e₂ w fs
  have hpath₁ : Batch.absolute ⟨"/"⟩ e₁ = ⟨"/n.ts"⟩ := by decide
  have hpath₂ : Batch.absolute ⟨"/"⟩ e₂ = ⟨"/d/../n.ts"⟩ := by decide
  have hfree₁ : t.trace true ⟨"/n.ts"⟩ = .ok (.vacant [] "n.ts" false) := by
    show t.walk true 40 [] [.name "n.ts"] false = _
    rw [FileTree.walk]
    rfl
  have hfree₂ : t.trace true ⟨"/d/../n.ts"⟩ = .ok (.vacant [] "n.ts" false) := by
    show t.walk true 40 [] [.name "d", .up, .name "n.ts"] false = _
    rw [FileTree.walk]
    show t.walk true 40 ["d"] [.up, .name "n.ts"] false = _
    rw [FileTree.walk]
    exact hfree₁
  have hresolve : ∀ f ∈ fs, Batch.resolvePath t ⟨"/"⟩ f.fileName = Batch.absolute ⟨"/"⟩ f := by
    refine List.forall_mem_cons.mpr ⟨?_, List.forall_mem_singleton.mpr ?_⟩
    · rw [Batch.resolvePath_eq, hpath₁, FileTree.canonicalOr, FileTree.canonical, hfree₁]
      rfl
    · rw [Batch.resolvePath_eq, hpath₂, FileTree.canonicalOr, FileTree.canonical, hfree₂]
      rfl
  have hgroup : Batch.group t ⟨"/"⟩ fs =
      [⟨⟨"/d/../n.ts"⟩, [⟨1, 1, 1, 1, ['B']⟩], true⟩, ⟨⟨"/n.ts"⟩, [⟨1, 1, 1, 1, ['A']⟩], true⟩] := by
    rw [Batch.group, show fs.filter Batch.isRelevant = fs by decide, List.foldl_cons, List.foldl_cons, List.foldl_nil,
      hresolve e₁ (by simp [fs]), hresolve e₂ (by simp [fs]), hpath₁, hpath₂]
    decide
  let c₁ : Batch.Computed := ⟨⟨"/n.ts"⟩, ⟨[['A']], .lf⟩, ⟨"n.ts", ⟨"/n.ts"⟩, [⟨1, some 1, [], ['A']⟩]⟩, true⟩
  let c₂ : Batch.Computed := ⟨⟨"/d/../n.ts"⟩, ⟨[['B']], .lf⟩, ⟨"n.ts", ⟨"/d/../n.ts"⟩, [⟨1, some 1, [], ['B']⟩]⟩, true⟩
  have hc : Batch.computeAll t false (Batch.group t ⟨"/"⟩ fs) = .ok [c₂, c₁] := by
    have hread₁ : t.readText ⟨"/n.ts"⟩ = .error .notFound := by
      simp only [FileTree.readText, FileTree.read, FileTree.find, show t.resolve true ⟨"/n.ts"⟩ = _ from hfree₁,
        FileTree.Place.node]
    have hread₂ : t.readText ⟨"/d/../n.ts"⟩ = .error .notFound := by
      simp only [FileTree.readText, FileTree.read, FileTree.find, show t.resolve true ⟨"/d/../n.ts"⟩ = _ from hfree₂,
        FileTree.Place.node]
    have hsort : ∀ e, sortEdits [e] = [e] := fun e => by simp [sortEdits]
    rw [hgroup]
    simp only [Batch.computeAll, Batch.compute, Batch.readSource, hread₁, hread₂, SourceText.edit, SourceText.prepare,
      Bool.false_eq_true, if_false, hsort]
    rfl
  let t₂ := t.set ["n.ts"] (.file c₂.content false)
  let t₁ := t₂.set ["n.ts"] (.file c₁.content false)
  have hw₂ : Batch.writeFile t c₂ = (t₂, .ok ()) := by
    have hplace : ∀ follow, t.resolve follow ⟨"/d/.."⟩ = .ok (.found [] t.root false) := by
      intro follow
      show t.walk follow 40 [] [.name "d", .up] false = _
      rw [FileTree.walk]
      show t.walk follow 40 ["d"] [.up] false = _
      rw [FileTree.walk]
      show t.walk follow 40 [] [] false = _
      rw [FileTree.walk]
      rfl
    have hdir : Batch.prepareDir t c₂ = (t, .ok ()) := by
      have hparent : Path.parent? ⟨"/d/../n.ts"⟩ = some ⟨"/d/.."⟩ := by decide
      simp only [Batch.prepareDir, c₂, hparent, FileTree.makeDirs_of_found hplace rfl rfl]
    have hwrite : t.write ⟨"/d/../n.ts"⟩ c₂.content = (t₂, .ok ()) := by
      rw [FileTree.write, show t.resolve true ⟨"/d/../n.ts"⟩ = _ from hfree₂]
      exact FileTree.store_of_none rfl _ _
    exact Batch.writeFile_of_write hdir hwrite
  have hw₁ : Batch.writeFile t₂ c₁ = (t₁, .ok ()) := by
    have hplace : ∀ follow, t₂.resolve follow ⟨"/"⟩ = .ok (.found [] t₂.root true) := by
      intro follow
      show t₂.walk follow 40 [] [] true = _
      rw [FileTree.walk]
      rfl
    have hdir : Batch.prepareDir t₂ c₁ = (t₂, .ok ()) := by
      have hparent : Path.parent? ⟨"/n.ts"⟩ = some ⟨"/"⟩ := by decide
      simp only [Batch.prepareDir, c₁, hparent, FileTree.makeDirs_of_found hplace rfl rfl]
    have hthere : t₂.resolve true ⟨"/n.ts"⟩ = .ok (.found ["n.ts"] (.file c₂.content false) false) := by
      show t₂.walk true 40 [] [.name "n.ts"] false = _
      rw [FileTree.walk]
      rfl
    exact Batch.writeFile_of_write hdir (FileTree.write_of_found hthere rfl _)
  have hrun : Batch.run t {} (Batch.group t ⟨"/"⟩ fs) = (t₁, .ok [c₂.record, c₁.record]) := by
    simp only [Batch.run, hc, Bool.false_eq_true, if_false, Batch.writeAll, hw₂, hw₁]
    rfl
  refine ⟨⟨?_, by simp [fs], rfl⟩, ?_⟩
  · rw [apply_report, hrun, Batch.success_reportOf]
    exact ⟨_, rfl⟩
  · have hdest : ∀ f ∈ fs, t.destination (Batch.absolute ⟨"/"⟩ f) = some ["n.ts"] := by
      refine List.forall_mem_cons.mpr ⟨?_, List.forall_mem_singleton.mpr ?_⟩
      · rw [hpath₁]
        exact FileTree.locate_of_walk (FileTree.trace_ok hfree₁).2 (.inl rfl)
      · rw [hpath₂]
        exact FileTree.locate_of_walk (FileTree.trace_ok hfree₂).2 (.inl rfl)
    rintro ⟨loc, source, lines, x, hloc, hsource, hlines, hlook⟩
    obtain rfl : ["n.ts"] = loc := Option.some.inj ((hdest e₂ (by simp [fs])).symm.trans hloc)
    obtain rfl : SourceText.parse [] = source := Option.some.inj hsource
    have hedits : Batch.editsAt t ⟨"/"⟩ fs ["n.ts"] = [⟨1, 1, 1, 1, ['A']⟩, ⟨1, 1, 1, 1, ['B']⟩] := by
      rw [Batch.editsAt, List.filter_eq_self.mpr fun f hf => by simp [hdest f hf]]
      decide
    have hsort : sortEdits [⟨1, 1, 1, 1, ['A']⟩, ⟨1, 1, 1, 1, ['B']⟩] = [⟨1, 1, 1, 1, ['B']⟩, ⟨1, 1, 1, 1, ['A']⟩] :=
      List.mergeSort_of_pairwise (by decide)
    rw [hedits, hsort] at hlines
    obtain rfl : [['A', 'B']] = lines := Except.ok.inj hlines
    rw [apply_files, hrun] at hlook
    have hcontent : Bytes.ofString "A" = Bytes.ofString "AB" := by
      injection (Option.some.inj hlook)
    revert hcontent
    decide

end Refactor
