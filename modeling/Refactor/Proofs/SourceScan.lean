import Refactor.Proofs.Denotation
import Refactor.Scan

/-!
# What a scan finds

A walk comes to the locations below a directory in the order of their names, a directory before what is in it,
and passes over some directories with all that is below them. A scan takes the source files from it, and what
it has when its time is up is the start of what it would have found.

* `Node.Proper`: directories as they are in a file system, which is what inductions over trees go by;
* `Path.parts_join`, `parts_descend`: the path of a location below a path;
* `Reached`, `Walk`: the locations that a walk comes to; `exists_walk`;
* `isSource_iff`, `SourceAt`: the source files, said without the walk;
* `collect_cases`: what is collected before the time is up;
* `scan_exact`: all of it for a scan.
-/

namespace Refactor

open FileTree (IsName)

/-! ## Trees -/

/-- Every directory has its names once, and each of them can be a name. -/
inductive Node.Proper : Node → Prop where
  | file (content : Bytes) (executable : Bool) : Proper (.file content executable)
  | link (target : String) : Proper (.link target)
  | dir {es : Entries} (names : ∀ e ∈ es, IsName e.1) (once : (es.map Prod.fst).Nodup)
    (nodes : ∀ e ∈ es, Proper e.2) : Proper (.dir es)

theorem Node.lookup_eq_some_iff {es : Entries} (once : (es.map Prod.fst).Nodup) {name : String} {m : Node} :
    es.lookup name = some m ↔ (name, m) ∈ es := by
  constructor
  · intro h
    obtain ⟨l₁, l₂, rfl, -⟩ := List.lookup_eq_some_iff.mp h
    exact List.mem_append_right _ List.mem_cons_self
  · intro h
    obtain ⟨l₁, l₂, rfl⟩ := List.append_of_mem h
    rw [List.map_append, List.map_cons, List.nodup_append] at once
    refine List.lookup_eq_some_iff.mpr ⟨l₁, l₂, rfl, fun e he => ?_⟩
    rw [bne_iff_ne]
    exact Ne.symm (once.2.2 e.1 (List.mem_map_of_mem he) name List.mem_cons_self)

/-! ## Paths below a path -/

namespace Path

theorem Part.ofPiece?_of_isName {n : String} (h : IsName n) : Part.ofPiece? n.toList = some (.name n) := by
  have hstep := h.2
  unfold Route.stepOf? at hstep
  unfold Part.ofPiece?
  split at hstep
  · cases hstep
  · split at hstep
    · cases hstep
    · split at hstep
      · cases hstep
      · rename_i h₁ h₂ h₃
        rw [if_neg (not_or.mpr ⟨h₁, h₂⟩), if_neg h₃, String.ofList_toList]

theorem parts_of_pieces {p : Path} {first : Text} {rest : List Text} (h : p.pieces = first :: rest)
    (hne : first ≠ [] ∨ rest ≠ []) :
    p.parts = (if first = [] then some .root else if first = ['.'] then some .here else Part.ofPiece? first).toList ++
      rest.filterMap Part.ofPiece? := by
  unfold parts
  rw [h]
  split
  · rename_i heq
    cases heq
  · rename_i heq
    cases heq
    exact absurd rfl (hne.resolve_right (fun hrest => hrest rfl))
  · rename_i heq
    cases heq
    rfl

/-- A path with one more piece, which replaces an empty one at the end. -/
theorem parts_of_pieces_concat {p q : Path} (ps : List Text) {n : String} (hn : IsName n)
    (hq : q.pieces = ps ++ [n.toList]) (hp : p.pieces = ps ∧ ps ≠ [[]] ∨ p.pieces = ps ++ [[]] ∧ ps ≠ []) :
    q.parts = p.parts ++ [.name n] := by
  have hfilter : Part.ofPiece? n.toList = some (.name n) := Part.ofPiece?_of_isName hn
  have hempty : Part.ofPiece? [] = none := rfl
  cases ps with
  | nil =>
    rcases hp with ⟨hp, -⟩ | ⟨-, hps⟩
    · exact absurd hp (Text.pieces_ne_nil '/' _)
    · exact absurd rfl hps
  | cons first rest =>
    have hqparts := @parts_of_pieces q first (rest ++ [n.toList]) hq (.inr (by simp))
    rcases hp with ⟨hp, hps⟩ | ⟨hp, -⟩
    · have hpparts := parts_of_pieces hp (by
        by_cases hfirst : first = []
        · refine .inr fun hrest => hps ?_
          rw [hfirst, hrest]
        · exact .inl hfirst)
      rw [hqparts, hpparts, List.filterMap_append, List.append_assoc, List.filterMap_cons_some hfilter,
        List.filterMap_nil]
    · have hpparts := @parts_of_pieces p first (rest ++ ([[]] : List Text)) hp (.inr (by simp))
      rw [hqparts, hpparts, List.filterMap_append, List.filterMap_append, List.filterMap_cons_some hfilter,
        List.filterMap_cons_none hempty, List.filterMap_nil, List.append_nil, List.append_assoc]

theorem parts_join (p : Path) {n : String} (h : IsName n) : (p.join ⟨n⟩).parts = p.parts ++ [.name n] := by
  have hrelative : (Path.mk n).isAbsolute = false := by
    unfold isAbsolute
    rw [beq_eq_false_iff_ne]
    exact fun hhead => h.1 (List.mem_of_head? hhead)
  have hpieces : Text.pieces '/' n.toList = [n.toList] := Text.pieces_of_notMem h.1
  rw [join, if_neg (by rw [hrelative]; exact Bool.false_ne_true)]
  by_cases hempty : p.spelling = ""
  · have hp : p.parts = [] := by
      unfold parts pieces
      rw [hempty]
      rfl
    rw [if_pos (.inl (by rw [hempty]; rfl)), hp, hempty, String.empty_append]
    have hname := Part.ofPiece?_of_isName h
    rw [parts_of_pieces hpieces (.inl fun hnil => by rw [hnil] at hname; cases hname), if_neg, if_neg, hname]
    · rfl
    · intro hdot
      rw [hdot] at hname
      cases hname
    · intro hnil
      rw [hnil] at hname
      cases hname
  · by_cases hslash : p.spelling.toList.getLast? = some '/'
    · rw [if_pos (.inr hslash)]
      obtain ⟨q, hq⟩ := List.getLast?_eq_some_iff.mp hslash
      refine parts_of_pieces_concat (Text.pieces '/' q) h ?_ (.inr ⟨?_, Text.pieces_ne_nil '/' q⟩)
      · rw [pieces, String.toList_append, hq, List.append_assoc, List.singleton_append, Text.pieces_append_sep, hpieces]
      · rw [pieces, hq, Text.pieces_append_sep]
        rfl
    · rw [if_neg (by simpa [hempty] using hslash)]
      refine parts_of_pieces_concat p.pieces h ?_ (.inl ⟨rfl, fun hnil => hempty ?_⟩)
      · have hsep : (p.spelling ++ "/" ++ n).toList = p.spelling.toList ++ '/' :: n.toList := by
          rw [String.toList_append, String.toList_append, List.append_assoc]
          rfl
        rw [pieces, hsep, Text.pieces_append_sep, hpieces]
        rfl
      · have hjoin := Text.intercalate_pieces '/' p.spelling.toList
        rw [← pieces, hnil] at hjoin
        rw [← String.ofList_toList (s := p.spelling), ← hjoin]
        rfl

end Path

namespace Scan

/-- The path of a location below a path. -/
def descend (p : Path) (loc : List String) : Path := loc.foldl (fun q n => q.join ⟨n⟩) p

theorem parts_descend (p : Path) {loc : List String} (h : ∀ n ∈ loc, IsName n) :
    (descend p loc).parts = p.parts ++ loc.map .name := by
  induction loc generalizing p with
  | nil => exact (List.append_nil _).symm
  | cons n loc ih =>
    obtain ⟨hn, hloc⟩ := List.forall_mem_cons.mp h
    show (descend (p.join ⟨n⟩) loc).parts = _
    rw [ih _ hloc, p.parts_join hn, List.append_assoc]
    rfl

theorem fileName?_descend (p : Path) {dirs : List String} {name : String} (h : ∀ n ∈ dirs ++ [name], IsName n) :
    (descend p (dirs ++ [name])).fileName? = some name := by
  rw [Path.fileName?, parts_descend p h, List.map_append, ← List.append_assoc, List.map_singleton,
    List.getLast?_concat]

/-! ## Walks -/

/-- A walk comes to a location: it is there, and no directory on the way is passed over. -/
structure Reached (skipDirs : List String) (n : Node) (loc : List String) : Prop where
  there : n.get? loc ≠ none
  entered : ∀ dirs name rest es, loc = dirs ++ name :: rest → n.get? (dirs ++ [name]) = some (.dir es) →
    isSkipped skipDirs name = false

theorem reached_nil (skipDirs : List String) (n : Node) : Reached skipDirs n [] := by
  refine ⟨by simp [Node.get?], fun dirs name rest es h => ?_⟩
  simp at h

theorem get?_dir_cons (es : Node.Entries) (name : String) (loc : List String) :
    (Node.dir es).get? (name :: loc) = (es.lookup name).bind fun m => m.get? loc := by
  rw [Node.get?]
  cases es.lookup name <;> rfl

theorem get?_dir_of_lookup {es : Node.Entries} {name : String} {m : Node} (h : es.lookup name = some m)
    (loc : List String) : (Node.dir es).get? (name :: loc) = m.get? loc := by
  rw [get?_dir_cons, h, Option.bind_some]

theorem reached_cons {skipDirs : List String} {es : Node.Entries} {name : String} {loc : List String} :
    Reached skipDirs (.dir es) (name :: loc) ↔
      ∃ m, es.lookup name = some m ∧ (m.isDir = true → isSkipped skipDirs name = false) ∧ Reached skipDirs m loc := by
  constructor
  · intro h
    cases hm : es.lookup name with
    | none =>
      refine absurd ?_ h.there
      rw [get?_dir_cons, hm, Option.bind_none]
    | some m =>
      have hget := get?_dir_of_lookup hm
      refine ⟨m, rfl, fun hdir => ?_, ⟨?_, fun dirs name' rest es' hloc hes => ?_⟩⟩
      · cases m with
        | dir es' => exact h.entered [] name loc es' rfl (hget [])
        | _ => cases hdir
      · rw [← hget]
        exact h.there
      · refine h.entered (name :: dirs) name' rest es' (by rw [hloc]; rfl) ?_
        rw [List.cons_append, hget, hes]
  · rintro ⟨m, hm, hskip, h⟩
    have hget := get?_dir_of_lookup hm
    refine ⟨by rw [hget]; exact h.there, fun dirs name' rest es' hloc hes => ?_⟩
    cases dirs with
    | nil =>
      rw [List.nil_append] at hloc hes
      obtain ⟨rfl, rfl⟩ := List.cons.inj hloc
      rw [hget, Node.get?] at hes
      refine hskip ?_
      rw [Option.some.inj hes]
      rfl
    | cons dir dirs =>
      rw [List.cons_append] at hloc hes
      obtain ⟨rfl, rfl⟩ := List.cons.inj hloc
      rw [hget] at hes
      exact h.entered dirs name' rest es' rfl hes

theorem reached_leaf {skipDirs : List String} {n : Node} (h : n.isDir = false) {loc : List String} :
    Reached skipDirs n loc ↔ loc = [] := by
  constructor
  · intro hreached
    cases loc with
    | nil => rfl
    | cons name loc =>
      refine absurd ?_ hreached.there
      cases n with
      | dir es => cases h
      | _ => rfl
  · rintro rfl
    exact reached_nil skipDirs n

/-- What a walk notes at a location. -/
def visitAt (n : Node) (path : Path) (loc : List String) : Visit := ⟨descend path loc, (n.get? loc).any isFile⟩

theorem visitAt_cons {es : Node.Entries} {name : String} {m : Node} (h : es.lookup name = some m) (path : Path)
    (loc : List String) : visitAt (.dir es) path (name :: loc) = visitAt m (path.join ⟨name⟩) loc := by
  rw [visitAt, get?_dir_of_lookup h]
  rfl

/-- The locations that a walk of a node comes to, in order. -/
structure Walk (skipDirs : List String) (n : Node) (locs : List (List String)) : Prop where
  visits_eq : ∀ path, (⟨path, isFile n⟩ :: below skipDirs path n) = locs.map (visitAt n path)
  ordered : locs.Pairwise (List.Lex (· < ·))
  mem_iff : ∀ loc, loc ∈ locs ↔ Reached skipDirs n loc

/-! ## Directories -/

/-- The entries of a directory in the order of their names. -/
def byName (es : Node.Entries) : Node.Entries := es.mergeSort fun a b => decide (a.1 ≤ b.1)

/-- Whether a walk passes over an entry. -/
def passesOver (skipDirs : List String) (e : String × Node) : Bool := e.2.isDir && isSkipped skipDirs e.1

/-- What a walk comes to for an entry. -/
def entryVisits (skipDirs : List String) (path : Path) (e : String × Node) : List Visit :=
  if passesOver skipDirs e then [] else ⟨path.join ⟨e.1⟩, isFile e.2⟩ :: below skipDirs (path.join ⟨e.1⟩) e.2

theorem ofEntries_eq_map (skipDirs : List String) (path : Path) (es : Node.Entries) :
    ofEntries skipDirs path es = es.map fun e => (e.1, entryVisits skipDirs path e) := by
  induction es with
  | nil => rfl
  | cons e es ih => rw [ofEntries, ih]; rfl

theorem below_dir (skipDirs : List String) (path : Path) (es : Node.Entries) :
    below skipDirs path (.dir es) = (byName es).flatMap (entryVisits skipDirs path) := by
  rw [below, ofEntries_eq_map, ← List.map_mergeSort (r := fun a b => decide (a.1 ≤ b.1)) fun _ _ _ _ => rfl,
    List.flatMap_map]
  rfl

theorem mem_byName {es : Node.Entries} {e : String × Node} : e ∈ byName es ↔ e ∈ es :=
  (List.mergeSort_perm es _).mem_iff

theorem pairwise_byName {es : Node.Entries} (once : (es.map Prod.fst).Nodup) :
    (byName es).Pairwise fun a b => a.1 < b.1 := by
  have hle : (byName es).Pairwise fun a b => a.1 ≤ b.1 := by
    refine (List.pairwise_mergeSort (fun a b c hab hbc => ?_) (fun a b => ?_) es).imp of_decide_eq_true
    · exact decide_eq_true (String.le_trans (of_decide_eq_true hab) (of_decide_eq_true hbc))
    · rw [Bool.or_eq_true, decide_eq_true_eq, decide_eq_true_eq]
      exact String.le_total a.1 b.1
  have hne : (byName es).Pairwise fun a b => a.1 ≠ b.1 :=
    List.pairwise_map.mp (((List.mergeSort_perm es _).map Prod.fst).nodup_iff.mpr once)
  refine (hle.and hne).imp fun h => ?_
  exact Classical.byContradiction fun hlt => h.2 (String.le_antisymm h.1 (String.not_lt.mp hlt))

/-- The locations of an entry, from those of its node. -/
def entryLocs (skipDirs : List String) (locs : String × Node → List (List String)) (e : String × Node) :
    List (List String) :=
  if passesOver skipDirs e then [] else (locs e).map (e.1 :: ·)

section

variable {skipDirs : List String} {es : Node.Entries} {locs : String × Node → List (List String)}

theorem mem_entryLocs {e : String × Node} {loc : List String} :
    loc ∈ entryLocs skipDirs locs e ↔
      (e.2.isDir = true → isSkipped skipDirs e.1 = false) ∧ ∃ rest ∈ locs e, e.1 :: rest = loc := by
  unfold entryLocs passesOver
  cases e.2.isDir <;> cases isSkipped skipDirs e.1 <;> simp

theorem entryVisits_eq {path : Path} {e : String × Node} (hlookup : es.lookup e.1 = some e.2)
    (h : Walk skipDirs e.2 (locs e)) :
    entryVisits skipDirs path e = (entryLocs skipDirs locs e).map (visitAt (.dir es) path) := by
  unfold entryVisits entryLocs
  split
  · rfl
  · rw [h.visits_eq, List.map_map]
    refine List.map_congr_left fun loc _ => ?_
    exact (visitAt_cons hlookup path loc).symm

theorem pairwise_entryLocs {e : String × Node} (h : Walk skipDirs e.2 (locs e)) :
    (entryLocs skipDirs locs e).Pairwise (List.Lex (· < ·)) := by
  unfold entryLocs
  split
  · exact .nil
  · exact List.pairwise_map.mpr (h.ordered.imp .cons)

/-- Walks of the entries make a walk of the directory. -/
theorem walk_dir (once : (es.map Prod.fst).Nodup) (h : ∀ e ∈ es, Walk skipDirs e.2 (locs e)) :
    Walk skipDirs (.dir es) ([] :: (byName es).flatMap (entryLocs skipDirs locs)) where
  visits_eq path := by
    rw [below_dir, List.map_cons, List.map_flatMap, List.flatMap_def, List.flatMap_def]
    refine congrArg (_ :: ·) (congrArg List.flatten (List.map_congr_left fun e he => ?_))
    rw [mem_byName] at he
    exact entryVisits_eq ((Node.lookup_eq_some_iff once).mpr he) (h e he)
  ordered := by
    refine List.pairwise_cons.mpr ⟨fun loc hloc => ?_, List.pairwise_flatMap.mpr ⟨fun e he => ?_, ?_⟩⟩
    · obtain ⟨e, -, he⟩ := List.mem_flatMap.mp hloc
      obtain ⟨-, rest, -, rfl⟩ := mem_entryLocs.mp he
      exact .nil
    · exact pairwise_entryLocs (h e (mem_byName.mp he))
    · refine (pairwise_byName once).imp fun hlt loc hloc loc' hloc' => ?_
      obtain ⟨-, rest, -, rfl⟩ := mem_entryLocs.mp hloc
      obtain ⟨-, rest', -, rfl⟩ := mem_entryLocs.mp hloc'
      exact .rel hlt
  mem_iff loc := by
    cases loc with
    | nil => exact iff_of_true List.mem_cons_self (reached_nil skipDirs _)
    | cons name loc =>
      rw [reached_cons, List.mem_cons, List.mem_flatMap]
      constructor
      · rintro (hnil | ⟨e, he, hloc⟩)
        · cases hnil
        · rw [mem_byName] at he
          obtain ⟨hskip, rest, hrest, heq⟩ := mem_entryLocs.mp hloc
          obtain ⟨rfl, rfl⟩ := List.cons.inj heq
          exact ⟨e.2, (Node.lookup_eq_some_iff once).mpr he, hskip, ((h e he).mem_iff rest).mp hrest⟩
      · rintro ⟨m, hm, hskip, hreached⟩
        have he := (Node.lookup_eq_some_iff once).mp hm
        refine .inr ⟨(name, m), mem_byName.mpr he, mem_entryLocs.mpr ⟨hskip, loc, ?_, rfl⟩⟩
        exact ((h _ he).mem_iff loc).mpr hreached

end

theorem walk_leaf (skipDirs : List String) {n : Node} (h : n.isDir = false) : Walk skipDirs n [[]] where
  visits_eq path := by
    cases n with
    | dir es => cases h
    | _ => rfl
  ordered := List.pairwise_singleton _ _
  mem_iff loc := by rw [reached_leaf h, List.mem_singleton]

/-- Every tree is walked, along the induction that proper trees come with. -/
theorem exists_walk (skipDirs : List String) {n : Node} (h : n.Proper) : ∃ locs, Walk skipDirs n locs := by
  induction h with
  | file content x => exact ⟨_, walk_leaf skipDirs rfl⟩
  | link target => exact ⟨_, walk_leaf skipDirs rfl⟩
  | @dir es names once nodes ih =>
    have hlocs : ∀ e : String × Node, ∃ locs, e ∈ es → Walk skipDirs e.2 locs := by
      intro e
      by_cases he : e ∈ es
      · obtain ⟨locs, hwalk⟩ := ih e he
        exact ⟨locs, fun _ => hwalk⟩
      · exact ⟨[], fun h => absurd h he⟩
    obtain ⟨locs, hlocs⟩ := Classical.skolem.mp hlocs
    exact ⟨_, walk_dir once hlocs⟩

/-! ## Source files -/

theorem ne_dot_of_mem_reverse {t : Text} (h : '.' ∉ t) : ∀ c ∈ t.reverse, decide (c ≠ '.') = true := by
  intro c hc
  refine decide_eq_true ?_
  rintro rfl
  exact h (List.mem_reverse.mp hc)

theorem extensionOf?_of_notMem {name : String} (h : '.' ∉ name.toList) : Path.extensionOf? name = none := by
  have hdrop : name.toList.reverse.dropWhile (· ≠ '.') = [] := by
    rw [← List.append_nil name.toList.reverse, List.dropWhile_append_of_pos (ne_dot_of_mem_reverse h), List.dropWhile_nil]
  simp only [Path.extensionOf?, hdrop]

theorem extensionOf?_of_dot {name : String} {stem ext : Text} (hdot : '.' ∉ ext) (h : name.toList = stem ++ '.' :: ext) :
    Path.extensionOf? name = if stem = [] then none else some (String.ofList ext) := by
  have hreverse : name.toList.reverse = ext.reverse ++ '.' :: stem.reverse := by
    rw [h]
    simp
  have hall := ne_dot_of_mem_reverse hdot
  have hdrop : name.toList.reverse.dropWhile (· ≠ '.') = '.' :: stem.reverse := by
    rw [hreverse, List.dropWhile_append_of_pos hall, List.dropWhile_cons_of_neg (by decide)]
  have htake : name.toList.reverse.takeWhile (· ≠ '.') = ext.reverse := by
    rw [hreverse, List.takeWhile_append_of_pos hall, List.takeWhile_cons_of_neg (by decide), List.append_nil]
  simp only [Path.extensionOf?, hdrop, htake, List.reverse_reverse]
  rcases List.eq_nil_or_concat stem with rfl | ⟨front, c, rfl⟩
  · rfl
  · rw [List.concat_eq_append, List.reverse_append, if_neg (by simp)]
    rfl

/-- The extension of a name is what follows its last dot, if something stands before the dot. -/
theorem extensionOf?_eq_some_iff {name ext : String} :
    Path.extensionOf? name = some ext ↔
      ∃ stem : Text, stem ≠ [] ∧ '.' ∉ ext.toList ∧ name.toList = stem ++ '.' :: ext.toList := by
  constructor
  · intro h
    by_cases hmem : '.' ∈ name.toList
    · obtain ⟨front, back, hname, hdot⟩ := List.eq_append_cons_of_mem (List.mem_reverse.mpr hmem)
      have hsplit : name.toList = back.reverse ++ '.' :: front.reverse := by
        rw [← List.reverse_reverse name.toList, hname]
        simp
      have hdot' : '.' ∉ front.reverse := fun hc => hdot (List.mem_reverse.mp hc)
      rw [extensionOf?_of_dot hdot' hsplit] at h
      split at h
      · cases h
      · rename_i hstem
        have hext : ext.toList = front.reverse := by
          rw [← Option.some.inj h, String.toList_ofList]
        exact ⟨back.reverse, hstem, by rw [hext]; exact hdot', by rw [hext]; exact hsplit⟩
    · rw [extensionOf?_of_notMem hmem] at h
      cases h
  · rintro ⟨stem, hstem, hdot, hname⟩
    rw [extensionOf?_of_dot hdot hname, if_neg hstem, String.ofList_toList]

/-- The name of a source file: it has one of the extensions, and no declaration ending. -/
def SourceName (extensions : List String) (name : String) : Prop :=
  (∃ stem ext, stem ≠ [] ∧ '.' ∉ ext.toList ∧ name.toList = stem ++ '.' :: ext.toList ∧ ext ∈ extensions) ∧
    ∀ e ∈ [".d.ts", ".d.mts", ".d.cts"], ¬ e.toList <:+ name.toList

theorem isSource_iff {extensions : List String} {name : String} :
    isSource extensions name = true ↔ SourceName extensions name := by
  have hname : SourceName extensions name ↔ (∃ ext ∈ extensions, Path.extensionOf? name = some ext) ∧
      ∀ e ∈ declarationEndings, ¬ e.toList <:+ name.toList := by
    refine and_congr_left fun _ => ?_
    constructor
    · rintro ⟨stem, ext, hstem, hdot, hsplit, hmem⟩
      exact ⟨ext, hmem, extensionOf?_eq_some_iff.mpr ⟨stem, hstem, hdot, hsplit⟩⟩
    · rintro ⟨ext, hmem, hext⟩
      obtain ⟨stem, hstem, hdot, hsplit⟩ := extensionOf?_eq_some_iff.mp hext
      exact ⟨stem, ext, hstem, hdot, hsplit, hmem⟩
  have hendings : (!declarationEndings.any fun e => e.toList.isSuffixOf name.toList) = true ↔
      ∀ e ∈ declarationEndings, ¬ e.toList <:+ name.toList := by
    simp only [Bool.not_eq_true', List.any_eq_false, List.isSuffixOf_iff_suffix]
  rw [hname, isSource, Bool.and_eq_true, hendings, and_comm]
  refine and_congr_left fun _ => ?_
  cases Path.extensionOf? name with
  | none => simp
  | some e => simp

theorem isSkipped_eq_false_iff {skipDirs : List String} {name : String} :
    isSkipped skipDirs name = false ↔ name.toList.head? ≠ some '.' ∧ name ∉ skipDirs := by
  simp [isSkipped]

/-- A source file below a node, with no directory on the way that is hidden or on the skip list. -/
def SourceAt (s : DiscoverySettings) (n : Node) (loc : List String) : Prop :=
  ∃ dirs name content executable, loc = dirs ++ [name] ∧ n.get? loc = some (.file content executable) ∧
    (∀ d ∈ dirs, d.toList.head? ≠ some '.' ∧ d ∉ s.skipDirs) ∧ SourceName s.extensions name

theorem get?_append (n : Node) (a b : List String) : n.get? (a ++ b) = (n.get? a).bind fun m => m.get? b := by
  induction a generalizing n with
  | nil => rfl
  | cons name a ih =>
    cases n with
    | dir es =>
      rw [List.cons_append, get?_dir_cons, get?_dir_cons, Option.bind_assoc]
      exact congrArg _ (funext fun m => ih m)
    | _ => rfl

theorem isName_of_get? {n : Node} (h : n.Proper) {loc : List String} (hloc : n.get? loc ≠ none) :
    ∀ name ∈ loc, IsName name := by
  induction loc generalizing n with
  | nil => exact fun name hname => absurd hname List.not_mem_nil
  | cons name loc ih =>
    cases h with
    | file content x => exact absurd rfl hloc
    | link target => exact absurd rfl hloc
    | @dir es names once nodes =>
      obtain ⟨m, hm⟩ := Option.ne_none_iff_exists'.mp hloc
      rw [get?_dir_cons] at hm
      obtain ⟨n, hn, hm⟩ := Option.bind_eq_some_iff.mp hm
      have hmem := (Node.lookup_eq_some_iff once).mp hn
      refine List.forall_mem_cons.mpr ⟨names _ hmem, ih (nodes _ hmem) ?_⟩
      rw [hm]
      exact Option.some_ne_none m

/-- Only directories have something below them. -/
theorem eq_dir_of_get? {m m' : Node} {loc : List String} (hloc : loc ≠ []) (h : m.get? loc = some m') :
    ∃ es, m = .dir es := by
  cases m with
  | dir es => exact ⟨es, rfl⟩
  | _ =>
    cases loc with
    | nil => exact absurd rfl hloc
    | cons name loc => cases h

/-- A walk comes to the files that have no passed over directory above them. -/
theorem reached_file_iff {skipDirs : List String} {n : Node} {dirs : List String} {name : String} {content : Bytes}
    {x : Bool} (h : n.get? (dirs ++ [name]) = some (.file content x)) :
    Reached skipDirs n (dirs ++ [name]) ↔ ∀ d ∈ dirs, isSkipped skipDirs d = false := by
  constructor
  · intro hreached d hd
    obtain ⟨above, rest, rfl⟩ := List.append_of_mem hd
    have hsplit : above ++ d :: rest ++ [name] = above ++ [d] ++ (rest ++ [name]) := by simp
    rw [hsplit, get?_append] at h
    obtain ⟨m, hm, hfile⟩ := Option.bind_eq_some_iff.mp h
    obtain ⟨es, rfl⟩ := eq_dir_of_get? (by simp) hfile
    exact hreached.entered above d (rest ++ [name]) es (by simp) hm
  · intro hdirs
    refine ⟨by rw [h]; exact Option.some_ne_none _, fun above d rest es hloc hes => ?_⟩
    rcases List.eq_nil_or_concat rest with rfl | ⟨front, last, rfl⟩
    · rw [← hloc, h] at hes
      cases hes
    · rw [List.concat_eq_append, ← List.cons_append, ← List.append_assoc] at hloc
      have hdirs' := (List.append_inj' hloc rfl).1
      exact hdirs d (by rw [hdirs']; simp)

theorem isSource_visitAt_concat (extensions : List String) (n : Node) (path : Path) {dirs : List String} {name : String}
    (h : ∀ d ∈ dirs ++ [name], IsName d) : (visitAt n path (dirs ++ [name])).isSource extensions =
      ((n.get? (dirs ++ [name])).any isFile && isSource extensions name) := by
  have hname : (visitAt n path (dirs ++ [name])).path.fileName? = some name := fileName?_descend path h
  rw [Visit.isSource, hname]
  rfl

/-- Among the locations that a walk comes to, its visits are to source files at those of source files. -/
theorem isSource_visitAt (s : DiscoverySettings) {es : Node.Entries} (hproper : (Node.dir es).Proper) (path : Path)
    (loc : List String) :
    Reached s.skipDirs (.dir es) loc ∧ (visitAt (.dir es) path loc).isSource s.extensions = true ↔
      SourceAt s (.dir es) loc := by
  constructor
  · rintro ⟨hreached, hsource⟩
    rcases List.eq_nil_or_concat loc with rfl | ⟨dirs, name, rfl⟩
    · rw [Visit.isSource, Bool.and_eq_true] at hsource
      cases hsource.1
    · rw [List.concat_eq_append] at hreached hsource ⊢
      rw [isSource_visitAt_concat _ _ _ (isName_of_get? hproper hreached.there), Bool.and_eq_true] at hsource
      obtain ⟨m, hm⟩ := Option.ne_none_iff_exists'.mp hreached.there
      rw [hm] at hsource
      cases m with
      | file content x =>
        refine ⟨dirs, name, content, x, rfl, hm, fun d hd => ?_, isSource_iff.mp hsource.2⟩
        exact isSkipped_eq_false_iff.mp ((reached_file_iff hm).mp hreached d hd)
      | _ => cases hsource.1
  · rintro ⟨dirs, name, content, x, rfl, hfile, hdirs, hname⟩
    have hreached : Reached s.skipDirs (.dir es) (dirs ++ [name]) :=
      (reached_file_iff hfile).mpr fun d hd => isSkipped_eq_false_iff.mpr (hdirs d hd)
    refine ⟨hreached, ?_⟩
    rw [isSource_visitAt_concat _ _ _ (isName_of_get? hproper hreached.there), Bool.and_eq_true, hfile]
    exact ⟨rfl, isSource_iff.mpr hname⟩

/-! ## Scans -/

/-- A scan goes through all its visits, or through those before the first that it is late at. -/
theorem collect_cases (extensions : List String) (late : Nat → Bool) (i : Nat) (vs : List Visit) :
    (∀ j < vs.length, late (i + j) = false) ∧
        collect extensions late i vs = ⟨(vs.filter (·.isSource extensions)).map (·.path), false⟩ ∨
      ∃ k < vs.length, late (i + k) = true ∧ (∀ j < k, late (i + j) = false) ∧
        collect extensions late i vs = ⟨((vs.take k).filter (·.isSource extensions)).map (·.path), true⟩ := by
  induction vs generalizing i with
  | nil => exact .inl ⟨fun j hj => absurd hj (Nat.not_lt_zero j), rfl⟩
  | cons v vs ih =>
    cases hlate : late i with
    | true =>
      refine .inr ⟨0, Nat.zero_lt_succ _, hlate, fun j hj => absurd hj (Nat.not_lt_zero j), ?_⟩
      rw [collect, if_pos hlate]
      rfl
    | false =>
      -- the visits from the next on have their indices one lower
      have hshift : ∀ {n : Nat}, (∀ j < n, late (i + 1 + j) = false) → ∀ j < n + 1, late (i + j) = false := by
        intro n h j hj
        cases j with
        | zero => exact hlate
        | succ j =>
          rw [← Nat.add_assoc, Nat.add_right_comm]
          exact h j (Nat.lt_of_succ_lt_succ hj)
      rw [collect, if_neg (by rw [hlate]; exact Bool.false_ne_true)]
      rcases ih (i + 1) with ⟨hin, hall⟩ | ⟨k, hk, hcut, hin, hpart⟩
      · refine .inl ⟨hshift hin, ?_⟩
        rw [hall, List.filter_cons]
        cases v.isSource extensions <;> rfl
      · refine .inr ⟨k + 1, Nat.succ_lt_succ hk, ?_, hshift hin, ?_⟩
        · rw [← Nat.add_assoc, Nat.add_right_comm]
          exact hcut
        · rw [hpart, List.take_succ_cons, List.filter_cons]
          cases v.isSource extensions <;> rfl

/-- Scans below a directory, on every clock. The walk comes to the locations `walked`, and the source files are at
`found`. -/
structure Exact (s : DiscoverySettings) (start : Path) (n : Node) (scanned : (Nat → Bool) → Outcome)
    (walked found : List (List String)) : Prop where
  walked_iff : ∀ loc, loc ∈ walked ↔ Reached s.skipDirs n loc
  walked_ordered : walked.Pairwise (List.Lex (· < ·))
  found_iff : ∀ loc, loc ∈ found ↔ SourceAt s n loc
  found_ordered : found.Pairwise (List.Lex (· < ·))
  paths : ∀ loc ∈ found, (descend start loc).parts = start.parts ++ loc.map .name
  distinct : (found.map fun loc => (descend start loc).parts).Nodup
  /-- A scan in time has all of them, and a cut one those that the walk came to before. -/
  outcome : ∀ late,
    (∀ i < walked.length, late i = false) ∧ scanned late = ⟨found.map (descend start), false⟩ ∨
      ∃ k < walked.length, late k = true ∧ (∀ i < k, late i = false) ∧
        ∃ part, part <+: found ∧ (∀ loc ∈ found, loc ∈ part ↔ loc ∈ walked.take k) ∧
          scanned late = ⟨part.map (descend start), true⟩

theorem lex_ne {a b : List String} (h : List.Lex (· < ·) a b) : a ≠ b := by
  rintro rfl
  exact List.lex_irrefl String.lt_irrefl a h

theorem nodup_parts_descend (start : Path) {locs : List (List String)} (hnames : ∀ loc ∈ locs, ∀ n ∈ loc, IsName n)
    (hordered : locs.Pairwise (List.Lex (· < ·))) : (locs.map fun loc => (descend start loc).parts).Nodup := by
  refine List.pairwise_map.mpr (hordered.imp_of_mem fun {a b} ha hb hlex heq => lex_ne hlex ?_)
  rw [parts_descend start (hnames a ha), parts_descend start (hnames b hb)] at heq
  exact (List.map_inj_right fun _ _ => Path.Part.name.inj).mp (List.append_cancel_left heq)

/-- For every directory, a scan finds exactly its source files, each once, in the order of a walk by name. Cut by its
time limit it has the start of them, and only then it says so. -/
theorem scan_exact (t : FileTree) (s : DiscoverySettings) (start : Path) (loc : List String) (es : Node.Entries)
    (hstart : t.find start = .ok (loc, .dir es)) (hproper : (Node.dir es).Proper) :
    ∃ walked found, Exact s start (.dir es) (fun late => scan t s late start) walked found := by
  obtain ⟨walked, hwalk⟩ := exists_walk s.skipDirs hproper
  let isFound := fun loc => (visitAt (.dir es) start loc).isSource s.extensions
  have hvisits : visits t s.skipDirs start = walked.map (visitAt (.dir es) start) := by
    rw [visits, hstart]
    exact hwalk.visits_eq start
  have hmem : ∀ loc, loc ∈ walked.filter isFound ↔ SourceAt s (.dir es) loc := by
    intro loc
    rw [List.mem_filter, hwalk.mem_iff, isSource_visitAt s hproper]
  have hnames : ∀ loc ∈ walked.filter isFound, ∀ n ∈ loc, IsName n := fun loc hloc =>
    isName_of_get? hproper ((hwalk.mem_iff loc).mp (List.mem_filter.mp hloc).1).there
  have hordered := hwalk.ordered.filter isFound
  refine ⟨walked, walked.filter isFound, hwalk.mem_iff, hwalk.ordered, hmem, hordered,
    fun loc hloc => parts_descend start (hnames loc hloc), nodup_parts_descend start hnames hordered, fun late => ?_⟩
  have hcases := collect_cases s.extensions late 0 (visits t s.skipDirs start)
  have hfiles : ∀ locs : List (List String),
      ((locs.map (visitAt (.dir es) start)).filter (·.isSource s.extensions)).map (·.path) =
        (locs.filter isFound).map (descend start) := by
    intro locs
    rw [List.filter_map, List.map_map]
    rfl
  simp only [hvisits, ← List.map_take, hfiles, List.length_map, Nat.zero_add] at hcases
  rcases hcases with hin | ⟨k, hk, hcut, hin, hpart⟩
  · refine .inl ⟨hin.1, ?_⟩
    rw [scan, hvisits, hin.2]
  · refine .inr ⟨k, hk, hcut, hin, (walked.take k).filter isFound, (List.take_prefix k walked).filter isFound,
      fun loc hloc => ?_, ?_⟩
    · rw [List.mem_filter]
      exact and_iff_left (List.mem_filter.mp hloc).2
    · rw [scan, hvisits, hpart]

/-- Names that a scan has to tell apart. -/
def mixedEntries : Node.Entries :=
  [(".git", .dir [("hook.ts", .file [] true)]), (".ts", .file [] false), ("a.d.ts", .file [] false),
    ("a.ts", .file [] false), ("dist", .file [] false), ("lib", .dir [("b.tsx", .file [] false)]), ("link.ts", .link "a.ts")]

theorem proper_mixedEntries : (Node.dir mixedEntries).Proper := by
  refine .dir ?_ (by decide) ?_
  · unfold mixedEntries IsName
    decide
  · intro e he
    simp only [mixedEntries, List.mem_cons, List.not_mem_nil, or_false] at he
    rcases he with rfl | rfl | rfl | rfl | rfl | rfl | rfl
    · refine .dir ?_ (by decide) (List.forall_mem_singleton.mpr (.file _ _))
      unfold IsName
      decide
    · exact .file _ _
    · exact .file _ _
    · exact .file _ _
    · exact .file _ _
    · refine .dir ?_ (by decide) (List.forall_mem_singleton.mpr (.file _ _))
      unfold IsName
      decide
    · exact .link _

theorem scan_exact_mixed :
    let t : FileTree := ⟨.dir [("p", .dir mixedEntries)], [], {}⟩
    let s : DiscoverySettings := ⟨3, 100, 1000, ["dist"], ["ts", "tsx"]⟩
    t.find ⟨"/p"⟩ = .ok (["p"], .dir mixedEntries) ∧ (Node.dir mixedEntries).Proper ∧
      ∃ walked found, Exact s ⟨"/p"⟩ (.dir mixedEntries) (fun late => scan t s late ⟨"/p"⟩) walked found := by
  intro t s
  have hresolve : t.resolve true ⟨"/p"⟩ = .ok (.found ["p"] (.dir mixedEntries) false) := by
    show t.walk true 40 [] [.name "p"] false = _
    rw [FileTree.walk]
    show t.walk true 40 ["p"] [] false = _
    rw [FileTree.walk]
    rfl
  have hstart : t.find ⟨"/p"⟩ = .ok (["p"], .dir mixedEntries) := by
    rw [FileTree.find, hresolve]
    rfl
  exact ⟨hstart, proper_mixedEntries, scan_exact t s _ _ _ hstart proper_mixedEntries⟩

end Scan

end Refactor
