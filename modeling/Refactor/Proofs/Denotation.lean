import Refactor.Proofs.Files
import Refactor.Proofs.Lines

/-!
# What paths denote

A file has one canonical path and many other spellings. Those that lead to a file
that is there all have its canonical path; of a file that is not there nothing but
the spelling is known.

* `locate_of_thins`, `destination_unique`: paths with the same parts denote the same
  location, if they denote any;
* `locate_names`, `destination_pathOf`: the path of a location leads back there, as
  long as its names can be names (`IsName`);
* `canonical_ok_iff`: a path has a canonical one when it leads somewhere;
* `Denotes`: a path that leads to a location, or will once the directories on the
  way are made.
-/

namespace Refactor

/-! ## Spellings of one path -/

namespace Route

/-- The second list is the first without some of the steps that lead nowhere. -/
inductive Thins : List Step → List Step → Prop
  | nil : Thins [] []
  | keep (a : Step) {s s' : List Step} : Thins s s' → Thins (a :: s) (a :: s')
  | drop {s s' : List Step} : Thins s s' → Thins (.here :: s) s'

theorem Thins.append_left (r : List Step) {s s' : List Step} (h : Thins s s') : Thins (r ++ s) (r ++ s') := by
  induction r with
  | nil => exact h
  | cons a r ih => exact .keep a ih

theorem thins_filter (s : List Step) : Thins s (s.filter (· ≠ .here)) := by
  induction s with
  | nil => exact .nil
  | cons a s ih =>
    rw [List.filter_cons]
    split
    · exact .keep a ih
    · rename_i ha
      obtain rfl : a = .here := by simpa using ha
      exact .drop ih

end Route

namespace FileTree

open Route (Thins)

variable {t : FileTree}

/-- Where steps lead does not depend on those that lead nowhere. They only ask for a directory. -/
theorem locate_of_thins {links : Nat} {cur loc : List String} {steps : List Route.Step}
    (hl : t.locate links cur steps = some loc) (steps' : List Route.Step) (h : Thins steps steps') :
    t.locate links cur steps' = some loc := by
  revert steps'
  fun_induction locate t links cur steps with
  | case1 links cur =>
    intro steps' h
    cases h
    rwa [locate_nil]
  | case2 links cur rest ih =>
    intro steps' h
    cases h with
    | keep _ h => rw [locate_here, ih hl _ h]
    | drop h => exact ih hl _ h
  | case3 links cur rest ih =>
    intro steps' h
    cases h with
    | keep _ h => rw [locate_up, ih hl _ h]
  | case4 links cur n rest hlook ih =>
    intro steps' h
    cases h with
    | keep _ h => rw [locate_none hlook, ih hl _ h]
  | case5 links cur n rest hlook ih =>
    intro steps' h
    cases h with
    | keep _ h => rw [locate_dir hlook, ih hl _ h]
  | case6 links cur n rest content x hlook hrest =>
    intro steps' h
    obtain rfl := List.isEmpty_iff.mp hrest
    cases h with
    | keep _ h =>
      cases h
      rw [locate_file hlook, if_pos hrest, hl]
  | case7 => cases hl
  | case8 => cases hl
  | case9 cur n rest target hlook links r ih =>
    intro steps' h
    cases h with
    | keep _ h => exact (locate_link hlook links _).trans (ih hl _ (h.append_left _))

end FileTree

/-- The step of a part, if it leads anywhere. -/
def Path.Part.step? : Path.Part → Option Route.Step
  | .root | .here => none
  | .up => some .up
  | .name n => some (.name n)

theorem stepOf?_filter (piece : Text) :
    (Route.stepOf? piece).filter (· ≠ .here) = (Path.Part.ofPiece? piece).bind Path.Part.step? := by
  rw [Route.stepOf?, Path.Part.ofPiece?]
  by_cases h₁ : piece = []
  · simp [h₁]
  by_cases h₂ : piece = ['.']
  · simp [h₂]
  by_cases h₃ : piece = ['.', '.']
  · simp [h₃, Path.Part.step?]
  · simp [h₁, h₂, h₃, Path.Part.step?]

theorem filterMap_stepOf? (pieces : List Text) : (pieces.filterMap Route.stepOf?).filter (· ≠ .here) =
    (pieces.filterMap Path.Part.ofPiece?).filterMap Path.Part.step? := by
  rw [List.filter_filterMap, List.filterMap_filterMap]
  congr 1
  funext piece
  exact stepOf?_filter piece

namespace Path

theorem Part.ofPiece?_ne_root (piece : Text) : Part.ofPiece? piece ≠ some .root := by
  rw [Part.ofPiece?]
  split
  · simp
  · split <;> simp

theorem pieces_of_absolute {p : Path} (h : p.isAbsolute = true) :
    ∃ q qs, p.pieces = [] :: q :: qs := by
  rw [isAbsolute, beq_iff_eq] at h
  rw [pieces]
  cases ht : p.spelling.toList with
  | nil => simp [ht] at h
  | cons c t =>
    obtain rfl : c = '/' := by simpa [ht] using h
    obtain ⟨q, qs, hq⟩ := List.exists_cons_of_ne_nil (Text.pieces_ne_nil '/' t)
    exact ⟨q, qs, by rw [Text.pieces, if_pos rfl, hq]⟩

theorem pieces_of_relative {p : Path} (h : p.isAbsolute = false) :
    p.pieces = [[]] ∨ ∃ q qs, p.pieces = q :: qs ∧ q ≠ [] := by
  rw [isAbsolute, beq_eq_false_iff_ne] at h
  rw [pieces]
  cases ht : p.spelling.toList with
  | nil => exact .inl rfl
  | cons c t =>
    have hc : c ≠ '/' := by simpa [ht] using h
    obtain ⟨q, qs, hq⟩ := List.exists_cons_of_ne_nil (Text.pieces_ne_nil '/' t)
    exact .inr ⟨c :: q, qs, by rw [Text.pieces, if_neg hc, hq]; rfl, by simp⟩

/-- The parts of a path tell whether it is absolute and which steps it takes, but for those that lead nowhere. -/
theorem parts_spec (p : Path) :
    (p.parts.head? = some .root ↔ p.isAbsolute = true) ∧
      (Route.ofSpelling p.spelling).steps.filter (· ≠ .here) = p.parts.filterMap Part.step? := by
  have hsteps : (Route.ofSpelling p.spelling).steps = p.pieces.filterMap Route.stepOf? := rfl
  rw [hsteps]
  cases ha : p.isAbsolute with
  | true =>
    obtain ⟨q, qs, hp⟩ := pieces_of_absolute ha
    have hparts : p.parts = .root :: (q :: qs).filterMap Part.ofPiece? := by rw [parts, hp]; rfl
    rw [hparts, hp, filterMap_stepOf?]
    exact ⟨by simp, rfl⟩
  | false =>
    rcases pieces_of_relative ha with hp | ⟨q, qs, hp, hq⟩
    · have hparts : p.parts = [] := by rw [parts, hp]
      rw [hparts, hp]
      exact ⟨by simp, rfl⟩
    · have hparts : p.parts = (if q = ['.'] then some .here else Part.ofPiece? q).toList ++ qs.filterMap Part.ofPiece? := by
        rw [parts, hp]
        simp [hq]
      refine ⟨⟨fun h => ?_, fun h => by cases h⟩, ?_⟩
      · have hmem := List.mem_of_head? h
        rw [hparts, List.mem_append, Option.mem_toList, List.mem_filterMap] at hmem
        rcases hmem with hmem | ⟨piece, -, hmem⟩
        · split at hmem
          · cases hmem
          · exact absurd hmem (Part.ofPiece?_ne_root q)
        · exact absurd hmem (Part.ofPiece?_ne_root piece)
      · rw [hp, filterMap_stepOf?, hparts, List.filterMap_append, List.filterMap_cons]
        by_cases hd : q = ['.']
        · simp [hd, Part.ofPiece?, Part.step?]
        · rw [if_neg hd]
          cases Part.ofPiece? q with
          | none => rfl
          | some part => cases hs : part.step? <;> simp [hs]

end Path

namespace FileTree

variable {t : FileTree}

/-- Paths with the same parts denote the same location, if they denote any. -/
theorem destination_unique {p q : Path} (h : p.same q = true) {a b : List String} (hp : t.destination p = some a)
    (hq : t.destination q = some b) : a = b := by
  rw [Path.same, beq_iff_eq] at h
  obtain ⟨hap, hsp⟩ := p.parts_spec
  obtain ⟨haq, hsq⟩ := q.parts_spec
  have habs : (Route.ofSpelling p.spelling).absolute = (Route.ofSpelling q.spelling).absolute := by
    show p.isAbsolute = q.isAbsolute
    rw [Bool.eq_iff_iff, ← hap, ← haq, h]
  have hthin : (Route.ofSpelling p.spelling).steps.filter (· ≠ .here) = (Route.ofSpelling q.spelling).steps.filter (· ≠ .here) := by
    rw [hsp, hsq, h]
  have hp' := locate_of_thins hp _ (Route.thins_filter _)
  have hq' := locate_of_thins hq _ (Route.thins_filter _)
  rw [start, habs, hthin] at hp'
  exact Option.some.inj (hp'.symm.trans hq')

/-! ## Names -/

/-- A name that a directory can have: a path can spell it. -/
def IsName (n : String) : Prop := '/' ∉ n.toList ∧ Route.stepOf? n.toList = some (.name n)

theorem isName_of_mem_steps {s n : String} (h : .name n ∈ (Route.ofSpelling s).steps) : IsName n := by
  obtain ⟨piece, hpiece, hstep⟩ := List.mem_filterMap.mp h
  have hn : n = String.ofList piece := by
    rw [Route.stepOf?] at hstep
    split at hstep
    · cases hstep
    split at hstep
    · cases hstep
    split at hstep
    · cases hstep
    · cases hstep
      rfl
  rw [IsName, hn, String.toList_ofList, hstep, hn]
  exact ⟨Text.notMem_of_mem_pieces hpiece, rfl⟩

/-- The names on the way to a place are those of a path or of a link. -/
theorem isName_of_walk {follow : Bool} {links : Nat} {cur : List String} {steps : List Route.Step} {slash : Bool}
    {place : Place} (hcur : ∀ m ∈ cur, IsName m) (hsteps : ∀ n, .name n ∈ steps → IsName n)
    (h : t.walk follow links cur steps slash = .ok place) : ∀ m ∈ place.loc, IsName m := by
  have hsnoc : ∀ {cur : List String} {n : String}, (∀ m ∈ cur, IsName m) → IsName n → ∀ m ∈ cur ++ [n], IsName m :=
    fun hc hn => List.forall_mem_append.mpr ⟨hc, List.forall_mem_singleton.mpr hn⟩
  fun_induction walk t follow links cur steps slash with
  | case1 links cur slash =>
    cases h
    exact hcur
  | case2 links cur slash rest ih => exact ih hcur (fun n hn => hsteps n (List.mem_cons_of_mem _ hn)) h
  | case3 links cur slash rest ih =>
    exact ih (fun m hm => hcur m ((List.dropLast_sublist cur).subset hm)) (fun n hn => hsteps n (List.mem_cons_of_mem _ hn)) h
  | case4 => cases h
  | case5 links cur slash n rest hn hget hrest =>
    cases h
    exact hsnoc hcur (hsteps n List.mem_cons_self)
  | case6 => cases h
  | case7 links cur slash n rest hn es hget ih =>
    exact ih (hsnoc hcur (hsteps n List.mem_cons_self)) (fun n hn => hsteps n (List.mem_cons_of_mem _ hn)) h
  | case8 links cur slash n rest hn content x hget hrest =>
    cases h
    exact hsnoc hcur (hsteps n List.mem_cons_self)
  | case9 => cases h
  | case10 links cur slash n rest hn target hget hlast =>
    cases h
    exact hsnoc hcur (hsteps n List.mem_cons_self)
  | case11 => cases h
  | case12 cur slash n rest hn target hget hlast links r ih =>
    refine ih ?_ ?_ h
    · split
      · exact fun m hm => by cases hm
      · exact hcur
    · intro m hm
      rcases List.mem_append.mp hm with hm | hm
      · exact isName_of_mem_steps hm
      · exact hsteps m (List.mem_cons_of_mem _ hm)

theorem pieces_intercalate {ls : List Text} (hne : ls ≠ []) (h : ∀ l ∈ ls, '/' ∉ l) :
    Text.pieces '/' (['/'].intercalate ls) = ls := by
  induction ls with
  | nil => exact absurd rfl hne
  | cons l ls ih =>
    obtain ⟨hl, hls⟩ := List.forall_mem_cons.mp h
    by_cases hn : ls = []
    · rw [hn, List.intercalate_singleton, Text.pieces_of_notMem hl]
    · rw [List.intercalate_cons_of_ne_nil hn, List.append_assoc, List.singleton_append, Text.pieces_append_sep,
        Text.pieces_of_notMem hl, ih hn hls]
      rfl

theorem filterMap_stepOf?_names {loc : List String} (h : ∀ n ∈ loc, IsName n) :
    (loc.map String.toList).filterMap Route.stepOf? = loc.map .name := by
  induction loc with
  | nil => rfl
  | cons n loc ih =>
    obtain ⟨hn, hloc⟩ := List.forall_mem_cons.mp h
    rw [List.map_cons, List.filterMap_cons_some hn.2, ih hloc, List.map_cons]

/-- The path of a location takes its names one after the other. -/
theorem ofSpelling_pathOf {loc : List String} (h : ∀ n ∈ loc, IsName n) :
    (Route.ofSpelling (pathOf loc).spelling).absolute = true ∧
      (Route.ofSpelling (pathOf loc).spelling).steps = loc.map .name := by
  have hspell : (pathOf loc).spelling.toList = [] ++ '/' :: ['/'].intercalate (loc.map String.toList) := by
    rw [pathOf, String.toList_append, String.toList_intercalate]
    rfl
  rw [Route.ofSpelling, hspell]
  refine ⟨rfl, ?_⟩
  dsimp only
  rw [Text.pieces_append_sep]
  by_cases hn : loc = []
  · rw [hn]
    rfl
  · rw [pieces_intercalate (by simpa using hn), ← filterMap_stepOf?_names h]
    · rfl
    · intro l hl
      obtain ⟨n, hn, rfl⟩ := List.mem_map.mp hl
      exact (h n hn).1

/-- Names lead to the location that they make up, if there is a file or a directory. -/
theorem locate_names {links : Nat} {cur loc : List String} {e : Entry} (h : t.look (cur ++ loc) = some e)
    (he : ∀ target, e ≠ .link target) : t.locate links cur (loc.map .name) = some (cur ++ loc) := by
  induction loc generalizing cur with
  | nil => rw [List.map_nil, locate_nil, List.append_nil]
  | cons n loc ih =>
    have happ : cur ++ n :: loc = (cur ++ [n]) ++ loc := by simp
    rw [happ] at h ⊢
    rw [List.map_cons]
    cases loc with
    | nil =>
      rw [List.append_nil] at h ⊢
      cases e with
      | link target => exact absurd rfl (he target)
      | file content x => exact locate_file h links []
      | dir => rw [locate_dir h, List.map_nil, locate_nil]
    | cons m loc => rw [locate_dir (look_append_dir h), ih h]

theorem destination_pathOf {loc : List String} {e : Entry} (hn : ∀ n ∈ loc, IsName n) (h : t.look loc = some e)
    (he : ∀ target, e ≠ .link target) : t.destination (pathOf loc) = some loc := by
  obtain ⟨habs, hsteps⟩ := ofSpelling_pathOf hn
  simp only [destination, start, habs, hsteps, if_true]
  exact @locate_names t linkLimit [] loc e h he

/-! ## Canonical paths -/

/-- A link at the end of a path that is followed is not what is found. -/
theorem walk_follow {links : Nat} {cur : List String} {steps : List Route.Step} {slash : Bool} {place : Place}
    (hcur : t.look cur = some .dir) (h : t.walk true links cur steps slash = .ok place) (target : String) :
    t.look place.loc ≠ some (.link target) := by
  fun_induction walk t true links cur steps slash with
  | case1 links cur slash =>
    cases h
    simp [Place.loc, hcur]
  | case2 links cur slash rest ih => exact ih hcur h
  | case3 links cur slash rest ih => exact ih (look_dropLast hcur) h
  | case4 => cases h
  | case5 links cur slash n rest hn hget hrest =>
    cases h
    simp [Place.loc, look_eq_map, hget]
  | case6 => cases h
  | case7 links cur slash n rest hn es hget ih => exact ih (look_of_get? hget) h
  | case8 links cur slash n rest hn content x hget hrest =>
    cases h
    simp [Place.loc, look_of_get? hget, Node.entry]
  | case9 => cases h
  | case10 links cur slash n rest hn target hget hlast => simp at hlast
  | case11 => cases h
  | case12 cur slash n rest hn target hget hlast links r ih =>
    refine ih ?_ h
    split
    · exact look_root hcur
    · exact hcur

/-- A path leads to a node, as it is followed step by step. -/
def LeadsTo (t : FileTree) (p : Path) (loc : List String) (n : Node) : Prop :=
  ∃ place, t.trace true p = .ok place ∧ place.node = .ok (loc, n)

theorem node_ok {place : Place} {loc : List String} {n : Node} (h : place.node = .ok (loc, n)) :
    ∃ slash, place = .found loc n slash := by
  cases place with
  | vacant dir name slash => cases h
  | found loc' n' slash =>
    rw [Place.node] at h
    split at h
    · cases h
    · cases h
      exact ⟨slash, rfl⟩

theorem trace_ok {follow : Bool} {p : Path} {place : Place} (h : t.trace follow p = .ok place) :
    t.look (t.start (Route.ofSpelling p.spelling)) = some .dir ∧
      t.walk follow linkLimit (t.start (Route.ofSpelling p.spelling)) (Route.ofSpelling p.spelling).steps
        (Route.ofSpelling p.spelling).slash = .ok place := by
  rw [trace] at h
  split at h
  · cases h
  split at h
  · cases h
  dsimp only at h
  split at h
  · rename_i hdir
    exact ⟨any_isDir_iff.mp hdir, h⟩
  · cases h

namespace LeadsTo

variable {p : Path} {loc : List String} {n : Node}

theorem destination_eq (h : t.LeadsTo p loc n) : t.destination p = some loc := by
  obtain ⟨place, htrace, hnode⟩ := h
  obtain ⟨slash, rfl⟩ := node_ok hnode
  exact locate_of_walk (trace_ok htrace).2 (.inl rfl)

theorem look_eq (h : t.LeadsTo p loc n) : t.look loc = some n.entry := by
  obtain ⟨place, htrace, hnode⟩ := h
  obtain ⟨slash, rfl⟩ := node_ok hnode
  obtain ⟨hstart, hwalk⟩ := trace_ok htrace
  exact look_of_get? (walk_sound hstart hwalk)

theorem not_link (h : t.LeadsTo p loc n) (target : String) : n.entry ≠ .link target := by
  have hlook := h.look_eq
  obtain ⟨place, htrace, hnode⟩ := h
  obtain ⟨slash, rfl⟩ := node_ok hnode
  obtain ⟨hstart, hwalk⟩ := trace_ok htrace
  intro he
  rw [he] at hlook
  exact walk_follow hstart hwalk target hlook

theorem look_root_eq (h : t.LeadsTo p loc n) : t.look [] = some .dir := by
  obtain ⟨place, htrace, -⟩ := h
  exact look_root (trace_ok htrace).1

/-- From a working directory with names that can be names, all names on the way can be names. -/
theorem isName (h : t.LeadsTo p loc n) (hw : ∀ m ∈ t.workingDir, IsName m) : ∀ m ∈ loc, IsName m := by
  obtain ⟨place, htrace, hnode⟩ := h
  obtain ⟨slash, rfl⟩ := node_ok hnode
  refine isName_of_walk ?_ (fun _ => isName_of_mem_steps) (trace_ok htrace).2
  rw [start]
  split
  · exact fun m hm => by cases hm
  · exact hw

end LeadsTo

/-- A path has a canonical one if it leads somewhere, and that is the path of the location. -/
theorem canonical_ok_iff {p q : Path} : t.canonical p = .ok q ↔
    ∃ loc n, t.LeadsTo p loc n ∧ (pathOf loc).spelling.utf8ByteSize ≤ pathLimit ∧ q = pathOf loc := by
  rw [canonical]
  constructor
  · intro h
    cases htrace : t.trace true p with
    | error e => simp [htrace] at h
    | ok place =>
      simp only [htrace] at h
      cases hnode : place.node with
      | error e => simp [hnode] at h
      | ok found =>
        obtain ⟨loc, n⟩ := found
        simp only [hnode] at h
        split at h
        · cases h
        · rename_i hlimit
          exact ⟨loc, n, ⟨place, htrace, hnode⟩, Nat.le_of_not_lt hlimit, (Except.ok.inj h).symm⟩
  · rintro ⟨loc, n, ⟨place, htrace, hnode⟩, hlimit, rfl⟩
    simp only [htrace, hnode]
    exact if_neg (Nat.not_lt_of_le hlimit)

/-- A path is resolved to the path of its location, or is left as it is. -/
theorem canonicalOr_cases (t : FileTree) (p : Path) :
    (∃ loc n, t.LeadsTo p loc n ∧ t.canonicalOr p = pathOf loc) ∨
      (∀ q, t.canonical p ≠ .ok q) ∧ t.canonicalOr p = p := by
  rw [canonicalOr]
  cases hc : t.canonical p with
  | ok q =>
    obtain ⟨loc, n, hlead, -, rfl⟩ := canonical_ok_iff.mp hc
    exact .inl ⟨loc, n, hlead, rfl⟩
  | error e => exact .inr ⟨by simp, rfl⟩

/-- A path and what it is resolved to denote the same. -/
theorem destination_canonicalOr (hw : ∀ m ∈ t.workingDir, IsName m) {p : Path} {loc : List String}
    (h : t.destination p = some loc) : t.destination (t.canonicalOr p) = some loc := by
  rcases canonicalOr_cases t p with ⟨loc', n, hlead, heq⟩ | ⟨-, heq⟩
  · obtain rfl : loc' = loc := Option.some.inj (hlead.destination_eq.symm.trans h)
    rw [heq]
    exact destination_pathOf (hlead.isName hw) hlead.look_eq hlead.not_link
  · rwa [heq]

theorem destination_of_canonicalOr (hw : ∀ m ∈ t.workingDir, IsName m) {p : Path} {loc : List String}
    (h : t.destination (t.canonicalOr p) = some loc) : t.destination p = some loc := by
  rcases canonicalOr_cases t p with ⟨loc', n, hlead, -⟩ | ⟨-, heq⟩
  · have hlead' := hlead.destination_eq
    rwa [← destination_canonicalOr hw hlead', h] at hlead'
  · rwa [heq] at h

/-! ## Denotation -/

/-- A path denotes a location: it leads there once missing directories on the way are made. What is at the
location already, it leads to as it is. -/
structure Denotes (t : FileTree) (p : Path) (loc : List String) : Prop where
  destination_eq : t.destination p = some loc
  leads : t.look loc ≠ none → ∃ n, t.LeadsTo p loc n

theorem LeadsTo.denotes {p : Path} {loc : List String} {n : Node} (h : t.LeadsTo p loc n) : t.Denotes p loc :=
  ⟨h.destination_eq, fun _ => ⟨n, h⟩⟩

/-- All paths that denote a location have the canonical path that one of them has. -/
theorem Denotes.canonical_eq {p p' q : Path} {loc : List String} (h' : t.Denotes p' loc)
    (hp : t.destination p = some loc) (h : t.canonical p = .ok q) : t.canonical p' = .ok q := by
  obtain ⟨loc', n, hlead, hlimit, rfl⟩ := canonical_ok_iff.mp h
  obtain rfl : loc' = loc := Option.some.inj (hlead.destination_eq.symm.trans hp)
  obtain ⟨n', hlead'⟩ := h'.leads (by simp [hlead.look_eq])
  exact canonical_ok_iff.mpr ⟨loc', n', hlead', hlimit, rfl⟩

theorem walk_names {links : Nat} {cur loc : List String} {e : Entry} {slash : Bool} (h : t.look (cur ++ loc) = some e)
    (he : ∀ target, e ≠ .link target) :
    (∃ n, t.walk true links cur (loc.map .name) slash = .ok (.found (cur ++ loc) n slash)) ∨
      t.walk true links cur (loc.map .name) slash = .error .nameTooLong := by
  induction loc generalizing cur with
  | nil =>
    rw [List.map_nil, walk, List.append_nil]
    exact .inl ⟨_, rfl⟩
  | cons m loc ih =>
    have happ : cur ++ m :: loc = (cur ++ [m]) ++ loc := by simp
    rw [happ] at h ⊢
    rw [List.map_cons, walk]
    split
    · exact .inr rfl
    have hnext := ih h
    cases loc with
    | nil =>
      rw [List.append_nil] at h
      cases e with
      | link target => exact absurd rfl (he target)
      | file content x =>
        rw [get?_of_look_file h, List.append_nil]
        exact .inl ⟨_, rfl⟩
      | dir =>
        obtain ⟨es, hes⟩ := get?_of_look_dir h
        rw [hes]
        exact hnext
    | cons m' loc =>
      obtain ⟨es, hes⟩ := get?_of_look_dir (look_append_dir h)
      rw [hes]
      exact hnext

theorem trace_of_resolve {follow : Bool} {p : Path} {place : Place} (h : t.resolve follow p = .ok place) :
    t.trace follow p = .ok place := by
  rw [resolve] at h
  split at h
  · cases h
  · exact h

/-- What is read is a file that the path leads to. -/
theorem leadsTo_of_read {p : Path} {content : Bytes} (h : t.read p = .ok content) :
    ∃ loc x, t.LeadsTo p loc (.file content x) := by
  rw [read] at h
  split at h
  · rename_i loc content' x hfind
    split at h <;> cases h
    rw [find] at hfind
    split at hfind
    · cases hfind
    · rename_i place hplace
      exact ⟨loc, x, place, trace_of_resolve hplace, hfind⟩
  · cases h
  · cases h

/-- Reading finds nothing only where a path ends at a free name or breaks off at a missing one. -/
theorem read_ne_notFound {p : Path} (hv : ∀ dir name slash, t.trace true p ≠ .ok (.vacant dir name slash))
    (he : t.trace true p ≠ .error .notFound) : t.read p ≠ .error .notFound := by
  have hfind : t.find p ≠ .error .notFound := by
    intro hfind
    rw [find] at hfind
    cases hr : t.resolve true p with
    | error e =>
      simp only [hr, Except.error.injEq] at hfind
      rw [hfind, resolve] at hr
      split at hr
      · cases hr
      · exact he hr
    | ok place =>
      simp only [hr] at hfind
      cases place with
      | vacant dir name slash => exact hv dir name slash (trace_of_resolve hr)
      | found loc n slash =>
        rw [Place.node] at hfind
        split at hfind <;> cases hfind
  rw [read]
  cases hf : t.find p with
  | error e => exact fun h => hfind (hf.trans (congrArg _ (Except.error.inj h)))
  | ok found =>
    obtain ⟨loc, n⟩ := found
    have hdir : OsError.isDirectory ≠ .notFound := by decide
    cases n with
    | file content x =>
      cases hfault : t.faults.reading loc with
      | none => simp [hfault]
      | some e => simp [hfault, e.2]
    | link target => simp [hdir]
    | dir es => simp [hdir]

theorem LeadsTo.read_ne_notFound {p : Path} {loc : List String} {n : Node} (h : t.LeadsTo p loc n) :
    t.read p ≠ .error .notFound := by
  obtain ⟨place, htrace, hnode⟩ := h
  obtain ⟨slash, rfl⟩ := node_ok hnode
  refine FileTree.read_ne_notFound ?_ ?_ <;> simp [htrace]

theorem read_pathOf_ne_notFound {loc : List String} {e : Entry} (hn : ∀ m ∈ loc, IsName m) (h : t.look loc = some e)
    (he : ∀ target, e ≠ .link target) (hroot : t.look [] = some .dir) : t.read (pathOf loc) ≠ .error .notFound := by
  obtain ⟨habs, hsteps⟩ := ofSpelling_pathOf hn
  have hstart : t.start (Route.ofSpelling (pathOf loc).spelling) = [] := by rw [start, habs, if_pos rfl]
  have hspelled : (pathOf loc).spelling.isEmpty = false := by
    rw [Bool.eq_false_iff, ne_eq, String.isEmpty_iff, ← String.toList_inj]
    simp [pathOf]
  have hwalk := @walk_names t linkLimit [] loc e (Route.ofSpelling (pathOf loc).spelling).slash h he
  rw [← hsteps, ← hstart] at hwalk
  have htrace : t.trace true (pathOf loc) = .error .nulInPath ∨ t.trace true (pathOf loc) = .error .nameTooLong ∨
      ∃ n slash, t.trace true (pathOf loc) = .ok (.found loc n slash) := by
    rw [trace, if_neg (by simp [hspelled])]
    split
    · exact .inl rfl
    dsimp only
    rw [if_pos (any_isDir_iff.mpr (hstart.symm ▸ hroot))]
    rcases hwalk with ⟨n, hwalk⟩ | hwalk
    · rw [hwalk, hstart]
      exact .inr (.inr ⟨n, _, rfl⟩)
    · exact .inr (.inl hwalk)
  rcases htrace with htrace | htrace | ⟨n, slash, htrace⟩
  · exact read_ne_notFound (by simp [htrace]) (by simp [htrace, show OsError.nulInPath ≠ .notFound by decide])
  · exact read_ne_notFound (by simp [htrace]) (by simp [htrace, show OsError.nameTooLong ≠ .notFound by decide])
  · exact read_ne_notFound (by simp [htrace]) (by simp [htrace])

end FileTree

end Refactor
