import Refactor.FileTree.Access

/-!
# What file operations change

A tree is looked at location by location (`FileTree.look`): a file with its
content, a link with its target, or a directory. Writing a file and making a
directory change one location and no other, and paths that led to a file go on
leading to it.

* `look_set`: putting a file or an empty directory into a directory changes one
  location;
* `destination`: the location that a path denotes, whether or not it is there yet;
* `Grows`: a tree with more files and directories and the same links;
  `Grows.destination_eq`: paths denote in the smaller tree what they denote in the
  larger, and `Grows.walk_node`: a path that led somewhere leads there still;
* `resolve_ok_iff`: a path resolves when it is spelled right and can be followed;
* `write_cases`, `makeDirs_spec`: writing and making directories; `write_ok`,
  `write_error`: what a write leaves that works, and one that the system refuses.
-/

namespace Refactor

/-- What is at a location. -/
inductive Entry where
  | file (content : Bytes) (executable : Bool)
  | link (target : String)
  | dir
deriving DecidableEq, Repr

/-- What can become of a location when files are written and directories made. -/
inductive Entry.Grows : Option Entry → Option Entry → Prop
  | same (e : Option Entry) : Grows e e
  | written (content content' : Bytes) (x : Bool) : Grows (some (.file content x)) (some (.file content' x))
  | newFile (content : Bytes) (x : Bool) : Grows none (some (.file content x))
  | newDir : Grows none (some .dir)

namespace Node

/-- A node without what is below it. -/
def entry : Node → Entry
  | file content x => .file content x
  | link target => .link target
  | dir _ => .dir

/-- What is at a location below a node. -/
def look (n : Node) (loc : List String) : Option Entry := (n.get? loc).map entry

@[simp] theorem look_nil (n : Node) : n.look [] = some n.entry := by simp [look, get?]

theorem look_dir_cons (es : Entries) (a : String) (loc : List String) :
    (dir es).look (a :: loc) = (es.lookup a).bind fun n => n.look loc := by
  simp only [look, get?]
  cases es.lookup a <;> rfl

theorem entry_eq_dir {n : Node} (h : n.entry = .dir) : ∃ es, n = dir es := by
  cases n with
  | dir es => exact ⟨es, rfl⟩
  | file content x => cases h
  | link target => cases h

/-- What has something below it is a directory. -/
theorem look_of_look_append {n : Node} {loc : List String} {a : String} {rest : List String} {e : Entry}
    (h : n.look (loc ++ a :: rest) = some e) : n.look loc = some .dir := by
  induction loc generalizing n with
  | nil =>
    cases n with
    | dir es => rfl
    | file content x => cases h
    | link target => cases h
  | cons b loc ih =>
    cases n with
    | file content x => cases h
    | link target => cases h
    | dir es =>
      rw [List.cons_append, look_dir_cons] at h
      rw [look_dir_cons]
      cases hb : es.lookup b with
      | none => rw [hb] at h; cases h
      | some m =>
        rw [hb] at h
        exact ih h

/-- Putting a node with nothing below it into a directory, where nothing or a file was, changes
what is at its own location and nothing else. -/
theorem look_set {n m : Node} {d : List String} {a : String} (hd : n.look d = some .dir)
    (hm : ∀ b rest, m.look (b :: rest) = none) (ha : ∀ b rest, n.look (d ++ a :: b :: rest) = none)
    (loc : List String) :
    (n.set (d ++ [a]) m).look loc = if loc = d ++ [a] then some m.entry else n.look loc := by
  induction d generalizing n loc with
  | nil =>
    rw [look_nil, Option.some.injEq] at hd
    obtain ⟨es, rfl⟩ := entry_eq_dir hd
    cases loc with
    | nil => simp [set, entry]
    | cons b rest =>
      simp only [List.nil_append, set, look_dir_cons]
      by_cases hb : b = a
      · subst hb
        rw [lookup_insert_self]
        cases rest with
        | nil => simp
        | cons c rest =>
          have := ha c rest
          rw [List.nil_append, look_dir_cons] at this
          simp [hm, this]
      · rw [lookup_insert_of_ne _ _ hb, if_neg (by simp [hb])]
  | cons c d ih =>
    obtain ⟨es, rfl⟩ : ∃ es, n = dir es := by
      cases n with
      | dir es => exact ⟨es, rfl⟩
      | file content x => cases hd
      | link target => cases hd
    rw [look_dir_cons] at hd
    obtain ⟨k, hk, hkd⟩ := Option.bind_eq_some_iff.mp hd
    have hka : ∀ b rest, k.look (d ++ a :: b :: rest) = none := by
      intro b rest
      have := ha b rest
      rwa [List.cons_append, look_dir_cons, hk] at this
    cases loc with
    | nil => simp [set, entry]
    | cons b rest =>
      simp only [List.cons_append, set, look_dir_cons, hk, Option.getD_some]
      by_cases hb : b = c
      · subst hb
        rw [lookup_insert_self, hk, Option.bind_some, Option.bind_some, ih hkd hka]
        simp
      · rw [lookup_insert_of_ne _ _ hb, if_neg (by simp [hb])]

end Node

namespace FileTree

/-- What is at a location. -/
def look (t : FileTree) (loc : List String) : Option Entry := t.root.look loc

theorem look_eq_map (t : FileTree) (loc : List String) : t.look loc = (t.get? loc).map Node.entry := rfl

theorem look_append_dir {t : FileTree} {loc : List String} {a : String} {rest : List String} {e : Entry}
    (h : t.look (loc ++ a :: rest) = some e) : t.look loc = some .dir := Node.look_of_look_append h

theorem look_dropLast {t : FileTree} {loc : List String} (h : t.look loc = some .dir) :
    t.look loc.dropLast = some .dir := by
  rcases List.eq_nil_or_concat loc with rfl | ⟨loc, a, rfl⟩
  · exact h
  · rw [List.concat_eq_append] at *
    rw [List.dropLast_concat]
    exact look_append_dir h

theorem look_root {t : FileTree} {loc : List String} (h : t.look loc = some .dir) : t.look [] = some .dir := by
  cases loc with
  | nil => exact h
  | cons a rest => exact @look_append_dir t [] a rest _ h

/-- `t'` is `t` but for what is at one location. -/
structure Puts (t t' : FileTree) (loc : List String) (e : Entry) : Prop where
  workingDir_eq : t'.workingDir = t.workingDir
  faults_eq : t'.faults = t.faults
  look_eq : ∀ l, t'.look l = if l = loc then some e else t.look l

/-- Putting a file or an empty directory into a directory. -/
theorem puts_set {t : FileTree} {d : List String} {a : String} {m : Node} (hd : t.look d = some .dir)
    (hm : ∀ b rest, m.look (b :: rest) = none) (ha : t.look (d ++ [a]) ≠ some .dir) :
    Puts t (t.set (d ++ [a]) m) (d ++ [a]) m.entry := by
  refine ⟨rfl, rfl, Node.look_set hd hm fun b rest => ?_⟩
  cases h : t.root.look (d ++ a :: b :: rest) with
  | none => rfl
  | some e =>
    refine absurd (@look_append_dir t (d ++ [a]) b rest e ?_) ha
    rw [List.append_assoc]
    exact h

theorem get?_of_look_file {t : FileTree} {loc : List String} {content : Bytes} {x : Bool}
    (h : t.look loc = some (.file content x)) : t.get? loc = some (.file content x) := by
  rw [look_eq_map] at h
  obtain ⟨n, hn, he⟩ := Option.map_eq_some_iff.mp h
  cases n with
  | file c y => cases he; exact hn
  | link target => cases he
  | dir es => cases he

/-! ## Where paths lead -/

/-- The location that steps from a directory lead to. A name that is not there is taken for a
directory that is still to be made, or for the file that the path is to name. -/
def locate (t : FileTree) (links : Nat) (cur : List String) (steps : List Route.Step) : Option (List String) :=
  match steps with
  | [] => some cur
  | .here :: rest => locate t links cur rest
  | .up :: rest => locate t links cur.dropLast rest
  | .name n :: rest =>
    match t.look (cur ++ [n]) with
    | none | some .dir => locate t links (cur ++ [n]) rest
    | some (.file _ _) => if rest.isEmpty then some (cur ++ [n]) else none
    | some (.link target) =>
      match links with
      | 0 => none
      | links + 1 =>
        let r := Route.ofSpelling target
        locate t links (if r.absolute then [] else cur) (r.steps ++ rest)
termination_by (links, steps.length)

/-- The location that a path denotes, whether or not anything is there yet. -/
def destination (t : FileTree) (p : Path) : Option (List String) :=
  let r := Route.ofSpelling p.spelling
  t.locate linkLimit (t.start r) r.steps

/-- The location of a place. -/
def Place.loc : Place → List String
  | .found loc _ _ => loc
  | .vacant dir name _ => dir ++ [name]

/-- Whether a place asks for a directory. -/
def Place.slash : Place → Bool
  | .found _ _ slash => slash
  | .vacant _ _ slash => slash

/-- What is at a place: its node, or nothing in a directory. -/
def Place.Sound (t : FileTree) : Place → Prop
  | .found loc n _ => t.get? loc = some n
  | .vacant dir name _ => t.look dir = some .dir ∧ t.look (dir ++ [name]) = none

theorem get?_of_look_dir {t : FileTree} {loc : List String} (h : t.look loc = some .dir) :
    ∃ es, t.get? loc = some (.dir es) := by
  rw [look_eq_map] at h
  obtain ⟨n, hn, he⟩ := Option.map_eq_some_iff.mp h
  obtain ⟨es, rfl⟩ := Node.entry_eq_dir he
  exact ⟨es, hn⟩

theorem get?_of_look_link {t : FileTree} {loc : List String} {target : String}
    (h : t.look loc = some (.link target)) : t.get? loc = some (.link target) := by
  rw [look_eq_map] at h
  obtain ⟨n, hn, he⟩ := Option.map_eq_some_iff.mp h
  cases n with
  | file c y => cases he
  | link target' => cases he; exact hn
  | dir es => cases he

theorem look_of_get? {t : FileTree} {loc : List String} {n : Node} (h : t.get? loc = some n) :
    t.look loc = some n.entry := by rw [look_eq_map, h, Option.map_some]

/-- Following steps from a directory leads to a sound place. -/
theorem walk_sound {t : FileTree} {follow : Bool} {links : Nat} {cur : List String} {steps : List Route.Step}
    {slash : Bool} {place : Place} (hcur : t.look cur = some .dir)
    (h : t.walk follow links cur steps slash = .ok place) : place.Sound t := by
  fun_induction walk t follow links cur steps slash with
  | case1 links cur slash =>
    cases h
    obtain ⟨es, hes⟩ := get?_of_look_dir hcur
    simp [Place.Sound, hes]
  | case2 links cur slash rest ih => exact ih hcur h
  | case3 links cur slash rest ih => exact ih (look_dropLast hcur) h
  | case4 => cases h
  | case5 links cur slash n rest hn hget hrest =>
    cases h
    exact ⟨hcur, by rw [look_eq_map, hget, Option.map_none]⟩
  | case6 => cases h
  | case7 links cur slash n rest hn es hget ih => exact ih (look_of_get? hget) h
  | case8 links cur slash n rest hn content x hget hrest =>
    cases h
    exact hget
  | case9 => cases h
  | case10 links cur slash n rest hn target hget hlast =>
    cases h
    exact hget
  | case11 => cases h
  | case12 cur slash n rest hn target hget hlast links r ih =>
    refine ih ?_ h
    split
    · exact look_root hcur
    · exact hcur

theorem locate_nil (t : FileTree) (links : Nat) (cur : List String) : t.locate links cur [] = some cur := by
  rw [locate]

theorem locate_here (t : FileTree) (links : Nat) (cur : List String) (rest : List Route.Step) :
    t.locate links cur (.here :: rest) = t.locate links cur rest := by
  rw [locate]

theorem locate_up (t : FileTree) (links : Nat) (cur : List String) (rest : List Route.Step) :
    t.locate links cur (.up :: rest) = t.locate links cur.dropLast rest := by
  rw [locate]

theorem locate_none {t : FileTree} {cur : List String} {n : String} (h : t.look (cur ++ [n]) = none)
    (links : Nat) (rest : List Route.Step) :
    t.locate links cur (.name n :: rest) = t.locate links (cur ++ [n]) rest := by
  rw [locate, h]

theorem locate_dir {t : FileTree} {cur : List String} {n : String} (h : t.look (cur ++ [n]) = some .dir)
    (links : Nat) (rest : List Route.Step) :
    t.locate links cur (.name n :: rest) = t.locate links (cur ++ [n]) rest := by
  rw [locate, h]

theorem locate_file {t : FileTree} {cur : List String} {n : String} {content : Bytes} {x : Bool}
    (h : t.look (cur ++ [n]) = some (.file content x)) (links : Nat) (rest : List Route.Step) :
    t.locate links cur (.name n :: rest) = if rest.isEmpty then some (cur ++ [n]) else none := by
  rw [locate, h]

theorem locate_link {t : FileTree} {cur : List String} {n target : String}
    (h : t.look (cur ++ [n]) = some (.link target)) (links : Nat) (rest : List Route.Step) :
    t.locate (links + 1) cur (.name n :: rest) =
      t.locate links (if (Route.ofSpelling target).absolute then [] else cur) ((Route.ofSpelling target).steps ++ rest) := by
  rw [locate, h]

/-- A path that can be followed denotes the place that it leads to. A link at its end is not
followed in all operations, so then only a free name counts. -/
theorem locate_of_walk {t : FileTree} {follow : Bool} {links : Nat} {cur : List String} {steps : List Route.Step}
    {slash : Bool} {place : Place} (h : t.walk follow links cur steps slash = .ok place)
    (hf : follow = true ∨ ∃ d n s, place = .vacant d n s) : t.locate links cur steps = some place.loc := by
  fun_induction walk t follow links cur steps slash with
  | case1 links cur slash =>
    cases h
    exact locate_nil t links cur
  | case2 links cur slash rest ih => rw [locate_here, ih h]
  | case3 links cur slash rest ih => rw [locate_up, ih h]
  | case4 => cases h
  | case5 links cur slash n rest hn hget hrest =>
    cases h
    rw [List.isEmpty_iff.mp hrest, locate_none (by rw [look_eq_map, hget, Option.map_none]), locate_nil]
    rfl
  | case6 => cases h
  | case7 links cur slash n rest hn es hget ih => rw [locate_dir (look_of_get? hget), ih h]
  | case8 links cur slash n rest hn content x hget hrest =>
    cases h
    rw [locate_file (look_of_get? hget), if_pos hrest]
    rfl
  | case9 => cases h
  | case10 links cur slash n rest hn target hget hlast =>
    cases h
    rcases hf with rfl | ⟨d, m, s, hv⟩
    · simp at hlast
    · cases hv
  | case11 => cases h
  | case12 cur slash n rest hn target hget hlast links r ih =>
    exact (locate_link (look_of_get? hget) links rest).trans (ih h)

/-! ## Trees that grow -/

/-- A tree with more files and directories, perhaps other contents, and the same links. -/
structure Grows (t t' : FileTree) : Prop where
  workingDir_eq : t'.workingDir = t.workingDir
  faults_eq : t'.faults = t.faults
  entry : ∀ l, Entry.Grows (t.look l) (t'.look l)

namespace Grows

variable {t t' t'' : FileTree} {l : List String}

theorem refl (t : FileTree) : Grows t t := ⟨rfl, rfl, fun _ => .same _⟩

theorem trans (h : Grows t t') (h' : Grows t' t'') : Grows t t'' := by
  refine ⟨h'.workingDir_eq.trans h.workingDir_eq, h'.faults_eq.trans h.faults_eq, fun l => ?_⟩
  have h₁ := h.entry l
  have h₂ := h'.entry l
  revert h₁ h₂
  generalize t.look l = e
  generalize t'.look l = e'
  generalize t''.look l = e''
  intro h₁ h₂
  cases h₁ <;> cases h₂ <;> constructor

theorem dir (h : Grows t t') (hl : t.look l = some .dir) : t'.look l = some .dir := by
  have he := h.entry l
  rw [hl] at he
  generalize t'.look l = e at he
  cases he
  rfl

theorem link (h : Grows t t') {target : String} (hl : t.look l = some (.link target)) :
    t'.look l = some (.link target) := by
  have he := h.entry l
  rw [hl] at he
  generalize t'.look l = e at he
  cases he
  rfl

theorem of_none (h : Grows t t') (hl : t'.look l = none) : t.look l = none := by
  have he := h.entry l
  rw [hl] at he
  generalize t.look l = e at he
  cases he
  rfl

theorem of_dir (h : Grows t t') (hl : t'.look l = some .dir) : t.look l = none ∨ t.look l = some .dir := by
  have he := h.entry l
  rw [hl] at he
  generalize t.look l = e at he
  cases he with
  | same => exact .inr rfl
  | newDir => exact .inl rfl

theorem of_file (h : Grows t t') {content : Bytes} {x : Bool} (hl : t'.look l = some (.file content x)) :
    t.look l = none ∨ ∃ content', t.look l = some (.file content' x) := by
  have he := h.entry l
  rw [hl] at he
  generalize t.look l = e at he
  cases he with
  | same => exact .inr ⟨content, rfl⟩
  | written content' => exact .inr ⟨content', rfl⟩
  | newFile => exact .inl rfl

theorem of_link (h : Grows t t') {target : String} (hl : t'.look l = some (.link target)) :
    t.look l = some (.link target) := by
  have he := h.entry l
  rw [hl] at he
  generalize t.look l = e at he
  cases he
  rfl

/-- A location denotes the same in the smaller tree: what was made since stood for itself. -/
theorem locate_eq (h : Grows t t') {links : Nat} {cur : List String} {steps : List Route.Step} {loc : List String}
    (hl : t'.locate links cur steps = some loc) : t.locate links cur steps = some loc := by
  fun_induction locate t' links cur steps with
  | case1 links cur => rw [locate_nil, hl]
  | case2 links cur rest ih => rw [locate_here, ih hl]
  | case3 links cur rest ih => rw [locate_up, ih hl]
  | case4 links cur n rest hlook ih =>
    rw [locate_none (h.of_none hlook), ih hl]
  | case5 links cur n rest hlook ih =>
    rcases h.of_dir hlook with hnone | hdir
    · rw [locate_none hnone, ih hl]
    · rw [locate_dir hdir, ih hl]
  | case6 links cur n rest content x hlook hrest =>
    rcases h.of_file hlook with hnone | ⟨content', hfile⟩
    · rw [locate_none hnone, List.isEmpty_iff.mp hrest, locate_nil, hl]
    · rw [locate_file hfile, if_pos hrest, hl]
  | case7 => cases hl
  | case8 => cases hl
  | case9 cur n rest target hlook links r ih =>
    exact (locate_link (h.of_link hlook) links rest).trans (ih hl)

theorem start_eq (h : Grows t t') (r : Route) : t'.start r = t.start r := by
  rw [start, start, h.workingDir_eq]

theorem destination_eq (h : Grows t t') {p : Path} {loc : List String} (hl : t'.destination p = some loc) :
    t.destination p = some loc := by
  simp only [destination, h.start_eq] at hl
  exact h.locate_eq hl

/-- A path that led to a place leads to the file or the directory that is there later. -/
theorem walk_node (h : Grows t t') {links : Nat} {cur : List String} {steps : List Route.Step} {slash : Bool}
    {place : Place} {m : Node} (hcur : t.look cur = some .dir) (hw : t.walk true links cur steps slash = .ok place)
    (hm : t'.get? place.loc = some m) (hlink : ∀ target, m ≠ .link target) :
    t'.walk true links cur steps slash = .ok (.found place.loc m place.slash) := by
  -- At the last name of a path it makes no difference which of the two is there.
  have hlast : ∀ {links : Nat} {cur : List String} {slash : Bool} {n : String} {rest : List Route.Step},
      ¬ nameLimit < n.utf8ByteSize → rest.isEmpty = true → t'.get? (cur ++ [n]) = some m →
      t'.walk true links cur (.name n :: rest) slash = .ok (.found (cur ++ [n]) m slash) := by
    intro links cur slash n rest hn hrest hm
    rw [walk, if_neg hn, hm]
    cases m with
    | link target => exact absurd rfl (hlink target)
    | file content x => exact if_pos hrest
    | dir es =>
      dsimp only
      rw [List.isEmpty_iff.mp hrest, walk, hm]
      rfl
  fun_induction walk t true links cur steps slash with
  | case1 links cur slash =>
    cases hw
    rw [Place.loc] at hm
    rw [walk, hm]
    rfl
  | case2 links cur slash rest ih => rw [walk, ih hcur hw]
  | case3 links cur slash rest ih => rw [walk, ih (look_dropLast hcur) hw]
  | case4 => cases hw
  | case5 links cur slash n rest hn hget hrest =>
    cases hw
    exact hlast hn hrest hm
  | case6 => cases hw
  | case7 links cur slash n rest hn es hget ih =>
    have hdir := look_of_get? hget
    obtain ⟨es', hes'⟩ := get?_of_look_dir (h.dir hdir)
    rw [walk, if_neg hn, hes']
    exact ih hdir hw
  | case8 links cur slash n rest hn content y hget hrest =>
    cases hw
    exact hlast hn hrest hm
  | case9 => cases hw
  | case10 links cur slash n rest hn target hget hend => simp at hend
  | case11 => cases hw
  | case12 cur slash n rest hn target hget hend links r ih =>
    have hlink := get?_of_look_link (h.link (look_of_get? hget))
    rw [walk, if_neg hn, hlink]
    refine (if_neg hend).trans (ih ?_ hw)
    split
    · exact look_root hcur
    · exact hcur

end Grows

/-! ## Writing -/

theorem any_isDir_iff {t : FileTree} {loc : List String} :
    (t.get? loc).any Node.isDir = true ↔ t.look loc = some .dir := by
  rw [look_eq_map]
  cases t.get? loc with
  | none => simp
  | some n => cases n <;> simp [Node.isDir, Node.entry]

/-- A spelling that can be handed over as a path. -/
def Usable (p : Path) : Prop :=
  p.spelling.isEmpty = false ∧ p.spelling.toList.contains '\x00' = false ∧ p.spelling.utf8ByteSize ≤ pathLimit

/-- A path that resolves starts at a directory and can be followed from there. -/
theorem resolve_ok_iff {t : FileTree} {follow : Bool} {p : Path} {place : Place} :
    t.resolve follow p = .ok place ↔
      Usable p ∧ t.look (t.start (Route.ofSpelling p.spelling)) = some .dir ∧
        t.walk follow linkLimit (t.start (Route.ofSpelling p.spelling)) (Route.ofSpelling p.spelling).steps
          (Route.ofSpelling p.spelling).slash = .ok place := by
  rw [resolve, trace, Usable, ← any_isDir_iff]
  cases hn : p.spelling.toList.contains '\x00' with
  | true => cases p.spelling.isEmpty <;> simp
  | false =>
    by_cases hlen : pathLimit < p.spelling.utf8ByteSize
    · simp [hlen, Nat.not_le_of_lt hlen]
    · cases p.spelling.isEmpty with
      | true => simp [hlen]
      | false =>
        by_cases hd : (t.get? (t.start (Route.ofSpelling p.spelling))).any Node.isDir = true
        · simp [hlen, hd, Nat.le_of_not_lt hlen]
        · simp [hlen, hd]

theorem resolve_sound {t : FileTree} {follow : Bool} {p : Path} {place : Place}
    (h : t.resolve follow p = .ok place) : place.Sound t := by
  obtain ⟨-, hstart, hw⟩ := resolve_ok_iff.mp h
  exact walk_sound hstart hw

theorem readText_of_found {t : FileTree} {p : Path} {loc : List String} {content : Bytes} {x : Bool} {text : String}
    (h : t.resolve true p = .ok (.found loc (.file content x) false)) (hf : t.faults.reading loc = none)
    (htext : content.toString? = some text) : t.readText p = .ok text := by
  simp [readText, read, find, h, Place.node, hf, htext]

theorem destination_of_resolve {t : FileTree} {follow : Bool} {p : Path} {place : Place}
    (h : t.resolve follow p = .ok place) (hf : follow = true ∨ ∃ d n s, place = .vacant d n s) :
    t.destination p = some place.loc := locate_of_walk (resolve_ok_iff.mp h).2.2 hf

theorem Grows.resolve_file {t t' : FileTree} (h : Grows t t') {p : Path} {place : Place} {content : Bytes} {x : Bool}
    (hr : t.resolve true p = .ok place) (hf : t'.look place.loc = some (.file content x)) :
    t'.resolve true p = .ok (.found place.loc (.file content x) place.slash) := by
  obtain ⟨hu, hstart, hw⟩ := resolve_ok_iff.mp hr
  rw [resolve_ok_iff, h.start_eq]
  exact ⟨hu, h.dir hstart, h.walk_node hstart hw (get?_of_look_file hf) fun _ => by simp⟩

theorem Puts.grows {t t' : FileTree} {loc : List String} {e : Entry} (h : Puts t t' loc e)
    (he : Entry.Grows (t.look loc) (some e)) : Grows t t' := by
  refine ⟨h.workingDir_eq, h.faults_eq, fun l => ?_⟩
  rw [h.look_eq l]
  split
  · rename_i hl
    rw [hl]
    exact he
  · exact .same _

/-- Where a write goes: to a file that is there or to a free name, which the path denotes. From then on the path leads
to what is there. -/
structure Target (t : FileTree) (p : Path) (loc : List String) (x : Bool) : Prop where
  destination_eq : t.destination p = some loc
  entry : ∀ content, Entry.Grows (t.look loc) (some (.file content x))
  puts : ∀ content, Puts t (t.set loc (.file content x)) loc (.file content x)
  find_eq : ∀ t' content y, Grows t t' → t'.look loc = some (.file content y) → t'.find p = .ok (loc, .file content y)

theorem Target.grows {t : FileTree} {p : Path} {loc : List String} {x : Bool} (h : Target t p loc x) (content : Bytes) :
    Grows t (t.set loc (.file content x)) := (h.puts content).grows (h.entry content)

/-- Writing fails right away, or stores the content where the path denotes. -/
theorem write_cases (t : FileTree) (p : Path) (content : Bytes) :
    (∃ e, t.write p content = (t, .error e)) ∨
      ∃ loc x, Target t p loc x ∧ t.write p content = t.store loc content x := by
  -- A place that is written to asks for no directory, so the path leads to a file there.
  have hfind : ∀ place, t.resolve true p = .ok place → place.slash = false → ∀ t' c y, Grows t t' →
      t'.look place.loc = some (.file c y) → t'.find p = .ok (place.loc, .file c y) := by
    intro place hr hs t' c y hg hl
    have hr' := hg.resolve_file hr hl
    rw [hs] at hr'
    simp only [find, hr', Place.node]
    rfl
  cases hr : t.resolve true p with
  | error e => exact .inl ⟨e, by rw [write, hr]⟩
  | ok place =>
    have hsound := resolve_sound hr
    have hdest := destination_of_resolve hr (.inl rfl)
    cases place with
    | found loc n slash =>
      cases slash with
      | true => exact .inl ⟨.isDirectory, by rw [write, hr]⟩
      | false =>
        cases n with
        | link target => exact .inl ⟨.isDirectory, by rw [write, hr]⟩
        | dir es => exact .inl ⟨.isDirectory, by rw [write, hr]⟩
        | file old x =>
          have hold : t.look loc = some (.file old x) := look_of_get? hsound
          refine .inr ⟨loc, x, ⟨hdest, fun c => hold ▸ .written old c x, fun c => ?_, hfind _ hr rfl⟩, by rw [write, hr]⟩
          rcases List.eq_nil_or_concat loc with rfl | ⟨d, a, rfl⟩
          · have := look_root (resolve_ok_iff.mp hr).2.1
            rw [hold] at this
            cases this
          · rw [List.concat_eq_append] at *
            exact puts_set (look_append_dir hold) (fun _ _ => rfl) (by rw [hold]; simp)
    | vacant d a slash =>
      cases slash with
      | true => exact .inl ⟨.isDirectory, by rw [write, hr]⟩
      | false =>
        obtain ⟨hd, ha⟩ := hsound
        refine .inr ⟨d ++ [a], false, ⟨hdest, fun c => ha ▸ .newFile c false, fun c => ?_, hfind _ hr rfl⟩, by rw [write, hr]⟩
        exact puts_set hd (fun _ _ => rfl) (by rw [ha]; simp)

theorem store_of_none {t : FileTree} {loc : List String} (h : t.faults.writing loc = none) (content : Bytes) (x : Bool) :
    t.store loc content x = (t.set loc (.file content x), .ok ()) := by
  rw [store, h]

theorem write_of_found {t : FileTree} {p : Path} {loc : List String} {old : Bytes} {x : Bool}
    (h : t.resolve true p = .ok (.found loc (.file old x) false)) (hf : t.faults.writing loc = none) (content : Bytes) :
    t.write p content = (t.set loc (.file content x), .ok ()) := by
  rw [write, h]
  exact store_of_none hf content x

/-- A write that works stores the content at a location without faults. -/
theorem write_ok {t t' : FileTree} {p : Path} {content : Bytes} {u : Unit} (h : t.write p content = (t', .ok u)) :
    ∃ loc x, Target t p loc x ∧ t.faults.writing loc = none ∧ t' = t.set loc (.file content x) := by
  rcases write_cases t p content with ⟨e, he⟩ | ⟨loc, x, htarget, hstore⟩
  · rw [he] at h
    cases h
  · rw [hstore, store] at h
    split at h
    · rename_i hnone
      cases h
      exact ⟨loc, x, htarget, hnone, rfl⟩
    · cases h
    · cases h

/-- A write that fails changes nothing, or leaves in the file what the fault there says. -/
theorem write_error {t t' : FileTree} {p : Path} {content : Bytes} {e : OsError}
    (h : t.write p content = (t', .error e)) :
    t' = t ∨ ∃ loc x left, Target t p loc x ∧ t.faults.writing loc = some ⟨e, some left⟩ ∧
      t' = t.set loc (.file left x) := by
  rcases write_cases t p content with ⟨e', he⟩ | ⟨loc, x, htarget, hstore⟩
  · rw [he] at h
    cases h
    exact .inl rfl
  · rw [hstore, store] at h
    split at h
    · cases h
    · cases h
      exact .inl rfl
    · rename_i left hfault
      cases h
      exact .inr ⟨loc, x, left, htarget, hfault, rfl⟩

/-! ## Making directories -/

/-- `t'` is `t` with new directories, at locations of which `P` holds. -/
structure MakesDirs (t t' : FileTree) (P : List String → Prop) : Prop where
  workingDir_eq : t'.workingDir = t.workingDir
  faults_eq : t'.faults = t.faults
  look_eq : ∀ l, t'.look l = t.look l ∨ t.look l = none ∧ t'.look l = some .dir ∧ P l

namespace MakesDirs

variable {t t' t'' : FileTree} {P Q : List String → Prop}

theorem refl (t : FileTree) (P : List String → Prop) : MakesDirs t t P := ⟨rfl, rfl, fun _ => .inl rfl⟩

theorem trans (h : MakesDirs t t' P) (h' : MakesDirs t' t'' P) : MakesDirs t t'' P := by
  refine ⟨h'.workingDir_eq.trans h.workingDir_eq, h'.faults_eq.trans h.faults_eq, fun l => ?_⟩
  rcases h.look_eq l with h₁ | ⟨h₁, h₂, h₃⟩
  · rw [← h₁]
    exact h'.look_eq l
  · rcases h'.look_eq l with h₄ | ⟨h₄, -⟩
    · exact .inr ⟨h₁, h₄.trans h₂, h₃⟩
    · rw [h₂] at h₄
      cases h₄

theorem mono (h : MakesDirs t t' P) (hPQ : ∀ l, P l → Q l) : MakesDirs t t' Q :=
  ⟨h.workingDir_eq, h.faults_eq, fun l => (h.look_eq l).imp_right fun ⟨h₁, h₂, h₃⟩ => ⟨h₁, h₂, hPQ l h₃⟩⟩

theorem grows (h : MakesDirs t t' P) : Grows t t' := by
  refine ⟨h.workingDir_eq, h.faults_eq, fun l => ?_⟩
  rcases h.look_eq l with h₁ | ⟨h₁, h₂, -⟩
  · rw [h₁]
    exact .same _
  · rw [h₁, h₂]
    exact .newDir

end MakesDirs

theorem makeDir_spec {t t' : FileTree} {p : Path} (h : t.makeDir p = .ok t') :
    MakesDirs t t' fun l => t.destination p = some l := by
  simp only [makeDir] at h
  cases hr : t.resolve false p with
  | error e => simp [hr] at h
  | ok place =>
    rw [hr] at h
    cases place with
    | found loc n slash => cases h
    | vacant d a slash =>
      simp only at h
      split at h <;> cases h
      obtain ⟨hd, ha⟩ := resolve_sound hr
      have hput := puts_set (m := .dir []) hd (fun _ _ => rfl) (by rw [ha]; simp)
      refine ⟨rfl, rfl, fun l => ?_⟩
      rw [hput.look_eq l]
      by_cases hl : l = d ++ [a]
      · rw [if_pos hl, hl]
        exact .inr ⟨ha, rfl, destination_of_resolve hr (.inr ⟨d, a, slash, rfl⟩)⟩
      · exact .inl (if_neg hl)

end FileTree

/-- `q` is a directory on the way to `p`, as `p` is spelled. -/
inductive Path.IsAncestor : Path → Path → Prop
  | parent {p q : Path} : p.parent? = some q → IsAncestor q p
  | above {p q r : Path} : p.parent? = some r → IsAncestor q r → IsAncestor q p

namespace FileTree

theorem ensureDir_spec (t : FileTree) (p : Path) :
    MakesDirs t (t.ensureDir p).1 fun l => t.destination p = some l := by
  rw [ensureDir]
  cases hm : t.makeDir p with
  | ok t' => exact makeDir_spec hm
  | error e =>
    dsimp only
    split <;> exact .refl t _

/-- Making a directory makes nothing but that directory and those on the way to it, even when it
fails. -/
theorem makeDirsWithin_spec (fuel : Nat) (t : FileTree) (p : Path) :
    MakesDirs t (makeDirsWithin fuel t p).1 fun l => ∃ q, (q = p ∨ q.IsAncestor p) ∧ t.destination q = some l := by
  induction fuel generalizing p with
  | zero => exact (ensureDir_spec t p).mono fun l hl => ⟨p, .inl rfl, hl⟩
  | succ fuel ih =>
    rw [makeDirsWithin]
    split
    · exact .refl t _
    cases hm : t.makeDir p with
    | ok t' => exact (makeDir_spec hm).mono fun l hl => ⟨p, .inl rfl, hl⟩
    | error e =>
      dsimp only
      split
      · cases hq : p.parent? with
        | none => exact .refl t _
        | some q =>
          have hup : MakesDirs t (makeDirsWithin fuel t q).1
              fun l => ∃ q, (q = p ∨ q.IsAncestor p) ∧ t.destination q = some l := by
            refine (ih q).mono fun l ⟨r, hr, hl⟩ => ⟨r, .inr ?_, hl⟩
            rcases hr with rfl | hr
            · exact .parent hq
            · exact .above hq hr
          dsimp only
          generalize makeDirsWithin fuel t q = made at hup
          obtain ⟨t', outcome⟩ := made
          cases outcome with
          | error e => exact hup
          | ok _ =>
            refine hup.trans ((ensureDir_spec t' p).mono fun l hl => ⟨p, .inl rfl, ?_⟩)
            exact hup.grows.destination_eq hl
      · split <;> exact .refl t _

theorem makeDirs_spec (t : FileTree) (p : Path) :
    MakesDirs t (t.makeDirs p).1 fun l => ∃ q, (q = p ∨ q.IsAncestor p) ∧ t.destination q = some l :=
  makeDirsWithin_spec _ t p

end FileTree

end Refactor
