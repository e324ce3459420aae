import Mathlib.Data.List.Forall2
import Refactor.Proofs.Recording

/-!
# What finding files asks of a session

Files that a change may touch are found target by target, and for each target in one of two ways: the server
lists the files that refer to it, or it cannot say and the project is scanned. The record of a session tells
which way was taken and what was asked on it.

* `Lists`, `Knows`: what the answers of the server say;
* `turns_askReferences`: the requests for references end with the first answer that lists them;
* `Explored`: the record of one target, with a case for each way; `explored_openRelated`;
* `discovery_traced`: the record of all targets, and when a scan is said to have run out of time.
-/

namespace Refactor.Discovery

variable {σ : Type}

/-! ## Answers -/

/-- An answer lists files that refer to the file asked for. -/
def Lists (answer : Attempt (Option Json)) (refs : List Path) : Prop :=
  ∃ body b, answer = .ok (some body) ∧ FileReferences.decode body = .ok b ∧ refs = b.refs.map Path.mk

/-- An answer has a file in its list of those that the server knows. -/
def Knows (answer : Attempt (Option Json)) (f : Path) : Prop :=
  ∃ body info names, answer = .ok (some body) ∧ ProjectInfo.decode body = .ok info ∧ info.fileNames = some names ∧
    ∃ name ∈ names, f.parts = (Path.mk name).parts

theorem references?_eq_some_iff {answer : Attempt (Option Json)} {refs : List Path} :
    references? answer = some refs ↔ Lists answer refs := by
  unfold references? Lists
  constructor
  · intro h
    split at h
    · split at h
      · exact ⟨_, _, rfl, ‹_›, (Option.some.inj h).symm⟩
      · cases h
    · cases h
  · rintro ⟨body, b, rfl, hb, rfl⟩
    simp only [hb]

theorem references?_eq_none_iff {answer : Attempt (Option Json)} :
    references? answer = none ↔ ∀ refs, ¬ Lists answer refs := by
  simp only [← references?_eq_some_iff, Option.eq_none_iff_forall_not_mem, Option.mem_def]

theorem any_knownFiles_iff {answer : Attempt (Option Json)} {f : Path} :
    ((knownFiles (projectInfo? answer)).any fun k => f.same k) = true ↔ Knows answer f := by
  unfold Knows
  cases answer with
  | error e => simp [projectInfo?, knownFiles]
  | ok answered =>
    cases answered with
    | none => simp [projectInfo?, knownFiles]
    | some body =>
      cases hinfo : ProjectInfo.decode body with
      | error e => simp [projectInfo?, knownFiles, hinfo, Except.toOption]
      | ok info =>
        cases hnames : info.fileNames with
        | none => simp [projectInfo?, knownFiles, hinfo, hnames, Except.toOption]
        | some names => simp [projectInfo?, knownFiles, hinfo, hnames, Except.toOption, Path.same]

instance (answer : Attempt (Option Json)) (f : Path) : Decidable (Knows answer f) :=
  decidable_of_iff _ any_knownFiles_iff

/-! ## Records -/

/-- The turns show files to the server, in order, whatever comes of it. -/
def Opens (paths : List Path) (ts : List Turn) : Prop :=
  List.Forall₂ (fun p t => ∃ answer, t = Turn.openFile p answer) paths ts

/-- The turns of requests for references that get these answers, with sleeps in between. -/
def askTurns (interval : Nat) (target : Path) (answers : List (Attempt (Option Json))) : List Turn :=
  (answers.map (Turn.request "fileReferences" (some (fileArgument target)))).intersperse (.sleep interval)

theorem askTurns_cons (interval : Nat) (target : Path) (a : Attempt (Option Json)) {answers : List (Attempt (Option Json))}
    (h : answers ≠ []) :
    askTurns interval target (a :: answers) =
      .request "fileReferences" (some (fileArgument target)) a :: .sleep interval :: askTurns interval target answers := by
  cases answers with
  | nil => exact absurd rfl h
  | cons b answers => rfl

/-- Where the scan for a target starts and what it finds, after an answer about the project. -/
def scanFor (s : Scope) (index : Nat) (answer : Attempt (Option Json)) : Scan.Outcome :=
  Scan.scan s.files s.settings (s.late index) (scanRoot s (projectInfo? answer))

/-- The files of a scan that are neither the target nor known to the server. -/
def unseen (s : Scope) (index : Nat) (target : Path) (answer : Attempt (Option Json)) : List Path :=
  (scanFor s index answer).files.filter fun f => decide (f.parts ≠ target.parts ∧ ¬ Knows answer f)

/-- The arguments of a request about the project of a file. -/
def projectArguments (target : Path) : Json :=
  .ofMembers [("file", .str (wirePath target)), ("needFileNameList", .bool true)]

/-- The record of a target, and whether a scan ran out of time. -/
inductive Explored (s : Scope) (index : Nat) (target : Path) : List Turn → Bool → Prop where
  /-- The server lists the files that refer to the target, and those other than the target are opened. -/
  | referenced {opened : Attempt Unit} {failed : List (Attempt (Option Json))} {answer : Attempt (Option Json)}
    {refs : List Path} {opens : List Turn} (hfailed : ∀ a ∈ failed, ∀ refs, ¬ Lists a refs) (hanswer : Lists answer refs)
    (hattempts : failed.length < s.settings.maxReferenceAttempts.toNat)
    (hopens : Opens (refs.filter fun f => decide (f.parts ≠ target.parts)) opens) :
    Explored s index target
      (.openFile target opened ::
        (askTurns s.settings.attemptIntervalMs.toNat target (failed ++ [answer]) ++ opens)) false
  /-- The server never lists them, and what a scan finds is opened unless it is the target or known to the server. -/
  | scanned {opened : Attempt Unit} {failed : List (Attempt (Option Json))} {answer : Attempt (Option Json)}
    {opens : List Turn} (hfailed : ∀ a ∈ failed, ∀ refs, ¬ Lists a refs)
    (hattempts : failed.length = s.settings.maxReferenceAttempts.toNat)
    (hopens : Opens (unseen s index target answer) opens)
    (hcovered : ∀ f ∈ (scanFor s index answer).files, f.parts = target.parts ∨ Knows answer f ∨
      ∃ r, Turn.openFile f r ∈ opens) :
    Explored s index target
      (.openFile target opened ::
        (askTurns s.settings.attemptIntervalMs.toNat target failed ++
          .request "projectInfo" (some (projectArguments target)) answer :: opens))
      (scanFor s index answer).timedOut

theorem Opens.exists_mem {paths : List Path} {ts : List Turn} (h : Opens paths ts) {p : Path} (hp : p ∈ paths) :
    ∃ answer, Turn.openFile p answer ∈ ts := by
  induction h with
  | nil => exact absurd hp List.not_mem_nil
  | cons hhead _ ih =>
    obtain ⟨answer, rfl⟩ := hhead
    rcases List.mem_cons.mp hp with rfl | hp
    · exact ⟨answer, List.mem_cons_self⟩
    · obtain ⟨answer', hmem⟩ := ih hp
      exact ⟨answer', List.mem_cons_of_mem _ hmem⟩

section

variable (S : Session σ)

theorem turns_openAll (files : FileTree) (paths : List Path) (x : σ) :
    Opens paths (turns (openAll S.recorded files paths) x) := by
  induction paths generalizing x with
  | nil => exact .nil
  | cons p paths ih =>
    have hturns : turns (openAll S.recorded files (p :: paths)) x =
        .openFile p (S.openFile files p x).1 :: turns (openAll S.recorded files paths) (S.openFile files p x).2 :=
      turns_bind (p := Turn.explores) (.noted fun _ => rfl) (fun _ => records_openAll S files paths) x
    rw [hturns]
    exact .cons ⟨_, rfl⟩ (ih _)

variable (interval : Nat) (target : Path) (attempts : Nat)

/-- A request for references, with its answer. -/
def askOnce (x : σ) : Attempt (Option Json) × σ := S.request "fileReferences" (some (fileArgument target)) x

theorem askReferences_of_some {x : σ} {refs : List Path} (h : references? (askOnce S target x).1 = some refs) :
    askReferences S interval target (attempts + 1) x = (some refs, (askOnce S target x).2) := by
  unfold askOnce at h ⊢
  rw [askReferences, bind_apply, h]
  rfl

theorem askReferences_of_none {x : σ} (h : references? (askOnce S target x).1 = none) :
    askReferences S interval target (attempts + 1) x =
      if attempts = 0 then (none, (askOnce S target x).2)
      else askReferences S interval target attempts (S.sleep interval (askOnce S target x).2).2 := by
  unfold askOnce at h ⊢
  rw [askReferences, bind_apply, h]
  split <;> rfl

theorem turns_askReferences_of_some {x : σ} {refs : List Path} (h : references? (askOnce S target x).1 = some refs) :
    turns (askReferences S.recorded interval target (attempts + 1)) x =
      askTurns interval target [(askOnce S target x).1] := by
  unfold turns
  rw [askReferences_of_some S.recorded interval target attempts (x := (x, [])) h]
  rfl

theorem turns_askReferences_of_none {x : σ} (h : references? (askOnce S target x).1 = none) :
    turns (askReferences S.recorded interval target (attempts + 1)) x =
      .request "fileReferences" (some (fileArgument target)) (askOnce S target x).1 ::
        if attempts = 0 then []
        else .sleep interval :: turns (askReferences S.recorded interval target attempts)
          (S.sleep interval (askOnce S target x).2).2 := by
  unfold turns
  rw [askReferences_of_none S.recorded interval target attempts (x := (x, [])) h]
  split
  · rfl
  · exact congrArg (·.2.2) ((records_askReferences S interval target attempts).run _ _)

/-- The requests for references end with the first answer that lists them, or when there were enough. -/
theorem turns_askReferences (x : σ) :
    ∃ failed : List (Attempt (Option Json)), (∀ a ∈ failed, ∀ refs, ¬ Lists a refs) ∧
      ((∃ answer refs, (askReferences S interval target attempts x).1 = some refs ∧ Lists answer refs ∧
          failed.length < attempts ∧
          turns (askReferences S.recorded interval target attempts) x = askTurns interval target (failed ++ [answer])) ∨
        (askReferences S interval target attempts x).1 = none ∧ failed.length = attempts ∧
          turns (askReferences S.recorded interval target attempts) x = askTurns interval target failed) := by
  induction attempts generalizing x with
  | zero => exact ⟨[], fun _ ha => absurd ha List.not_mem_nil, .inr ⟨rfl, rfl, rfl⟩⟩
  | succ attempts ih =>
    cases hrefs : references? (askOnce S target x).1 with
    | some refs =>
      refine ⟨[], fun _ ha => absurd ha List.not_mem_nil, .inl ⟨(askOnce S target x).1, refs, ?_, ?_, ?_, ?_⟩⟩
      · rw [askReferences_of_some S interval target attempts hrefs]
      · exact references?_eq_some_iff.mp hrefs
      · exact Nat.succ_pos attempts
      · rw [turns_askReferences_of_some S interval target attempts hrefs]
        rfl
    | none =>
      have hunlisted := references?_eq_none_iff.mp hrefs
      rw [askReferences_of_none S interval target attempts hrefs,
        turns_askReferences_of_none S interval target attempts hrefs]
      by_cases hzero : attempts = 0
      · rw [if_pos hzero, if_pos hzero]
        refine ⟨[(askOnce S target x).1], fun a ha => ?_, .inr ⟨rfl, by rw [hzero]; rfl, rfl⟩⟩
        rw [List.mem_singleton.mp ha]
        exact hunlisted
      · rw [if_neg hzero, if_neg hzero]
        obtain ⟨failed, hfailed, hrest⟩ := ih (S.sleep interval (askOnce S target x).2).2
        refine ⟨(askOnce S target x).1 :: failed, fun a ha => ?_, ?_⟩
        · rcases List.mem_cons.mp ha with rfl | ha
          · exact hunlisted
          · exact hfailed a ha
        · rcases hrest with ⟨answer, refs, hresult, hlists, hlength, hturns⟩ | ⟨hresult, hlength, hturns⟩
          · refine .inl ⟨answer, refs, hresult, hlists, Nat.succ_lt_succ hlength, ?_⟩
            rw [hturns, List.cons_append, askTurns_cons interval target _ (by simp)]
          · refine .inr ⟨hresult, congrArg Nat.succ hlength, ?_⟩
            rw [hturns, askTurns_cons interval target _ (List.ne_nil_of_length_pos (by omega))]

/-! ## Scans -/

variable (s : Scope) (index : Nat)

theorem openUnknown_eq (x : σ) :
    let asked := S.request "projectInfo" (some (projectArguments target)) x
    openUnknown S s index target x =
      ((scanFor s index asked.1).timedOut, (openAll S s.files (unseen s index target asked.1) asked.2).2) := by
  intro asked
  have hfilter : unseen s index target asked.1 = (scanFor s index asked.1).files.filter fun f =>
      !f.same target && !(knownFiles (projectInfo? asked.1)).any (f.same ·) := by
    refine List.filter_congr fun f _ => ?_
    rw [Bool.eq_iff_iff, decide_eq_true_eq, ← any_knownFiles_iff]
    simp [Path.same]
  rw [hfilter]
  rfl

/-- What a scan finds is the target, known to the server, or shown to it. -/
theorem covered_of_opens {answer : Attempt (Option Json)} {opens : List Turn}
    (h : Opens (unseen s index target answer) opens) :
    ∀ f ∈ (scanFor s index answer).files, f.parts = target.parts ∨ Knows answer f ∨
      ∃ r, Turn.openFile f r ∈ opens := by
  intro f hf
  by_cases htarget : f.parts = target.parts
  · exact .inl htarget
  · by_cases hknown : Knows answer f
    · exact .inr (.inl hknown)
    · refine .inr (.inr (h.exists_mem (List.mem_filter.mpr ⟨hf, ?_⟩)))
      exact decide_eq_true ⟨htarget, hknown⟩

theorem turns_openUnknown (x : σ) :
    let asked := S.request "projectInfo" (some (projectArguments target)) x
    turns (openUnknown S.recorded s index target) x =
      .request "projectInfo" (some (projectArguments target)) asked.1 ::
        turns (openAll S.recorded s.files (unseen s index target asked.1)) asked.2 := by
  intro asked
  unfold turns
  rw [openUnknown_eq S.recorded target s index (x, [])]
  exact congrArg (·.2.2) ((records_openAll S s.files _).run _ _)

/-! ## Targets -/

/-- What is opened after the requests for references. -/
def openListed : Option (List Path) → StateM σ Bool
  | some refs => do
    openAll S s.files (refs.filter fun f => decide (f.parts ≠ target.parts))
    return false
  | none => openUnknown S s index target

theorem openRelated_eq (path : Path) :
    openRelated S s index path = (do
      let _ ← S.openFile s.files (absolute s.root path)
      let refs ← askReferences S s.settings.attemptIntervalMs.toNat (absolute s.root path)
        s.settings.maxReferenceAttempts.toNat
      openListed S (absolute s.root path) s index refs) := by
  have hfilter : ∀ refs : List Path, (refs.filter fun f => !f.same (absolute s.root path)) =
      refs.filter fun f => decide (f.parts ≠ (absolute s.root path).parts) := by
    refine fun refs => List.filter_congr fun f _ => ?_
    rw [Bool.eq_iff_iff, decide_eq_true_eq]
    simp [Path.same]
  unfold openRelated
  refine congrArg (S.openFile s.files (absolute s.root path) >>= ·) (funext fun _ => ?_)
  refine congrArg (askReferences S _ (absolute s.root path) _ >>= ·) (funext fun refs => ?_)
  cases refs with
  | some refs => simp only [openListed, hfilter]
  | none => rfl

theorem records_openListed (refs : Option (List Path)) :
    Records Turn.explores (openListed S.recorded target s index refs) (openListed S target s index refs) := by
  cases refs with
  | some refs => exact .bind (records_openAll ..) fun _ => .pure _
  | none => exact records_openUnknown ..

theorem turns_openRelated (path : Path) (x : σ) :
    let target := absolute s.root path
    let opened := S.openFile s.files target x
    let asked := askReferences S s.settings.attemptIntervalMs.toNat target s.settings.maxReferenceAttempts.toNat opened.2
    turns (openRelated S.recorded s index path) x =
      .openFile target opened.1 ::
        (turns (askReferences S.recorded s.settings.attemptIntervalMs.toNat target
            s.settings.maxReferenceAttempts.toNat) opened.2 ++
          turns (openListed S.recorded target s index asked.1) asked.2) := by
  intro target opened asked
  have hopen : Records Turn.explores (S.recorded.openFile s.files target) (S.openFile s.files target) :=
    .noted fun _ => rfl
  have hask := records_askReferences S s.settings.attemptIntervalMs.toNat target s.settings.maxReferenceAttempts.toNat
  have hlisted := records_openListed S target s index
  rw [openRelated_eq, turns_bind hopen fun _ => .bind hask hlisted, turns_bind hask hlisted]
  rfl

theorem turns_openListed_some (refs : List Path) (x : σ) :
    turns (openListed S.recorded target s index (some refs)) x =
      turns (openAll S.recorded s.files (refs.filter fun f => decide (f.parts ≠ target.parts))) x := by
  have hturns := turns_bind (records_openAll S s.files (refs.filter fun f => decide (f.parts ≠ target.parts)))
    (fun _ => Records.pure (p := Turn.explores) false) x
  rw [turns_pure, List.append_nil] at hturns
  exact hturns

/-- Each target is explored in one of the two ways. -/
theorem explored_openRelated (path : Path) (x : σ) :
    Explored s index (absolute s.root path) (turns (openRelated S.recorded s index path) x)
      (openRelated S s index path x).1 := by
  rw [turns_openRelated, openRelated_eq, bind_apply, bind_apply]
  obtain ⟨failed, hfailed, ⟨answer, refs, hrefs, hlists, hlength, hturns⟩ | ⟨hnone, hlength, hturns⟩⟩ :=
    turns_askReferences S s.settings.attemptIntervalMs.toNat (absolute s.root path)
      s.settings.maxReferenceAttempts.toNat (S.openFile s.files (absolute s.root path) x).2
  · rw [hturns, hrefs, turns_openListed_some]
    exact .referenced hfailed hlists hlength (turns_openAll S s.files _ _)
  · rw [hturns, hnone]
    show Explored s index _ (_ :: (_ ++ turns (openUnknown S.recorded s index _) _)) (openUnknown S s index _ _).1
    rw [turns_openUnknown, openUnknown_eq]
    have hopens := turns_openAll S s.files
    exact .scanned hfailed hlength (hopens _ _) (covered_of_opens _ s index (hopens _ _))

/-- The targets one after the other. -/
theorem explored_openEach (paths : List Path) (x : σ) :
    ∃ parts : List (List Turn × Bool),
      List.Forall₂ (fun (p : Path × Nat) part => Explored s p.2 (absolute s.root p.1) part.1 part.2)
        (paths.zipIdx index) parts ∧
      turns (openEach S.recorded s index paths) x = parts.flatMap (·.1) ∧
      ((openEach S s index paths x).1 = true ↔ ∃ part ∈ parts, part.2 = true) := by
  induction paths generalizing index x with
  | nil =>
    refine ⟨[], .nil, rfl, iff_of_false Bool.false_ne_true fun h => ?_⟩
    obtain ⟨part, hpart, -⟩ := h
    exact List.not_mem_nil hpart
  | cons p paths ih =>
    obtain ⟨parts, hparts, hturns, hlate⟩ := ih (index + 1) (openRelated S s index p x).2
    have hrest : ∀ late, Records Turn.explores
        (openEach S.recorded s (index + 1) paths >>= fun later => pure (late || later))
        (openEach S s (index + 1) paths >>= fun later => pure (late || later)) := fun late =>
      .bind (records_openEach S s (index + 1) paths) fun _ => .pure _
    refine ⟨(turns (openRelated S.recorded s index p) x, (openRelated S s index p x).1) :: parts,
      .cons (explored_openRelated S s index p x) hparts, ?_, ?_⟩
    · rw [openEach, turns_bind (records_openRelated S s index p) hrest,
        turns_bind (records_openEach S s (index + 1) paths) fun _ => .pure (p := Turn.explores) _, turns_pure,
        List.append_nil, hturns]
      rfl
    · have hor : (openEach S s index (p :: paths) x).1 = ((openRelated S s index p x).1 ||
          (openEach S s (index + 1) paths (openRelated S s index p x).2).1) := rfl
      rw [hor, Bool.or_eq_true, hlate]
      simp only [List.mem_cons, exists_eq_or_imp]

end

/-- Finding files asks this of a session and nothing else. -/
theorem discovery_traced (S : Session σ) (s : Scope) (paths : List Path) (x : σ) :
    (∀ log, discover S.recorded s paths (x, log) =
        ((discover S s paths x).1, (discover S s paths x).2, log ++ turns (discover S.recorded s paths) x)) ∧
      ∃ parts : List (List Turn × Bool),
        List.Forall₂ (fun (p : Path × Nat) part => Explored s p.2 (absolute s.root p.1) part.1 part.2) paths.zipIdx parts ∧
        turns (discover S.recorded s paths) x =
          parts.flatMap (·.1) ++ [.isLoaded (discover S s paths x).1.isFullyLoaded] ∧
        ((discover S s paths x).1.didScanTimeout = true ↔ ∃ part ∈ parts, part.2 = true) := by
  refine ⟨(records_discover S s paths).run x, ?_⟩
  obtain ⟨parts, hparts, hturns, hlate⟩ := explored_openEach S s 0 paths x
  have hloaded : ∀ late : Bool, Records Turn.explores
      (S.recorded.isLoaded >>= fun loaded => pure (ProjectStatus.mk loaded late))
      (S.isLoaded >>= fun loaded => pure (ProjectStatus.mk loaded late)) := fun _ =>
    .bind (.noted fun _ => rfl) fun _ => .pure _
  refine ⟨parts, hparts, ?_, hlate⟩
  rw [discover, turns_bind (records_openEach S s 0 paths) hloaded, hturns]
  rfl

end Refactor.Discovery
