import Refactor.Proofs.Recording
import Refactor.Session.Script

/-!
# Operations in stages

An operation waits for the project, opens files, asks the server and applies the edits of the answer. A
stage that fails keeps the later ones from doing anything, and how much of the project was seen decides
caveats only.

* `Inquiry`, `Service.inquire`: what all such operations do; `runCommand_eq` and `rename_eq` say that
  these are such operations;
* `obtainEdits_eq`: the stage that waits, and the one that asks (`Service.ask`);
* `turns_of_ready`, `turns_of_not_ready`: what the session is asked, stage by stage;
* `inquire_of_ready`, `inquire_of_not_ready`: what the operation comes to;
* `Workspace.apply_status`: the status of the project decides caveats only;
* `Gated`: what follows for an operation.
-/

namespace Refactor

variable {σ τ : Type}

/-- What an operation asks of the server, and what it does with the answer. -/
structure Inquiry where
  /-- Files that the change is about. -/
  targets : List Path
  command : String
  arguments : Json
  /-- The edits of the body of an answer. -/
  decode : Option Json → Attempt (List FileEdits)
  options : CommandOptions

/-- The edits of an answer, with the status of the project, or the report of why there are none. -/
def Inquiry.read (q : Inquiry) (status : ProjectStatus) :
    Attempt (Option Json) → Except Report (ProjectStatus × List FileEdits)
  | .error e => .error (.ofFailure e)
  | .ok body =>
    match q.decode body with
    | .error e => .error (.ofFailure e)
    | .ok edits => .ok (status, edits)

namespace Service

/-- The service with a record of what its session is asked. -/
def recorded (s : Service σ) : Service (σ × List Turn) := ⟨s.session.recorded, s.root, s.settings, s.late⟩

/-- Opens files and asks. -/
def ask (s : Service σ) (files : FileTree) (q : Inquiry) :
    StateM σ (Except Report (ProjectStatus × List FileEdits)) := do
  let status ← s.discover files q.targets
  let answer ← s.session.request q.command (some q.arguments)
  return q.read status answer

/-- Asks if the wait was not in vain. -/
def askIfReady (s : Service σ) (files : FileTree) (q : Inquiry) :
    Except NotReady Unit → StateM σ (Except Report (ProjectStatus × List FileEdits))
  | .error e => pure (.error e.report)
  | .ok _ => s.ask files q

/-- Waits, asks, and applies the edits of the answer. -/
def inquire (s : Service σ) (w : Workspace) (q : Inquiry) : StateM σ (Workspace × Report) := do
  let obtained ← s.obtainEdits w.files q.targets q.command q.arguments q.decode
  return s.applyObtained w q.options obtained

/-- What is known of the project after the files were opened, and the state of the session then. -/
def explored (s : Service σ) (w : Workspace) (q : Inquiry) (x : σ) : ProjectStatus × σ :=
  s.discover w.files q.targets (s.ensureReady x).2

/-- The answer of the server, once the project is ready and files are opened. -/
def answer (s : Service σ) (w : Workspace) (q : Inquiry) (x : σ) : Attempt (Option Json) :=
  (s.session.request q.command (some q.arguments) (s.explored w q x).2).1

/-- The arguments of a request to rename what stands at a place in a file. -/
def renameInquiry (root file : Path) (line offset : UInt32) (newName : Text) (preview : Bool) : Inquiry where
  targets := [Discovery.absolute root file]
  command := "rename"
  arguments := .ofMembers [("file", .str (wirePath (Discovery.absolute root file))), ("line", .nat line.toNat),
    ("offset", .nat offset.toNat), ("findInComments", .bool false), ("findInStrings", .bool false)]
  decode := renameEdits newName
  options := ⟨preview, "the rename", false⟩

theorem runCommand_eq (s : Service σ) (w : Workspace) (command : String) (arguments : Json) (targets : List Path)
    (options : CommandOptions) :
    s.runCommand w command arguments targets options =
      s.inquire w ⟨targets, command, arguments, fileEditsOfBody, options⟩ := rfl

theorem rename_eq (s : Service σ) (w : Workspace) (file : Path) (line offset : UInt32) (newName : Text)
    (preview : Bool) :
    s.rename w file line offset newName preview = s.inquire w (renameInquiry s.root file line offset newName preview) :=
  rfl

/-! ## Stages -/

variable (s : Service σ) (w : Workspace) (q : Inquiry) {x : σ}

theorem obtainEdits_eq :
    s.obtainEdits w.files q.targets q.command q.arguments q.decode = s.ensureReady >>= s.askIfReady w.files q := by
  -- The two only differ in where the answer is read.
  refine congrArg (s.ensureReady >>= ·) (funext fun ready => ?_)
  cases ready with
  | error e => rfl
  | ok _ =>
    refine congrArg (s.discover w.files q.targets >>= ·) (funext fun status => ?_)
    refine congrArg (s.session.request q.command (some q.arguments) >>= ·) (funext fun answer => ?_)
    cases answer with
    | error e => rfl
    | ok body =>
      dsimp only [Inquiry.read]
      cases q.decode body <;> rfl

theorem records_wait : Records Turn.isQuiet s.recorded.ensureReady s.ensureReady := records_ensureReady ..

theorem records_explore (files : FileTree) (targets : List Path) :
    Records Turn.explores (s.recorded.discover files targets) (s.discover files targets) := records_discover ..

theorem records_ask (files : FileTree) : Records Turn.any (s.recorded.ask files q) (s.ask files q) :=
  .bind ((s.records_explore files q.targets).mono fun _ _ => rfl) fun _ => .bind (.noted fun _ => rfl) fun _ => .pure _

theorem records_askIfReady (files : FileTree) (ready : Except NotReady Unit) :
    Records Turn.any (s.recorded.askIfReady files q ready) (s.askIfReady files q ready) := by
  cases ready with
  | error e => exact .pure _
  | ok _ => exact s.records_ask q files

theorem records_obtainEdits :
    Records Turn.any (s.recorded.obtainEdits w.files q.targets q.command q.arguments q.decode)
      (s.obtainEdits w.files q.targets q.command q.arguments q.decode) := by
  rw [obtainEdits_eq, obtainEdits_eq]
  exact .bind (s.records_wait.mono fun _ _ => rfl) (s.records_askIfReady q w.files)

/-- An operation does the same with a recorded session. -/
theorem records_inquire : Records Turn.any (s.recorded.inquire w q) (s.inquire w q) :=
  .bind (s.records_obtainEdits w q) fun _ => .pure _

theorem turns_ask (files : FileTree) (x : σ) :
    turns (s.recorded.ask files q) x = turns (s.recorded.discover files q.targets) x ++
      [.request q.command (some q.arguments)
        (s.session.request q.command (some q.arguments) (s.discover files q.targets x).2).1] := by
  have hrest : ∀ status : ProjectStatus, Records Turn.any
      (s.recorded.session.request q.command (some q.arguments) >>= fun answer => pure (q.read status answer))
      (s.session.request q.command (some q.arguments) >>= fun answer => pure (q.read status answer)) := fun _ =>
    .bind (.noted fun _ => rfl) fun _ => .pure _
  exact turns_bind (s.records_explore files q.targets) hrest x

theorem turns_inquire (x : σ) :
    turns (s.recorded.inquire w q) x = turns s.recorded.ensureReady x ++
      turns (s.recorded.askIfReady w.files q (s.ensureReady x).1) (s.ensureReady x).2 := by
  have hobtain := s.records_obtainEdits w q
  rw [inquire, turns_bind hobtain fun _ => .pure (p := Turn.any) _, turns_pure, List.append_nil, obtainEdits_eq,
    turns_bind s.records_wait (s.records_askIfReady q w.files)]

/-! ## What an operation comes to -/

theorem inquire_fst (x : σ) :
    (s.inquire w q x).1 =
      s.applyObtained w q.options (s.askIfReady w.files q (s.ensureReady x).1 (s.ensureReady x).2).1 := by
  have hobtained : (s.inquire w q x).1 =
      s.applyObtained w q.options (s.obtainEdits w.files q.targets q.command q.arguments q.decode x).1 := rfl
  rw [hobtained, obtainEdits_eq]
  rfl

theorem inquire_of_not_ready {e : NotReady} (h : (s.ensureReady x).1 = .error e) :
    (s.inquire w q x).1 = (w, e.report) := by
  rw [inquire_fst, h]
  rfl

theorem inquire_of_ready (h : (s.ensureReady x).1 = .ok ()) :
    (s.inquire w q x).1 = s.applyObtained w q.options (q.read (s.explored w q x).1 (s.answer w q x)) := by
  rw [inquire_fst, h]
  rfl

end Service

/-! ## The status of the project -/

/-- Two reports are the same but for the caveats of two statuses, which are added to their messages. -/
def Report.SameButCaveats (context : String) (status status' : ProjectStatus) (r r' : Report) : Prop :=
  r = r' ∨ ∃ report : Report, r = report.withWarning (status.caveat context) ∧
    r' = report.withWarning (status'.caveat context)

/-- The status of the project decides caveats only. -/
theorem Workspace.apply_status (w : Workspace) (root : Path) (preview : Bool) (status status' : ProjectStatus)
    (context : String) (normalize : Bool) (edits : List FileEdits) :
    (w.apply root ⟨preview, status, context, normalize⟩ edits).1 =
        (w.apply root ⟨preview, status', context, normalize⟩ edits).1 ∧
      Report.SameButCaveats context status status' (w.apply root ⟨preview, status, context, normalize⟩ edits).2
        (w.apply root ⟨preview, status', context, normalize⟩ edits).2 := by
  have hrun : ∀ t ps, Batch.run t ⟨preview, status, context, normalize⟩ ps =
      Batch.run t ⟨preview, status', context, normalize⟩ ps := fun _ _ => rfl
  simp only [apply, hrun]
  refine ⟨trivial, ?_⟩
  cases (Batch.run w.files ⟨preview, status', context, normalize⟩ (Batch.group w.files root edits)).2 with
  | ok records => exact .inr ⟨_, rfl, rfl⟩
  | error e => exact .inl rfl

namespace Service

/-! ## Gates between the stages -/

/-- What an operation on a workspace comes to from a state of the session, stage by stage. -/
structure Gated (operation : ∀ τ : Type, Service τ → StateM τ (Workspace × Report)) (w : Workspace) (q : Inquiry)
    (s : Service σ) (x : σ) : Prop where
  /-- A record of the turns of the session can be kept along. -/
  recorded : ∀ log, operation _ s.recorded (x, log) =
    ((operation _ s x).1, (operation _ s x).2, log ++ turns (operation _ s.recorded) x)
  /-- Unless the project is ready, no file is shown to the server and no request made. -/
  guarded : ∀ t ∈ turns (operation _ s.recorded) x, t.isQuiet = false → (s.ensureReady x).1 = .ok ()
  /-- If it is, files are opened, which only makes requests to find them, and then the server is asked. -/
  stages : (s.ensureReady x).1 = .ok () →
    turns (operation _ s.recorded) x = turns s.recorded.ensureReady x ++
      turns (s.recorded.discover w.files q.targets) (s.ensureReady x).2 ++
        [.request q.command (some q.arguments) (s.answer w q x)]
  waiting : ∀ t ∈ turns s.recorded.ensureReady x, t.isQuiet = true
  exploring : ∀ t ∈ turns (s.recorded.discover w.files q.targets) (s.ensureReady x).2, t.explores = true
  once : (s.ensureReady x).1 = .ok () → q.command ≠ "fileReferences" → q.command ≠ "projectInfo" →
    (turns (operation _ s.recorded) x).countP (·.asks q.command) = 1
  /-- If the project is not ready, the request fails or its answer has no edits, the files and their locks stay as they
  are. -/
  notReady : ∀ e, (s.ensureReady x).1 = .error e → (operation _ s x).1 = (w, e.report) ∧ e.report.success = false
  unanswered : (s.ensureReady x).1 = .ok () → ∀ e, s.answer w q x = .error e →
    (operation _ s x).1 = (w, .ofFailure e) ∧ (Report.ofFailure e).success = false
  undecoded : (s.ensureReady x).1 = .ok () → ∀ body e, s.answer w q x = .ok body → q.decode body = .error e →
    (operation _ s x).1 = (w, .ofFailure e) ∧ (Report.ofFailure e).success = false
  /-- Otherwise the edits are applied. -/
  applied : (s.ensureReady x).1 = .ok () → ∀ body edits, s.answer w q x = .ok body → q.decode body = .ok edits →
    (operation _ s x).1 =
      w.apply s.root ⟨q.options.preview, (s.explored w q x).1, q.options.context, q.options.normalize⟩ edits
  /-- Another session that is as ready and gives the same answer leaves the same workspace, and the same report but for
  caveats, whatever it answered meanwhile. -/
  status : ∀ (τ : Type) (s' : Service τ) (x' : τ), s'.root = s.root → (s'.ensureReady x').1 = (s.ensureReady x).1 →
    s'.answer w q x' = s.answer w q x →
    (operation _ s' x').1.1 = (operation _ s x).1.1 ∧
      Report.SameButCaveats q.options.context (s'.explored w q x').1 (s.explored w q x).1 (operation _ s' x').1.2
        (operation _ s x).1.2

variable (s : Service σ) (w : Workspace) (q : Inquiry) (x : σ)

theorem countP_asks_of_isQuiet {ts : List Turn} (h : ∀ t ∈ ts, t.isQuiet = true) (command : String) :
    ts.countP (·.asks command) = 0 := by
  refine List.countP_eq_zero.mpr fun t ht => ?_
  have hquiet := h t ht
  cases t with
  | request => cases hquiet
  | _ => exact Bool.false_ne_true

theorem countP_asks_of_explores {ts : List Turn} (h : ∀ t ∈ ts, t.explores = true) {command : String}
    (hrefs : command ≠ "fileReferences") (hinfo : command ≠ "projectInfo") : ts.countP (·.asks command) = 0 := by
  refine List.countP_eq_zero.mpr fun t ht => ?_
  have hexplores := h t ht
  cases t with
  | request command' =>
    simp only [Turn.explores, decide_eq_true_eq] at hexplores
    simp only [Turn.asks, decide_eq_true_eq]
    rintro rfl
    exact hexplores.elim hrefs hinfo
  | _ => exact Bool.false_ne_true

theorem turns_of_ready (h : (s.ensureReady x).1 = .ok ()) :
    turns (s.recorded.inquire w q) x = turns s.recorded.ensureReady x ++
      turns (s.recorded.discover w.files q.targets) (s.ensureReady x).2 ++
        [.request q.command (some q.arguments) (s.answer w q x)] := by
  rw [turns_inquire, h, List.append_assoc]
  exact congrArg _ (s.turns_ask q w.files _)

theorem turns_of_not_ready {e : NotReady} (h : (s.ensureReady x).1 = .error e) :
    turns (s.recorded.inquire w q) x = turns s.recorded.ensureReady x := by
  rw [turns_inquire, h]
  exact List.append_nil _

theorem applyObtained_status {s' : Service τ} (hroot : s'.root = s.root) (status status' : ProjectStatus)
    (answer : Attempt (Option Json)) :
    (s'.applyObtained w q.options (q.read status' answer)).1 = (s.applyObtained w q.options (q.read status answer)).1 ∧
      Report.SameButCaveats q.options.context status' status (s'.applyObtained w q.options (q.read status' answer)).2
        (s.applyObtained w q.options (q.read status answer)).2 := by
  cases answer with
  | error e => exact ⟨rfl, .inl rfl⟩
  | ok body =>
    simp only [Inquiry.read]
    cases q.decode body with
    | error e => exact ⟨rfl, .inl rfl⟩
    | ok edits =>
      simp only [applyObtained, hroot]
      exact w.apply_status s.root q.options.preview status' status q.options.context q.options.normalize edits

/-- Operations that ask in this way in any service of the same project go through the stages. -/
theorem gated_of_eq {operation : ∀ τ : Type, Service τ → StateM τ (Workspace × Report)}
    (h : ∀ (τ : Type) (s' : Service τ), s'.root = s.root → operation τ s' = s'.inquire w q) :
    Gated operation w q s x where
  recorded := by
    rw [h _ s rfl, h _ s.recorded rfl]
    exact (s.records_inquire w q).run x
  guarded t ht hloud := by
    cases hready : (s.ensureReady x).1 with
    | ok _ => rfl
    | error e =>
      rw [h _ s.recorded rfl, s.turns_of_not_ready w q x hready] at ht
      rw [s.records_wait.kind x t ht] at hloud
      cases hloud
  stages hready := by
    rw [h _ s.recorded rfl]
    exact s.turns_of_ready w q x hready
  waiting := s.records_wait.kind x
  exploring := (s.records_explore w.files q.targets).kind _
  once hready hrefs hinfo := by
    rw [h _ s.recorded rfl, s.turns_of_ready w q x hready, List.countP_append, List.countP_append,
      countP_asks_of_isQuiet (s.records_wait.kind x),
      countP_asks_of_explores ((s.records_explore w.files q.targets).kind _) hrefs hinfo]
    simp [Turn.asks]
  notReady e he := by
    rw [h _ s rfl]
    exact ⟨s.inquire_of_not_ready w q he, rfl⟩
  unanswered hready e he := by
    rw [h _ s rfl, s.inquire_of_ready w q hready, he]
    exact ⟨rfl, rfl⟩
  undecoded hready body e hbody he := by
    rw [h _ s rfl, s.inquire_of_ready w q hready, hbody, Inquiry.read, he]
    exact ⟨rfl, rfl⟩
  applied hready body edits hbody hedits := by
    rw [h _ s rfl, s.inquire_of_ready w q hready, hbody, Inquiry.read, hedits]
    rfl
  status τ s' x' hroot hguard hanswer := by
    rw [h _ s rfl, h _ s' hroot]
    -- Both projects are ready or neither is, and after the same answer only the status can differ.
    cases hready : (s.ensureReady x).1 with
    | error e =>
      rw [s.inquire_of_not_ready w q hready, s'.inquire_of_not_ready w q (hguard.trans hready)]
      exact ⟨rfl, .inl rfl⟩
    | ok _ =>
      rw [s.inquire_of_ready w q hready, s'.inquire_of_ready w q (hguard.trans hready), hanswer]
      exact s.applyObtained_status w q hroot _ _ _

/-- An answer to a request to rename has edits exactly if it has a body that decodes and says that it can be done. -/
theorem renameEdits_iff (newName : Text) (body : Option Json) :
    (∃ edits, renameEdits newName body = .ok edits) ↔
      ∃ json b, body = some json ∧ RenameBody.decode json = .ok b ∧ b.canRename = true := by
  cases body with
  | none => simp [renameEdits]
  | some json =>
    cases hb : RenameBody.decode json with
    | error e => simp [renameEdits, hb]
    | ok b => cases hc : b.canRename <;> simp [renameEdits, hb, RenameBody.edits, hc]

end Service

/-- Commands whose answers are edits, and renaming, go through their stages in order. -/
theorem operations_gated (s : Service σ) (x : σ) (w : Workspace) :
    (∀ command arguments targets options,
      Service.Gated (fun _ s => s.runCommand w command arguments targets options) w
        ⟨targets, command, arguments, fileEditsOfBody, options⟩ s x) ∧
      ∀ file line offset newName preview,
        Service.Gated (fun _ s => s.rename w file line offset newName preview) w
            (Service.renameInquiry s.root file line offset newName preview) s x ∧
          ∀ body, (∃ edits, Service.renameEdits newName body = .ok edits) ↔
            ∃ json b, body = some json ∧ RenameBody.decode json = .ok b ∧ b.canRename = true := by
  refine ⟨fun command arguments targets options => ?_, fun file line offset newName preview => ⟨?_, ?_⟩⟩
  · exact s.gated_of_eq w _ x fun τ s' _ => s'.runCommand_eq w command arguments targets options
  · refine s.gated_of_eq w _ x fun τ s' hroot => ?_
    rw [s'.rename_eq, hroot]
  · exact Service.renameEdits_iff newName

/-- A project that is loaded at first and then loads again: the same file is made, and the report may have a caveat. -/
theorem operations_gated_indexing :
    let s : Service Script := ⟨Script.session, ⟨"/p"⟩, .default, fun _ _ => false⟩
    let w : Workspace := ⟨⟨.dir [("p", .dir [])], [], {}⟩, {}⟩
    let body : Json := .arr [.obj [("fileName", .str "a.ts"), ("isNewFile", .bool true)]]
    let loaded : Script := { responses := [("organizeImports", [.ok (some body)])] }
    let indexing : Script := { loaded with loaded := [true, false] }
    let q : Inquiry := ⟨[], "organizeImports", .null, fileEditsOfBody, {}⟩
    let run := s.runCommand w "organizeImports" .null [] {}
    (s.ensureReady loaded).1 = .ok () ∧ (s.ensureReady indexing).1 = .ok () ∧
      s.answer w q indexing = s.answer w q loaded ∧ (s.explored w q loaded).1 = ⟨true, false⟩ ∧
      (s.explored w q indexing).1 = ⟨false, false⟩ ∧ (run indexing).1.1 = (run loaded).1.1 ∧
      Report.SameButCaveats "the operation" ⟨false, false⟩ ⟨true, false⟩ (run indexing).1.2 (run loaded).1.2 := by
  intro s w body loaded indexing q run
  have hloaded : (s.ensureReady loaded).1 = .ok () := rfl
  have hindexing : (s.ensureReady indexing).1 = .ok () := rfl
  have hgated := (operations_gated s loaded w).1 "organizeImports" .null [] {}
  exact ⟨hloaded, hindexing, rfl, rfl, rfl, hgated.status Script s indexing rfl (hindexing.trans hloaded.symm) rfl⟩

end Refactor
