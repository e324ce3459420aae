import Refactor.Service

/-!
# What a session is asked

A session can be given a record of its turns, the calls that were made of it and what they came to. An
operation does the same with a recorded session as with the session itself, and what it adds to the
record says what it asked, in order.

* `Session.recorded`, `turns`: a session with a record, and what an operation adds to it;
* `Records`: an operation does the same with the record, and all turns are of some kind;
  `Records.bind`, `turns_bind`: operations one after the other;
* `records_ensureReady`: waiting for the project shows no files and makes no requests;
* `records_discover`: opening files only makes requests to find them.
-/

namespace Refactor

variable {σ α β : Type}

/-- A call of a session, with what it came to. -/
inductive Turn where
  | isRunning (answer : Bool)
  | isLoaded (answer : Bool)
  | start (root : Path) (answer : Attempt Unit)
  | request (command : String) (arguments : Option Json) (answer : Attempt (Option Json))
  | openFile (path : Path) (answer : Attempt Unit)
  | sleep (ms : Nat)

namespace Turn

/-- Neither a request nor a file that is shown to the server. -/
def isQuiet : Turn → Bool
  | .request .. | .openFile .. => false
  | _ => true

/-- A turn that helps to find files. -/
def explores : Turn → Bool
  | .isRunning _ | .start .. => false
  | .request command .. => command = "fileReferences" ∨ command = "projectInfo"
  | _ => true

/-- Every turn. -/
def any (_ : Turn) : Bool := true

/-- A request of a command. -/
def asks (command : String) : Turn → Bool
  | .request command' .. => command' = command
  | _ => false

end Turn

/-- An operation that adds a turn to the record. -/
def noted (m : StateM σ α) (turn : α → Turn) : StateM (σ × List Turn) α := fun (x, log) =>
  let (a, x) := m x
  (a, x, log ++ [turn a])

/-- The session with a record of its turns. -/
def Session.recorded (S : Session σ) : Session (σ × List Turn) where
  isRunning := noted S.isRunning .isRunning
  isLoaded := noted S.isLoaded .isLoaded
  start root := noted (S.start root) (.start root)
  request command arguments := noted (S.request command arguments) (.request command arguments)
  openFile files path := noted (S.openFile files path) (.openFile path)
  sleep ms := noted (S.sleep ms) fun _ => .sleep ms
  now x := S.now x.1
  looks x := S.looks x.1

/-- What an operation adds to the record. -/
def turns (m : StateM (σ × List Turn) α) (x : σ) : List Turn := (m (x, [])).2.2

/-- `m'` does what `m` does, and adds turns of a kind to the record. -/
structure Records (p : Turn → Bool) (m' : StateM (σ × List Turn) α) (m : StateM σ α) : Prop where
  run : ∀ x log, m' (x, log) = ((m x).1, (m x).2, log ++ turns m' x)
  kind : ∀ x, ∀ t ∈ turns m' x, p t = true

variable {p q : Turn → Bool} {m' : StateM (σ × List Turn) α} {m : StateM σ α} {f' : α → StateM (σ × List Turn) β}
  {f : α → StateM σ β}

theorem bind_apply (m : StateM σ α) (f : α → StateM σ β) (x : σ) : (m >>= f) x = f (m x).1 (m x).2 := rfl

theorem get_bind_apply (f : σ → StateM σ β) (x : σ) : (get >>= f) x = f x x := rfl

theorem turns_pure (a : α) (x : σ) : turns (pure a) x = [] := rfl

theorem turns_noted (m : StateM σ α) (turn : α → Turn) (x : σ) : turns (noted m turn) x = [turn (m x).1] := rfl

/-- The turns of one operation after another. -/
theorem turns_bind (hm : Records p m' m) (hf : ∀ a, Records q (f' a) (f a)) (x : σ) :
    turns (m' >>= f') x = turns m' x ++ turns (f' (m x).1) (m x).2 := by
  show (f' (m' (x, [])).1 (m' (x, [])).2).2.2 = _
  rw [hm.run, (hf _).run, List.nil_append]

namespace Records

theorem mono (h : Records p m' m) (hpq : ∀ t, p t = true → q t = true) : Records q m' m :=
  ⟨h.run, fun x t ht => hpq t (h.kind x t ht)⟩

theorem pure (a : α) : Records p (Pure.pure a) (Pure.pure a : StateM σ α) :=
  ⟨fun x log => by rw [turns_pure, List.append_nil]; rfl, fun _ _ ht => absurd ht List.not_mem_nil⟩

theorem noted {turn : α → Turn} (h : ∀ a, p (turn a) = true) : Records p (noted m turn) m :=
  ⟨fun _ _ => rfl, fun x t ht => by
    rw [turns_noted, List.mem_singleton] at ht
    rw [ht]
    exact h _⟩

theorem bind (hm : Records p m' m) (hf : ∀ a, Records p (f' a) (f a)) : Records p (m' >>= f') (m >>= f) where
  run x log := by
    rw [turns_bind hm hf, ← List.append_assoc]
    show f' (m' (x, log)).1 (m' (x, log)).2 = _
    rw [hm.run, (hf _).run]
    rfl
  kind x t ht := by
    rw [turns_bind hm hf, List.mem_append] at ht
    exact ht.elim (hm.kind x t) ((hf _).kind _ t)

theorem sleep (S : Session σ) {ms : Nat} (h : p (.sleep ms) = true) : Records p (S.recorded.sleep ms) (S.sleep ms) :=
  @noted _ _ p (S.sleep ms) (fun _ => .sleep ms) fun _ => h

/-- What is read off the state does not depend on the record. -/
theorem get {f' : σ × List Turn → StateM (σ × List Turn) α} {f : σ → StateM σ α}
    (hf : ∀ x log, Records p (f' (x, log)) (f x)) (hlog : ∀ x log, f' (x, log) = f' (x, [])) :
    Records p (MonadState.get >>= f') (MonadState.get >>= f) where
  run x log := by
    -- The operation is given the record with the state, but goes on in the same way for any record.
    show f' (x, log) (x, log) = _
    rw [hlog, (hf x []).run]
    rfl
  kind x := (hf x []).kind x

end Records

/-! ## Waiting for the project -/

theorem records_poll (S : Session σ) (interval timeout began fuel : Nat) :
    Records Turn.isQuiet (Readiness.poll S.recorded interval timeout began fuel)
      (Readiness.poll S interval timeout began fuel) := by
  induction fuel with
  | zero => exact .pure _
  | succ fuel ih =>
    refine .bind (.noted fun _ => rfl) fun loaded => ?_
    cases loaded with
    | true => exact .pure _
    | false =>
      refine .get (fun x log => ?_) fun _ _ => rfl
      show Records _ (if timeout ≤ S.now x - began then _ else _) (if timeout ≤ S.now x - began then _ else _)
      split
      · exact .pure _
      · exact .bind (.sleep S rfl) fun _ => ih

theorem records_ensureStarted (S : Session σ) (root : Path) :
    Records Turn.isQuiet (Readiness.ensureStarted S.recorded root) (Readiness.ensureStarted S root) := by
  refine .bind (.noted fun _ => rfl) fun running => ?_
  cases running with
  | true => exact .pure _
  | false =>
    refine .bind (.noted fun _ => rfl) fun started => ?_
    split <;> exact .pure _

/-- Waiting for the project shows no files and makes no requests. -/
theorem records_ensureReady (S : Session σ) (root : Path) (interval timeout : Nat) :
    Records Turn.isQuiet (Readiness.ensureReady S.recorded root interval timeout)
      (Readiness.ensureReady S root interval timeout) := by
  refine .get (fun x log => .bind (records_ensureStarted S root) fun started => ?_) fun _ _ => rfl
  cases started with
  | error e => exact .pure _
  | ok _ => exact .get (fun y log => records_poll S interval timeout (S.now x) _) fun _ _ => rfl

/-! ## Finding files -/

theorem records_openAll (S : Session σ) (files : FileTree) (paths : List Path) :
    Records Turn.explores (Discovery.openAll S.recorded files paths) (Discovery.openAll S files paths) := by
  induction paths with
  | nil => exact .pure _
  | cons p paths ih => exact .bind (.noted fun _ => rfl) fun _ => ih

theorem records_askReferences (S : Session σ) (interval : Nat) (target : Path) (attempts : Nat) :
    Records Turn.explores (Discovery.askReferences S.recorded interval target attempts)
      (Discovery.askReferences S interval target attempts) := by
  induction attempts with
  | zero => exact .pure _
  | succ attempts ih =>
    refine .bind (.noted fun _ => rfl) fun answer => ?_
    cases Discovery.references? answer with
    | some refs => exact .pure _
    | none =>
      dsimp only
      split
      · exact .pure _
      · exact .bind (.sleep S rfl) fun _ => ih

theorem records_openUnknown (S : Session σ) (s : Discovery.Scope) (index : Nat) (target : Path) :
    Records Turn.explores (Discovery.openUnknown S.recorded s index target) (Discovery.openUnknown S s index target) :=
  .bind (.noted fun _ => rfl) fun _ => .bind (records_openAll ..) fun _ => .pure _

theorem records_openRelated (S : Session σ) (s : Discovery.Scope) (index : Nat) (path : Path) :
    Records Turn.explores (Discovery.openRelated S.recorded s index path) (Discovery.openRelated S s index path) := by
  refine .bind (.noted fun _ => rfl) fun _ => .bind (records_askReferences ..) fun refs => ?_
  cases refs with
  | some refs => exact .bind (records_openAll ..) fun _ => .pure _
  | none => exact records_openUnknown ..

theorem records_openEach (S : Session σ) (s : Discovery.Scope) (index : Nat) (paths : List Path) :
    Records Turn.explores (Discovery.openEach S.recorded s index paths) (Discovery.openEach S s index paths) := by
  induction paths generalizing index with
  | nil => exact .pure _
  | cons p paths ih => exact .bind (records_openRelated ..) fun _ => .bind (ih _) fun _ => .pure _

/-- Opening files only makes requests to find them. -/
theorem records_discover (S : Session σ) (s : Discovery.Scope) (paths : List Path) :
    Records Turn.explores (Discovery.discover S.recorded s paths) (Discovery.discover S s paths) :=
  .bind (records_openEach ..) fun _ => .bind (.noted fun _ => rfl) fun _ => .pure _

end Refactor
