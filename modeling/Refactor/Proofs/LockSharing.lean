import Refactor.Proofs.LockLedger

/-!
# Batches that share locks

Batches obtain, hold and release locks step by step, and between any two steps of one batch there may be steps
of others, or anybody may get a lock, take it, give it up or clean up.

* `Sharing.Stage.next`: the steps of one batch;
* `Sharing.run`: any steps of any batches and of anybody else, in any order;
* `Sharing.Sound.step`, `Sharing.Sound.run`: the ledger stays sound, and a batch has nothing but what it has
  at its stage.
-/

namespace Refactor

/-! ## What a batch has -/

/-- Handles and guards that a batch obtained are among the given ones. -/
structure Ledger.OnlyHas (s : Ledger) (batch : Nat) (handles guards : List Nat) : Prop where
  handle : ∀ h ∈ s.locks.handles, ∀ o, s.origin? h.1 = some o → o.batch? = some batch → h.1 ∈ handles
  guard : ∀ g ∈ s.locks.guards, ∀ o, s.origin? g.id = some o → o.batch? = some batch → g.id ∈ guards

namespace Ledger.OnlyHas

variable {s s' : Ledger} {batch : Nat} {batch? : Option Nat} {handles handles' guards guards' : List Nat}

theorem leads (h : s.OnlyHas batch handles guards) (hl : Leads s s' batch? handles' guards') :
    s'.OnlyHas batch (handles ++ handles') (guards ++ guards') where
  handle x hx o ho hb := by
    rcases hl.handle x hx with ⟨hx', heq⟩ | ⟨-, hx', -⟩
    · exact List.mem_append_left _ (h.handle x hx' o (heq ▸ ho) hb)
    · exact List.mem_append_right _ hx'
  guard g hg o ho hb := by
    rcases hl.guard g hg with ⟨hg', heq⟩ | ⟨-, hg', -⟩
    · exact List.mem_append_left _ (h.guard g hg' o (heq ▸ ho) hb)
    · exact List.mem_append_right _ hg'

/-- What others obtain is nothing that the batch has. -/
theorem leads_of_ne (h : s.OnlyHas batch handles guards) (hl : Leads s s' batch? handles' guards')
    (hne : batch? ≠ some batch) : s'.OnlyHas batch handles guards where
  handle x hx o ho hb := by
    rcases hl.handle x hx with ⟨hx', heq⟩ | ⟨-, -, hnew⟩
    · exact h.handle x hx' o (heq ▸ ho) hb
    · exact absurd ((hnew o ho).symm.trans hb) hne
  guard g hg o ho hb := by
    rcases hl.guard g hg with ⟨hg', heq⟩ | ⟨-, -, hnew⟩
    · exact h.guard g hg' o (heq ▸ ho) hb
    · exact absurd ((hnew o ho).symm.trans hb) hne

theorem drop {handle : Nat} (h : s.OnlyHas batch (handle :: handles) guards) :
    (s.drop handle).OnlyHas batch handles guards where
  handle x hx o ho hb := by
    obtain ⟨hx, hne⟩ := List.mem_filter.mp hx
    exact (List.mem_cons.mp (h.handle x hx o ho hb)).resolve_left (of_decide_eq_true hne)
  guard := h.guard

theorem release {guard : Nat} (h : s.OnlyHas batch handles (guard :: guards)) :
    (s.release guard).OnlyHas batch handles guards where
  handle := h.handle
  guard g hg o ho hb := by
    obtain ⟨hg, hne⟩ := List.mem_filter.mp hg
    exact (List.mem_cons.mp (h.guard g hg o ho hb)).resolve_left (of_decide_eq_true hne)

theorem batch_ne (h : s.OnlyHas batch [] []) {id lock : Nat} {o : Origin} (hl : s.Live id lock o) :
    o.batch? ≠ some batch := by
  intro hb
  rcases Locks.mem_holders.mp hl.1 with hx | ⟨g, hg, hid⟩
  · exact List.not_mem_nil (h.handle _ hx o hl.2 hb)
  · obtain ⟨rfl, -⟩ := Prod.mk.inj hid
    exact List.not_mem_nil (h.guard g hg o hl.2 hb)

end Ledger.OnlyHas

/-! ## Steps -/

namespace Sharing

/-- How far a batch is, and the guards that it holds. -/
inductive Stage where
  /-- It has paths left to hold the locks of. -/
  | collecting (held : List Nat) (paths : List Path)
  /-- It has a handle and waits for the lock to be free. -/
  | waiting (held : List Nat) (handle : Nat) (paths : List Path)
  /-- It reads, edits and writes. -/
  | working (held : List Nat)
  /-- It has guards left to release, and then cleans up. -/
  | leaving (held : List Nat)
  | finished

namespace Stage

def held : Stage → List Nat
  | collecting held _ | waiting held _ _ | working held | leaving held => held
  | finished => []

def handles : Stage → List Nat
  | waiting _ handle _ => [handle]
  | _ => []

/-- The next step of a batch. It stays where it is while the lock that it waits for is not free. -/
def next (t : FileTree) (batch : Nat) (s : Ledger) : Stage → Stage × Ledger
  | collecting held [] => (working held, s)
  | collecting held (p :: paths) =>
    let (handle, s) := s.get ⟨Locks.keyOf t p, some batch⟩
    (waiting held handle paths, s)
  | waiting held handle paths =>
    match s.take? handle true (some batch) with
    | some (guard, s) => (collecting (held ++ [guard]) paths, s.drop handle)
    | none => (waiting held handle paths, s)
  | working held => (leaving held, s)
  | leaving (guard :: held) => (leaving held, s.release guard)
  | leaving [] => (finished, s.cleanup)
  | finished => (finished, s)

variable {t : FileTree} {batch : Nat} {s : Ledger}

theorem next_waiting_of_some {held : List Nat} {handle guard : Nat} {paths : List Path} {s' : Ledger}
    (h : s.take? handle true (some batch) = some (guard, s')) :
    next t batch s (waiting held handle paths) = (collecting (held ++ [guard]) paths, s'.drop handle) := by
  rw [next, h]

theorem next_waiting_of_none {held : List Nat} {handle : Nat} {paths : List Path}
    (h : s.take? handle true (some batch) = none) :
    next t batch s (waiting held handle paths) = (waiting held handle paths, s) := by
  rw [next, h]

/-- A step keeps the ledger sound and obtains things for its batch only, which then has what it has at its
next stage. -/
theorem next_spec (h : s.Sound) (stage : Stage) (hb : s.OnlyHas batch stage.handles stage.held) :
    (stage.next t batch s).2.Sound ∧
      (∃ handles guards, s.Leads (stage.next t batch s).2 (some batch) handles guards) ∧
      (stage.next t batch s).2.OnlyHas batch (stage.next t batch s).1.handles (stage.next t batch s).1.held := by
  cases stage with
  | collecting held paths =>
    cases paths with
    | nil => exact ⟨h, ⟨_, _, .refl⟩, hb⟩
    | cons p paths =>
      have hl := Ledger.Leads.get h ⟨Locks.keyOf t p, some batch⟩
      have honly := hb.leads hl
      rw [List.append_nil] at honly
      exact ⟨h.get _, ⟨_, _, hl⟩, honly⟩
  | waiting held handle paths =>
    cases ht : s.take? handle true (some batch) with
    | none =>
      rw [next_waiting_of_none ht]
      exact ⟨h, ⟨_, _, .refl⟩, hb⟩
    | some taken =>
      obtain ⟨guard, s'⟩ := taken
      have hl := Ledger.Leads.take h ht
      rw [next_waiting_of_some ht]
      exact ⟨(h.take ht).drop handle, ⟨_, _, hl.trans_fewer (.drop handle)⟩, (hb.leads hl).drop⟩
  | working held => exact ⟨h, ⟨_, _, .refl⟩, hb⟩
  | leaving held =>
    cases held with
    | nil => exact ⟨h.cleanup, ⟨_, _, .cleanup⟩, hb.handle, hb.guard⟩
    | cons guard held => exact ⟨h.release guard, ⟨_, _, .release guard⟩, hb.release⟩
  | finished => exact ⟨h, ⟨_, _, .refl⟩, hb⟩

/-- A batch finishes by cleaning up. -/
theorem eq_leaving_of_next {stage : Stage} (hne : stage ≠ finished) (h : (stage.next t batch s).1 = finished) :
    stage = leaving [] := by
  cases stage with
  | collecting held paths => cases paths <;> cases h
  | waiting held handle paths =>
    cases ht : s.take? handle true (some batch) with
    | none => rw [next_waiting_of_none ht] at h; cases h
    | some taken => rw [next_waiting_of_some ht] at h; cases h
  | working held => cases h
  | leaving held =>
    cases held with
    | nil => rfl
    | cons guard held => cases h
  | finished => exact absurd rfl hne

end Stage

end Sharing

open Sharing (Stage)

/-- Locks that batches share, and how far the batches are. -/
structure Sharing where
  ledger : Ledger := {}
  stages : Nat → Stage := fun _ => .finished

namespace Sharing

/-- What can happen next. Anybody gets, takes and gives up locks and cleans up; a batch starts or takes a step. -/
inductive Event where
  | get (path : Path)
  | drop (handle : Nat)
  | take (handle : Nat) (exclusive : Bool)
  | release (guard : Nat)
  | cleanup
  | start (batch : Nat) (paths : List Path)
  | advance (batch : Nat)

/-- One batch at another stage. -/
def put (s : Sharing) (batch : Nat) (stage : Stage) (ledger : Ledger) : Sharing :=
  ⟨ledger, fun j => if j = batch then stage else s.stages j⟩

/-- What happens, with the files as they are. What cannot be, changes nothing. -/
def step (t : FileTree) (s : Sharing) : Event → Sharing
  | .get p => { s with ledger := (s.ledger.get ⟨Locks.keyOf t p, none⟩).2 }
  | .drop handle => { s with ledger := s.ledger.drop handle }
  | .take handle exclusive => { s with ledger := ((s.ledger.take? handle exclusive none).map Prod.snd).getD s.ledger }
  | .release guard => { s with ledger := s.ledger.release guard }
  | .cleanup => { s with ledger := s.ledger.cleanup }
  | .start batch paths =>
    match s.stages batch with
    | .finished => s.put batch (.collecting [] paths) s.ledger
    | _ => s
  | .advance batch =>
    let (stage, ledger) := (s.stages batch).next t batch s.ledger
    s.put batch stage ledger

/-- What happens in turn. -/
def run (t : FileTree) (s : Sharing) (events : List Event) : Sharing := events.foldl (step t) s

/-- The ledger is sound, and batches have nothing but what they have at their stages. -/
structure Sound (s : Sharing) : Prop where
  ledger : s.ledger.Sound
  only : ∀ batch, s.ledger.OnlyHas batch (s.stages batch).handles (s.stages batch).held

variable {t : FileTree} {s : Sharing}

@[simp] theorem put_ledger (batch : Nat) (stage : Stage) (l : Ledger) : (s.put batch stage l).ledger = l := rfl

@[simp] theorem put_stages_self (batch : Nat) (stage : Stage) (l : Ledger) :
    (s.put batch stage l).stages batch = stage := if_pos rfl

theorem put_stages_of_ne {batch j : Nat} (stage : Stage) (l : Ledger) (h : j ≠ batch) :
    (s.put batch stage l).stages j = s.stages j := if_neg h

/-- A step of one batch, seen from the others. -/
theorem Sound.put (h : s.Sound) {batch : Nat} {stage : Stage} {l : Ledger} {handles guards : List Nat}
    (hl : l.Sound) (hleads : s.ledger.Leads l (some batch) handles guards)
    (honly : l.OnlyHas batch stage.handles stage.held) : (s.put batch stage l).Sound where
  ledger := hl
  only j := by
    by_cases hj : j = batch
    · subst hj
      rw [put_stages_self]
      exact honly
    · rw [put_stages_of_ne _ _ hj]
      exact (h.only j).leads_of_ne hleads fun he => hj (Option.some.inj he).symm

/-- Something that anybody else does. -/
theorem Sound.outside (h : s.Sound) {l : Ledger} {handles guards : List Nat} (hl : l.Sound)
    (hleads : s.ledger.Leads l none handles guards) : Sound { s with ledger := l } where
  ledger := hl
  only j := (h.only j).leads_of_ne hleads nofun

/-- What one event keeps. -/
theorem Sound.step (h : s.Sound) (e : Event) :
    (s.step t e).Sound ∧ ∃ batch? handles guards, s.ledger.Leads (s.step t e).ledger batch? handles guards := by
  cases e with
  | get p =>
    have hl := Ledger.Leads.get h.ledger ⟨Locks.keyOf t p, none⟩
    exact ⟨h.outside (h.ledger.get _) hl, _, _, _, hl⟩
  | drop handle => exact ⟨h.outside (h.ledger.drop handle) (.drop handle), none, _, _, .drop handle⟩
  | take handle exclusive =>
    cases ht : s.ledger.take? handle exclusive none with
    | none =>
      rw [Sharing.step, ht]
      exact ⟨h, none, _, _, .refl⟩
    | some taken =>
      have hl := Ledger.Leads.take h.ledger ht
      rw [Sharing.step, ht]
      exact ⟨h.outside (h.ledger.take ht) hl, _, _, _, hl⟩
  | release guard => exact ⟨h.outside (h.ledger.release guard) (.release guard), none, _, _, .release guard⟩
  | cleanup => exact ⟨h.outside h.ledger.cleanup .cleanup, none, _, _, .cleanup⟩
  | start batch paths =>
    have honly := h.only batch
    cases hstage : s.stages batch with
    | finished =>
      rw [hstage] at honly
      rw [Sharing.step, hstage]
      exact ⟨h.put h.ledger .refl honly, none, _, _, .refl⟩
    | collecting | waiting | working | leaving =>
      rw [Sharing.step, hstage]
      exact ⟨h, none, _, _, .refl⟩
  | advance batch =>
    obtain ⟨hl, ⟨handles, guards, hleads⟩, honly⟩ :=
      Stage.next_spec (t := t) h.ledger (s.stages batch) (h.only batch)
    exact ⟨h.put hl hleads honly, _, _, _, hleads⟩

theorem sound_empty : Sound {} where
  ledger := .empty
  only _ := ⟨nofun, nofun⟩

/-- What a run keeps. -/
theorem Sound.run (h : s.Sound) (events : List Event) : (s.run t events).Sound := by
  induction events generalizing s with
  | nil => exact h
  | cons e events ih => exact ih (h.step e).1

end Sharing

end Refactor
