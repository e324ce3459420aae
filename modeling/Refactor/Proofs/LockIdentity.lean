import Refactor.Batch
import Refactor.Proofs.LockSharing

/-!
# Which lock is whose

Whatever is done with locks, and in whatever order, there is one lock for each key as long as anything is live
that was obtained for it. Cleaning up between getting a lock and taking it does no harm, since a handle keeps
its lock in the table. A batch leaves no lock behind that only it had used.

* `Locks.releaseAll_of_held`: a batch that runs as a whole leaves the locks as cleaning up would;
* `Sharing.run_alone`: the steps of a batch, one after the other, are what the batch does as a whole;
* `Sharing.locks_identified`: what holds after any run, both of single steps and of batches as a whole.
-/

namespace Refactor

/-! ## Whole batches -/

namespace Locks

/-- From `l` to `l'`, guards with the given numbers were taken, some of them on new locks. -/
structure Held (l l' : Locks) (guards : List Nat) : Prop where
  handles_eq : l'.handles = l.handles
  fresh_le : l.fresh ≤ l'.fresh
  guards_eq : ∃ gs, l'.guards = gs ++ l.guards ∧ ∀ g ∈ gs, g.id ∈ guards
  table_eq : ∃ es, l'.table = l.table ++ es ∧ ∀ e ∈ es, l.fresh ≤ e.2
  fresh_le_guard : ∀ guard ∈ guards, l.fresh ≤ guard

variable {l l' l'' : Locks} {guard : Nat} {guards : List Nat} {key : LockKey}

theorem Held.nil : Held l l [] :=
  ⟨rfl, Nat.le_refl _, ⟨[], rfl, nofun⟩, ⟨[], (List.append_nil _).symm, nofun⟩, nofun⟩

theorem Held.cons (h : Held l l' [guard]) (h' : Held l' l'' guards) : Held l l'' (guard :: guards) where
  handles_eq := h'.handles_eq.trans h.handles_eq
  fresh_le := Nat.le_trans h.fresh_le h'.fresh_le
  guards_eq := by
    obtain ⟨gs, hgs, hmem⟩ := h.guards_eq
    obtain ⟨gs', hgs', hmem'⟩ := h'.guards_eq
    refine ⟨gs' ++ gs, by rw [hgs', hgs, List.append_assoc], fun g hg => ?_⟩
    rcases List.mem_append.mp hg with hg | hg
    · exact List.mem_cons_of_mem _ (hmem' g hg)
    · exact List.mem_cons.mpr (.inl (List.mem_singleton.mp (hmem g hg)))
  table_eq := by
    obtain ⟨es, hes, hle⟩ := h.table_eq
    obtain ⟨es', hes', hle'⟩ := h'.table_eq
    refine ⟨es ++ es', by rw [hes', hes, List.append_assoc], fun e he => ?_⟩
    rcases List.mem_append.mp he with he | he
    · exact hle e he
    · exact Nat.le_trans h.fresh_le (hle' e he)
  fresh_le_guard g hg := by
    rcases List.mem_cons.mp hg with rfl | hg
    · exact h.fresh_le_guard g List.mem_cons_self
    · exact Nat.le_trans h.fresh_le (h'.fresh_le_guard g hg)

theorem hold_of_get {lock : Nat} (h : (l.get key).2.handles = ((l.get key).1, lock) :: l.handles) :
    l.hold key = (((l.get key).2.grant lock true).1, ((l.get key).2.grant lock true).2.drop (l.get key).1) := by
  have hlock : (l.get key).2.lockOf? (l.get key).1 = some lock := by
    rw [lockOf?, h, List.lookup_cons_self]
  rw [hold]
  simp only [hlock]

theorem held_hold (hlt : ∀ x ∈ l.handles, x.1 < l.fresh) (key : LockKey) :
    Held l (l.hold key).2 [(l.hold key).1] := by
  obtain ⟨lock, hhandles, -, hguards, hle, hfresh⟩ := l.get_spec key
  have htable : ∃ es, (l.get key).2.table = l.table ++ es ∧ ∀ e ∈ es, l.fresh ≤ e.2 := by
    rcases l.get_cases key with ⟨lock, -, h⟩ | ⟨-, h⟩
    · exact ⟨[], by rw [h, List.append_nil]; rfl, nofun⟩
    · exact ⟨[(key, l.fresh)], by rw [h]; rfl, by simp⟩
  rw [hold_of_get hhandles]
  have hfresh' : l.fresh ≤ (l.get key).2.fresh := Nat.le_trans hle (Nat.le_of_lt hfresh)
  refine ⟨?_, Nat.le_succ_of_le hfresh', ⟨[⟨(l.get key).2.fresh, lock, true⟩], ?_, ?_⟩, htable, ?_⟩
  · -- The handle is new, so giving it up leaves those that were there.
    simp only [drop, grant, hhandles, List.filter_cons, ne_eq, not_true_eq_false, decide_false, Bool.false_eq_true,
      ↓reduceIte]
    refine List.filter_eq_self.mpr fun x hx => decide_eq_true ?_
    exact Nat.ne_of_lt (Nat.lt_of_lt_of_le (hlt x hx) hle)
  · rw [List.singleton_append, ← hguards]
    rfl
  · simp [grant]
  · simpa [grant] using hfresh'

theorem held_holdAll (hlt : ∀ x ∈ l.handles, x.1 < l.fresh) (keys : List LockKey) :
    Held l (l.holdAll keys).2 (l.holdAll keys).1 := by
  induction keys generalizing l with
  | nil => exact .nil
  | cons key keys ih =>
    have h := held_hold hlt key
    refine h.cons (ih fun x hx => ?_)
    rw [h.handles_eq] at hx
    exact Nat.lt_of_lt_of_le (hlt x hx) h.fresh_le

theorem foldl_release (l : Locks) (guards : List Nat) :
    guards.foldl release l = { l with guards := l.guards.filter fun g => g.id ∉ guards } := by
  induction guards generalizing l with
  | nil =>
    have h : l.guards.filter (fun g => g.id ∉ ([] : List Nat)) = l.guards := List.filter_eq_self.mpr (by simp)
    rw [h, List.foldl_nil]
  | cons guard guards ih =>
    rw [List.foldl_cons, ih]
    simp [release, List.filter_filter, Bool.and_comm]

/-- A batch leaves behind what cleaning up would leave. -/
theorem releaseAll_of_held (h : Held l l' guards) (hlt : ∀ x ∈ l.holders, x.1 < l.fresh ∧ x.2 < l.fresh) :
    l'.releaseAll guards = { l.cleanup with fresh := l'.fresh } := by
  obtain ⟨gs, hgs, hmem⟩ := h.guards_eq
  obtain ⟨es, hes, hle⟩ := h.table_eq
  -- What was there before has smaller numbers than what the batch obtained.
  have hkept : l.guards.filter (fun g => g.id ∉ guards) = l.guards := by
    refine List.filter_eq_self.mpr fun g hg => decide_eq_true fun hin => ?_
    have hg' := (hlt _ (mem_holders.mpr (.inr ⟨g, hg, rfl⟩))).1
    exact absurd (h.fresh_le_guard _ hin) (Nat.not_le.mpr hg')
  have hgone : gs.filter (fun g => g.id ∉ guards) = [] := by
    refine List.filter_eq_nil_iff.mpr fun g hg => ?_
    simp [hmem g hg]
  have hdead : es.filter (fun e => l.isLive e.2) = [] := by
    refine List.filter_eq_nil_iff.mpr fun e he hlive => ?_
    obtain ⟨id, hid⟩ := isLive_iff.mp hlive
    exact absurd (hle e he) (Nat.not_le.mpr (hlt _ hid).2)
  have hlive : ∀ table fresh lock, isLive ⟨table, l.handles, l.guards, fresh⟩ lock = l.isLive lock :=
    fun _ _ _ => rfl
  rw [releaseAll, foldl_release, hgs, List.filter_append, hkept, hgone, List.nil_append, cleanup, cleanup]
  simp only [h.handles_eq, hlive, hes, List.filter_append, hdead, List.append_nil]

end Locks

namespace Ledger

variable {s : Ledger} {o : Origin}

/-- Nobody holds the lock of the key. -/
def Unheld (s : Ledger) (key : LockKey) : Prop :=
  ∀ g ∈ s.locks.guards, ∀ o, s.origin? g.id = some o → o.key ≠ key

/-- Getting a handle leaves the guards for a key as they are. -/
theorem Unheld.get {key : LockKey} (h : s.Sound) (hu : s.Unheld key) (o : Origin) : (s.get o).2.Unheld key := by
  intro g hg o' ho'
  rcases (Leads.get h o).guard g hg with ⟨hg', heq⟩ | ⟨-, hg', -⟩
  · exact hu g hg' o' (heq ▸ ho')
  · simp at hg'

/-- A new handle can be used at once if nobody holds the lock of its key. -/
theorem take?_get (h : s.Sound) (hu : s.Unheld o.key) (batch? : Option Nat) :
    ∃ guard s', (s.get o).2.take? (s.get o).1 true batch? = some (guard, s') ∧
      s.locks.hold o.key = (guard, (s'.drop (s.get o).1).locks) := by
  obtain ⟨lock, hhandles, htable, -⟩ := s.locks.get_spec o.key
  have hs := h.get o
  have hfree : (s.get o).2.locks.isFree lock true = true := by
    refine Locks.isFree_iff.mpr fun g hg hlock => ?_
    obtain ⟨o', ho', hfiled⟩ := hs.filed _ (Locks.mem_holders.mpr (.inr ⟨g, hg, rfl⟩))
    rw [hlock] at hfiled
    exact absurd (hs.key_eq hfiled htable) (hu.get h o g hg o' ho')
  have hlock : (s.get o).2.locks.lockOf? (s.get o).1 = some lock := by
    rw [Locks.lockOf?]
    exact (congrArg (List.lookup _) hhandles).trans List.lookup_cons_self
  have htake : (s.get o).2.locks.take? (s.get o).1 true = some ((s.get o).2.locks.grant lock true) := by
    rw [Locks.take?, hlock]
    exact if_pos hfree
  exact ⟨_, _, by rw [Ledger.take?, htake]; rfl, Locks.hold_of_get hhandles⟩

/-- Holding the lock of one key leaves the guards for another as they are. -/
theorem Unheld.hold {s' : Ledger} {key : LockKey} {guard : Nat} {batch? : Option Nat} (h : s.Sound)
    (hu : s.Unheld key) (htake : (s.get o).2.take? (s.get o).1 true batch? = some (guard, s')) (hne : o.key ≠ key) :
    (s'.drop (s.get o).1).Unheld key := by
  intro g hg o' ho'
  rcases (Leads.take (h.get o) htake).guard g hg with ⟨hg', heq⟩ | ⟨-, hg', -⟩
  · exact hu.get h o g hg' o' (heq ▸ ho')
  · -- The only other guard is the new one, which is for the key of the handle.
    obtain ⟨_, hget⟩ := s.live_get o
    obtain ⟨lock, oh, hhandle, hguard⟩ := live_take (h.get o) htake
    obtain rfl : oh = o := Option.some.inj (hhandle.2.symm.trans hget.2)
    rw [List.mem_singleton.mp hg'] at ho'
    rw [← Option.some.inj (hguard.2.symm.trans ho')]
    exact hne

end Ledger

namespace Sharing

variable {t : FileTree} {s : Sharing} {batch : Nat}

/-- A batch gets from one stage to another by its own steps. -/
def Goes (t : FileTree) (s : Sharing) (batch : Nat) (a b : Stage × Ledger) : Prop :=
  ∃ n, (s.put batch a.1 a.2).run t (List.replicate n (.advance batch)) = s.put batch b.1 b.2

theorem step_put (stage : Stage) (l : Ledger) :
    (s.put batch stage l).step t (.advance batch) =
      s.put batch (stage.next t batch l).1 (stage.next t batch l).2 := by
  rw [step, put_stages_self, put_ledger]
  refine congrArg (Sharing.mk _) (funext fun j => ?_)
  by_cases hj : j = batch
  · exact (if_pos hj).trans (if_pos hj).symm
  · exact (if_neg hj).trans ((if_neg hj).trans (if_neg hj).symm)

theorem Goes.refl (a : Stage × Ledger) : Goes t s batch a a := ⟨0, rfl⟩

theorem Goes.next {a b c : Stage × Ledger} (ha : a.1.next t batch a.2 = b) (h : Goes t s batch b c) :
    Goes t s batch a c := by
  obtain ⟨n, hn⟩ := h
  refine ⟨n + 1, ?_⟩
  rw [List.replicate_succ, run, List.foldl_cons, step_put, ha]
  exact hn

theorem Goes.trans {a b c : Stage × Ledger} (h : Goes t s batch a b) (h' : Goes t s batch b c) :
    Goes t s batch a c := by
  obtain ⟨n, hn⟩ := h
  obtain ⟨m, hm⟩ := h'
  refine ⟨n + m, ?_⟩
  rw [← List.replicate_append_replicate, run, List.foldl_append]
  exact (congrArg (List.foldl (step t) · _) hn).trans hm

/-- Collecting guards is holding locks one after the other, if they are all free and none is asked for twice. -/
theorem goes_collecting (paths : List Path) {held : List Nat} {l : Ledger} (h : l.Sound)
    (hnodup : (paths.map (Locks.keyOf t)).Nodup) (hu : ∀ p ∈ paths, l.Unheld (Locks.keyOf t p)) :
    ∃ l', Goes t s batch (.collecting held paths, l)
        (.collecting (held ++ (l.locks.holdAll (paths.map (Locks.keyOf t))).1) [], l') ∧
      l'.locks = (l.locks.holdAll (paths.map (Locks.keyOf t))).2 := by
  induction paths generalizing held l with
  | nil => exact ⟨l, by simpa [Locks.holdAll] using Goes.refl _, rfl⟩
  | cons p paths ih =>
    obtain ⟨hp, hnodup⟩ := List.nodup_cons.mp hnodup
    let o : Origin := ⟨Locks.keyOf t p, some batch⟩
    obtain ⟨guard, l', htake, hhold⟩ := Ledger.take?_get (o := o) h (hu p List.mem_cons_self) (some batch)
    have hu' : ∀ q ∈ paths, (l'.drop (l.get o).1).Unheld (Locks.keyOf t q) := fun q hq =>
      (hu q (List.mem_cons_of_mem _ hq)).hold h htake fun he => hp (List.mem_map.mpr ⟨q, hq, he.symm⟩)
    obtain ⟨l'', hgoes, hl''⟩ := @ih (held ++ [guard]) _ (((h.get o).take htake).drop (l.get o).1) hnodup hu'
    rw [List.map_cons, Locks.holdAll, hhold]
    refine ⟨l'', ?_, hl''⟩
    have hget : Stage.next t batch l (.collecting held (p :: paths)) = (.waiting held (l.get o).1 paths, (l.get o).2) :=
      rfl
    refine .next hget (.next (Stage.next_waiting_of_some htake) ?_)
    rwa [List.append_assoc, List.singleton_append] at hgoes

/-- Leaving is releasing all that is held. -/
theorem goes_leaving (held : List Nat) {l : Ledger} :
    ∃ l', Goes t s batch (.leaving held, l) (.finished, l') ∧ l'.locks = l.locks.releaseAll held := by
  induction held generalizing l with
  | nil => exact ⟨l.cleanup, .next rfl (.refl _), rfl⟩
  | cons guard held ih =>
    obtain ⟨l', hgoes, hl'⟩ := @ih (l.release guard)
    exact ⟨l', .next rfl hgoes, hl'⟩

/-- A batch that nothing comes between, for locks that are free, does what a batch does as a whole. -/
theorem run_alone (h : s.Sound) (hstage : s.stages batch = .finished) (root : Path) (options : ApplyOptions)
    {fs : List FileEdits} {paths : List Path} (hpaths : (Batch.group t root fs).map (·.path) = paths)
    (hnodup : (paths.map (Locks.keyOf t)).Nodup) (hu : ∀ p ∈ paths, s.ledger.Unheld (Locks.keyOf t p)) :
    ∃ n l, s.run t (.start batch paths :: List.replicate n (.advance batch)) = s.put batch .finished l ∧
      l.locks = (Workspace.apply ⟨t, s.ledger.locks⟩ root options fs).1.locks := by
  obtain ⟨l, hcollect, hl⟩ : ∃ l, Goes t s batch (.collecting [] paths, s.ledger) _ ∧ _ :=
    goes_collecting paths h.ledger hnodup hu
  obtain ⟨l', hleave, hl'⟩ := goes_leaving (l := l) (s.ledger.locks.holdAll (paths.map (Locks.keyOf t))).1
  obtain ⟨n, hn⟩ := hcollect.trans (.next rfl (.next rfl hleave))
  have hstart : s.step t (.start batch paths) = s.put batch (.collecting [] paths) s.ledger := by
    rw [step, hstage]
  refine ⟨n, l', ?_, ?_⟩
  · rw [run, List.foldl_cons, hstart]
    exact hn
  · rw [hl', hl, ← hpaths, List.map_map]
    rfl

/-- Locks and keys, whatever was done before. -/
structure Identified (t : FileTree) (s : Sharing) : Prop where
  /-- Everything live was obtained for a key. -/
  obtained : ∀ x ∈ s.ledger.locks.holders, ∃ o, s.ledger.Live x.1 x.2 o
  /-- A new handle is for the key of its path. -/
  get : ∀ p, ∃ lock, (s.step t (.get p)).ledger.Live (s.ledger.locks.get (Locks.keyOf t p)).1 lock
    ⟨Locks.keyOf t p, none⟩
  /-- A new guard is for the key of its handle. -/
  take : ∀ handle exclusive guard l, s.ledger.locks.take? handle exclusive = some (guard, l) →
    ∃ lock o, s.ledger.Live handle lock o ∧
      (s.step t (.take handle exclusive)).ledger.Live guard lock ⟨o.key, none⟩
  /-- What stays live stays on its lock and for its key. -/
  kept : ∀ e id lock o lock' o', s.ledger.Live id lock o → (s.step t e).ledger.Live id lock' o' →
    lock' = lock ∧ o' = o
  /-- What is live for one key is on one lock, and for different keys on different ones. -/
  key_eq_iff : ∀ a la oa b lb ob, s.ledger.Live a la oa → s.ledger.Live b lb ob → (oa.key = ob.key ↔ la = lb)
  /-- There is no other guard for the key of one that holds its lock alone. -/
  alone : ∀ a ∈ s.ledger.locks.guards, ∀ b ∈ s.ledger.locks.guards, ∀ oa ob,
    s.ledger.origin? a.id = some oa → s.ledger.origin? b.id = some ob → oa.key = ob.key → a.exclusive = true → a = b
  /-- Cleaning up removes the entries for which nothing is live. -/
  cleanup : ∀ key lock, (key, lock) ∈ (s.step t .cleanup).ledger.locks.table ↔
    (key, lock) ∈ s.ledger.locks.table ∧ ∃ id o, s.ledger.Live id lock o ∧ o.key = key
  /-- When a batch finishes, an entry is left only if something of somebody else is live for its key. -/
  finish : ∀ batch, s.stages batch ≠ .finished → (s.step t (.advance batch)).stages batch = .finished →
    ∀ key lock, (key, lock) ∈ (s.step t (.advance batch)).ledger.locks.table →
      ∃ id o, (s.step t (.advance batch)).ledger.Live id lock o ∧ o.key = key ∧ o.batch? ≠ some batch
  /-- A batch that is applied as a whole, whether it works or not, leaves the handles and guards that were there
  and the entries for which one of them is live. -/
  apply : ∀ files root options fs, let l := (Workspace.apply ⟨files, s.ledger.locks⟩ root options fs).1.locks
    l.handles = s.ledger.locks.handles ∧ l.guards = s.ledger.locks.guards ∧
      ∀ key lock, (key, lock) ∈ l.table ↔
        (key, lock) ∈ s.ledger.locks.table ∧ ∃ id o, s.ledger.Live id lock o ∧ o.key = key
  /-- A batch for free locks that nothing comes between gets to its end, with what a batch as a whole leaves. -/
  steps : ∀ batch root options fs, s.stages batch = .finished → let paths := (Batch.group t root fs).map (·.path)
    (paths.map (Locks.keyOf t)).Nodup → (∀ p ∈ paths, s.ledger.Unheld (Locks.keyOf t p)) →
      ∃ n l, s.run t (.start batch paths :: List.replicate n (.advance batch)) = s.put batch .finished l ∧
        l.locks = (Workspace.apply ⟨t, s.ledger.locks⟩ root options fs).1.locks

theorem Sound.finish (h : s.Sound) (hne : s.stages batch ≠ .finished)
    (hfinished : (s.step t (.advance batch)).stages batch = .finished) {key : LockKey} {lock : Nat}
    (hmem : (key, lock) ∈ (s.step t (.advance batch)).ledger.locks.table) :
    ∃ id o, (s.step t (.advance batch)).ledger.Live id lock o ∧ o.key = key ∧ o.batch? ≠ some batch := by
  have honly := h.only batch
  have hleaving : s.stages batch = .leaving [] :=
    Stage.eq_leaving_of_next hne ((put_stages_self _ _ _).symm.trans hfinished)
  have hcleanup : (s.step t (.advance batch)).ledger = s.ledger.cleanup := by
    rw [Sharing.step, hleaving]
    rfl
  rw [hleaving] at honly
  rw [hcleanup] at hmem ⊢
  obtain ⟨-, id, o, hlive, hkey⟩ := h.ledger.mem_cleanup_iff.mp hmem
  exact ⟨id, o, hlive, hkey, honly.batch_ne hlive⟩

/-- A batch as a whole does to the locks what cleaning up does. -/
theorem Sound.apply_locks (h : s.Sound) (files : FileTree) (root : Path) (options : ApplyOptions)
    (fs : List FileEdits) :
    ∃ fresh, (Workspace.apply ⟨files, s.ledger.locks⟩ root options fs).1.locks =
      { s.ledger.cleanup.locks with fresh := fresh } := by
  have hheld := Locks.held_holdAll (l := s.ledger.locks) (fun x hx => h.ledger.holder_lt x (List.mem_append_left _ hx))
    ((Batch.group files root fs).map fun p => Locks.keyOf files p.path)
  exact ⟨_, Locks.releaseAll_of_held hheld fun x hx =>
    ⟨h.ledger.holder_lt x hx, h.ledger.lock_lt_of_mem_holders hx⟩⟩

/-- Whatever is done with locks, batches among it, they are told apart by their keys. -/
theorem locks_identified (t : FileTree) (events : List Event) : Identified t (run t {} events) := by
  have h : (run t {} events).Sound := sound_empty.run events
  generalize run t {} events = s at h
  exact
    { obtained := fun x hx => by
        obtain ⟨o, ho, -⟩ := h.ledger.filed x hx
        exact ⟨o, hx, ho⟩
      get := fun p => s.ledger.live_get ⟨Locks.keyOf t p, none⟩
      take := fun handle exclusive guard l ht => by
        obtain ⟨s', ht'⟩ : ∃ s', s.ledger.take? handle exclusive none = some (guard, s') :=
          ⟨_, by rw [Ledger.take?, ht]; rfl⟩
        rw [step, ht']
        exact Ledger.live_take h.ledger ht'
      kept := fun e _ _ _ _ _ hlive hlive' => by
        obtain ⟨-, _, _, _, hleads⟩ := h.step (t := t) e
        exact hleads.live_eq h.ledger hlive hlive'
      key_eq_iff := fun _ _ _ _ _ _ ha hb => h.ledger.key_eq_iff ha hb
      alone := fun _ ha _ hb _ _ hoa hob hkey hexclusive => h.ledger.guard_eq ha hb hoa hob hkey hexclusive
      cleanup := fun _ _ => h.ledger.mem_cleanup_iff
      finish := fun _ hne hfinished _ _ hmem => h.finish hne hfinished hmem
      apply := fun files root options fs => by
        obtain ⟨fresh, hlocks⟩ := h.apply_locks files root options fs
        rw [hlocks]
        exact ⟨rfl, rfl, fun _ _ => h.ledger.mem_cleanup_iff⟩
      steps := fun _ root options _ hstage hnodup hunheld => run_alone h hstage root options rfl hnodup hunheld }

end Sharing

end Refactor
