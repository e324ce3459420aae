import Refactor.Lock

/-!
# Locks and what they were obtained for

A lock is found by a key, and is then known by its number only. A ledger notes beside the locks for which key
every handle and every guard was obtained, so that it can be said that the numbers do not mix up the keys.

* `Locks.holders`: handles and guards alike, which keep locks alive;
* `Locks.get_cases`, `Sound.take?_eq_some`: all that getting and taking can do;
* `Ledger.Sound`: the table has one lock for each key, it has the lock of everything that is live under the
  key it was obtained for, and a guard that holds a lock alone is its only guard;
* `Sound.get`, `Sound.take`, `Sound.fewer`, `Sound.cleanup`: what each operation keeps;
* `Sound.key_eq_iff`, `Sound.guard_eq`, `Sound.mem_cleanup_iff`: what follows;
* `Leads`: what an operation leaves live and what it adds.
-/

namespace Refactor

namespace Locks

/-! ## What operations do -/

/-- What keeps locks alive, handles and guards alike: numbers and locks. -/
def holders (l : Locks) : List (Nat × Nat) := l.handles ++ l.guards.map fun g => (g.id, g.lock)

theorem mem_holders {l : Locks} {h : Nat × Nat} :
    h ∈ l.holders ↔ h ∈ l.handles ∨ ∃ g ∈ l.guards, (g.id, g.lock) = h := by
  rw [holders, List.mem_append, List.mem_map]

theorem isLive_iff {l : Locks} {lock : Nat} : l.isLive lock = true ↔ ∃ id, (id, lock) ∈ l.holders := by
  simp only [isLive, Bool.or_eq_true, List.any_eq_true, beq_iff_eq, mem_holders]
  constructor
  · rintro (⟨h, hh, rfl⟩ | ⟨g, hg, rfl⟩)
    · exact ⟨h.1, .inl hh⟩
    · exact ⟨g.id, .inr ⟨g, hg, rfl⟩⟩
  · rintro ⟨id, hh | ⟨g, hg, hid⟩⟩
    · exact .inl ⟨_, hh, rfl⟩
    · exact .inr ⟨g, hg, (Prod.mk.inj hid).2⟩

theorem isFree_iff {l : Locks} {lock : Nat} {exclusive : Bool} :
    l.isFree lock exclusive = true ↔
      ∀ g ∈ l.guards, g.lock = lock → exclusive = false ∧ g.exclusive = false := by
  simp only [isFree, List.all_eq_true, Bool.or_eq_true, decide_eq_true_eq, Bool.and_eq_true, Bool.not_eq_true',
    ← Decidable.imp_iff_not_or, ne_eq]

theorem mem_of_lookup {α β : Type} [BEq α] [LawfulBEq α] {l : List (α × β)} {a : α} {b : β}
    (h : l.lookup a = some b) : (a, b) ∈ l := by
  obtain ⟨l₁, l₂, rfl, -⟩ := List.lookup_eq_some_iff.mp h
  exact List.mem_append_right _ List.mem_cons_self

/-- A new lock for a key. -/
def file (l : Locks) (key : LockKey) : Locks :=
  { l with table := l.table ++ [(key, l.fresh)], fresh := l.fresh + 1 }

/-- A new handle on a lock. -/
def handOut (l : Locks) (lock : Nat) : Locks :=
  { l with handles := (l.fresh, lock) :: l.handles, fresh := l.fresh + 1 }

/-- A handle is on the lock that the table has for the key, or on a new one. -/
theorem get_cases (l : Locks) (key : LockKey) :
    (∃ lock, (key, lock) ∈ l.table ∧ l.get key = (l.fresh, l.handOut lock)) ∨
    (∀ lock, (key, lock) ∉ l.table) ∧ l.get key = (l.fresh + 1, (l.file key).handOut l.fresh) := by
  cases h : l.table.lookup key with
  | some lock => exact .inl ⟨lock, mem_of_lookup h, by rw [get, h]; rfl⟩
  | none =>
    refine .inr ⟨fun lock hmem => ?_, by rw [get, h]; rfl⟩
    simpa using List.lookup_eq_none_iff.mp h _ hmem

theorem get_spec (l : Locks) (key : LockKey) :
    ∃ lock, (l.get key).2.handles = ((l.get key).1, lock) :: l.handles ∧ (key, lock) ∈ (l.get key).2.table ∧
      (l.get key).2.guards = l.guards ∧ l.fresh ≤ (l.get key).1 ∧ (l.get key).1 < (l.get key).2.fresh := by
  rcases l.get_cases key with ⟨lock, hmem, h⟩ | ⟨-, h⟩
  · rw [h]
    exact ⟨lock, rfl, hmem, rfl, Nat.le_refl _, Nat.lt_succ_self _⟩
  · rw [h]
    exact ⟨l.fresh, rfl, List.mem_append_right _ List.mem_cons_self, rfl, Nat.le_succ _, Nat.lt_succ_self _⟩

/-- A guard is a new one on the lock of the handle, which can be taken now. -/
theorem take?_eq_some {l l' : Locks} {handle guard : Nat} {exclusive : Bool}
    (h : l.take? handle exclusive = some (guard, l')) :
    ∃ lock, (handle, lock) ∈ l.handles ∧ l.isFree lock exclusive = true ∧
      (guard, l') = l.grant lock exclusive := by
  rw [take?, lockOf?] at h
  cases hlock : l.handles.lookup handle with
  | none => simp [hlock] at h
  | some lock =>
    simp only [hlock] at h
    split at h
    · rename_i hfree
      exact ⟨lock, mem_of_lookup hlock, hfree, (Option.some.inj h).symm⟩
    · cases h

end Locks

/-! ## Ledgers -/

/-- What a handle or a guard was obtained for, and the batch that obtained it, if it was one. -/
structure Origin where
  key : LockKey
  batch? : Option Nat

/-- Locks, and where their handles and guards come from. -/
structure Ledger where
  locks : Locks := {}
  origin? : Nat → Option Origin := fun _ => none

namespace Ledger

/-- Notes where a new handle or guard comes from. -/
def note (s : Ledger) (locks : Locks) (id : Nat) (o : Option Origin) : Ledger :=
  ⟨locks, fun n => if n = id then o else s.origin? n⟩

/-- Gets a handle. -/
def get (s : Ledger) (o : Origin) : Nat × Ledger :=
  let (handle, locks) := s.locks.get o.key
  (handle, s.note locks handle (some o))

/-- Takes a guard, for the key of the handle, if it can be taken now. -/
def take? (s : Ledger) (handle : Nat) (exclusive : Bool) (batch? : Option Nat) : Option (Nat × Ledger) :=
  (s.locks.take? handle exclusive).map fun (guard, locks) =>
    (guard, s.note locks guard ((s.origin? handle).map fun o => ⟨o.key, batch?⟩))

/-- Gives up a handle. -/
def drop (s : Ledger) (handle : Nat) : Ledger := { s with locks := s.locks.drop handle }

/-- Ends a hold. -/
def release (s : Ledger) (guard : Nat) : Ledger := { s with locks := s.locks.release guard }

/-- Forgets the locks that nothing keeps alive. -/
def cleanup (s : Ledger) : Ledger := { s with locks := s.locks.cleanup }

/-- A live handle or guard, its lock and where it comes from. -/
def Live (s : Ledger) (id lock : Nat) (o : Origin) : Prop := (id, lock) ∈ s.locks.holders ∧ s.origin? id = some o

/-- Numbers in use are below the next one. Keys and locks of the table go with each other one to one. Everything
live is on the lock of the key it was obtained for. A guard that holds its lock alone is the only one on it. -/
structure Sound (s : Ledger) : Prop where
  holder_lt : ∀ h ∈ s.locks.holders, h.1 < s.locks.fresh
  lock_lt : ∀ e ∈ s.locks.table, e.2 < s.locks.fresh
  lock_eq : ∀ {key lock lock'}, (key, lock) ∈ s.locks.table → (key, lock') ∈ s.locks.table → lock = lock'
  key_eq : ∀ {key key' lock}, (key, lock) ∈ s.locks.table → (key', lock) ∈ s.locks.table → key = key'
  filed : ∀ h ∈ s.locks.holders, ∃ o, s.origin? h.1 = some o ∧ (o.key, h.2) ∈ s.locks.table
  exclusive : ∀ a ∈ s.locks.guards, ∀ b ∈ s.locks.guards, a.exclusive = true → a.lock = b.lock → a = b

namespace Sound

variable {s : Ledger}

theorem empty : Sound {} where
  holder_lt := nofun
  lock_lt := nofun
  lock_eq := nofun
  key_eq := nofun
  filed := nofun
  exclusive := nofun

theorem lock_lt_of_mem_holders (h : s.Sound) {x : Nat × Nat} (hx : x ∈ s.locks.holders) : x.2 < s.locks.fresh := by
  obtain ⟨o, -, hfiled⟩ := h.filed x hx
  exact h.lock_lt _ hfiled

theorem mem_table (h : s.Sound) {id lock : Nat} {o : Origin} (hl : s.Live id lock o) :
    (o.key, lock) ∈ s.locks.table := by
  obtain ⟨o', ho', hfiled⟩ := h.filed _ hl.1
  cases hl.2.symm.trans ho'
  exact hfiled

/-- A guard is a new one on the lock of its handle, for the same key. -/
theorem take?_eq_some (h : s.Sound) {handle guard : Nat} {exclusive : Bool} {batch? : Option Nat} {s' : Ledger}
    (ht : s.take? handle exclusive batch? = some (guard, s')) :
    ∃ lock o, s.Live handle lock o ∧ s.locks.isFree lock exclusive = true ∧ guard = s.locks.fresh ∧
      s' = s.note (s.locks.grant lock exclusive).2 s.locks.fresh (some ⟨o.key, batch?⟩) := by
  obtain ⟨⟨guard, l⟩, hl, ht⟩ := Option.map_eq_some_iff.mp ht
  obtain ⟨lock, hhandle, hfree, hgrant⟩ := Locks.take?_eq_some hl
  obtain ⟨rfl, rfl⟩ := Prod.mk.inj hgrant
  obtain ⟨rfl, rfl⟩ := Prod.mk.inj ht
  have hlive : (handle, lock) ∈ s.locks.holders := List.mem_append_left _ hhandle
  obtain ⟨o, ho, -⟩ := h.filed _ hlive
  exact ⟨lock, o, ⟨hlive, ho⟩, hfree, rfl, by rw [ho]; rfl⟩

/-! ### Operations -/

/-- A new lock for a key that has none. -/
theorem file (h : s.Sound) {key : LockKey} (hkey : ∀ lock, (key, lock) ∉ s.locks.table) :
    Sound { s with locks := s.locks.file key } where
  holder_lt x hx := Nat.lt_succ_of_lt (h.holder_lt x hx)
  lock_lt e he := by
    rcases List.mem_append.mp he with he | he
    · exact Nat.lt_succ_of_lt (h.lock_lt e he)
    · cases List.mem_singleton.mp he
      exact Nat.lt_succ_self _
  lock_eq ha hb := by
    simp only [Locks.file, List.mem_append, List.mem_singleton, Prod.mk.injEq] at ha hb
    rcases ha with ha | ⟨rfl, rfl⟩ <;> rcases hb with hb | ⟨hb, rfl⟩
    · exact h.lock_eq ha hb
    · exact absurd (hb ▸ ha) (hkey _)
    · exact absurd hb (hkey _)
    · rfl
  key_eq ha hb := by
    simp only [Locks.file, List.mem_append, List.mem_singleton, Prod.mk.injEq] at ha hb
    rcases ha with ha | ⟨rfl, rfl⟩ <;> rcases hb with hb | ⟨rfl, hb⟩
    · exact h.key_eq ha hb
    · exact absurd hb (Nat.ne_of_lt (h.lock_lt _ ha))
    · exact absurd rfl (Nat.ne_of_lt (h.lock_lt _ hb))
    · rfl
  filed x hx := by
    obtain ⟨o, ho, hfiled⟩ := h.filed x hx
    exact ⟨o, ho, List.mem_append_left _ hfiled⟩
  exclusive := h.exclusive

/-- Something new that is live, on the lock of the key it is for. -/
theorem join (h : s.Sound) {l : Locks} {lock : Nat} {o : Origin} (ho : (o.key, lock) ∈ s.locks.table)
    (htable : l.table = s.locks.table) (hfresh : l.fresh = s.locks.fresh + 1)
    (hholders : ∀ x ∈ l.holders, x = (s.locks.fresh, lock) ∨ x ∈ s.locks.holders)
    (hexclusive : ∀ a ∈ l.guards, ∀ b ∈ l.guards, a.exclusive = true → a.lock = b.lock → a = b) :
    (s.note l s.locks.fresh (some o)).Sound where
  holder_lt x hx := by
    rw [note, hfresh]
    rcases hholders x hx with rfl | hx
    · exact Nat.lt_succ_self _
    · exact Nat.lt_succ_of_lt (h.holder_lt x hx)
  lock_lt e he := by
    rw [note, hfresh]
    exact Nat.lt_succ_of_lt (h.lock_lt e (htable ▸ he))
  lock_eq ha hb := h.lock_eq (htable ▸ ha) (htable ▸ hb)
  key_eq ha hb := h.key_eq (htable ▸ ha) (htable ▸ hb)
  filed x hx := by
    simp only [note, htable]
    rcases hholders x hx with rfl | hx
    · exact ⟨o, if_pos rfl, ho⟩
    · obtain ⟨o', ho', hfiled⟩ := h.filed x hx
      exact ⟨o', (if_neg (Nat.ne_of_lt (h.holder_lt x hx))).trans ho', hfiled⟩
  exclusive := hexclusive

theorem get (h : s.Sound) (o : Origin) : (s.get o).2.Sound := by
  rcases s.locks.get_cases o.key with ⟨lock, hmem, hget⟩ | ⟨hkey, hget⟩
  · rw [Ledger.get, hget]
    exact h.join hmem rfl rfl (fun _ => List.mem_cons.mp) h.exclusive
  · rw [Ledger.get, hget]
    exact (h.file hkey).join (List.mem_append_right _ List.mem_cons_self) rfl rfl (fun _ => List.mem_cons.mp)
      h.exclusive

theorem take (h : s.Sound) {handle guard : Nat} {exclusive : Bool} {batch? : Option Nat} {s' : Ledger}
    (ht : s.take? handle exclusive batch? = some (guard, s')) : s'.Sound := by
  obtain ⟨lock, o, hlive, hfree, -, rfl⟩ := h.take?_eq_some ht
  have hfiled : (o.key, lock) ∈ s.locks.table := h.mem_table hlive
  have hothers := Locks.isFree_iff.mp hfree
  refine h.join hfiled rfl rfl ?_ ?_
  · intro x hx
    simpa [Locks.holders, Locks.grant, or_left_comm] using hx
  · -- The new guard was granted because no other is in its way.
    intro a ha b hb hexclusive hlock
    rcases List.mem_cons.mp ha with rfl | ha <;> rcases List.mem_cons.mp hb with rfl | hb
    · rfl
    · simp [(hothers b hb hlock.symm).1] at hexclusive
    · simp [(hothers a ha hlock).2] at hexclusive
    · exact h.exclusive a ha b hb hexclusive hlock

/-- Fewer handles and guards. -/
theorem fewer (h : s.Sound) {l : Locks} (htable : l.table = s.locks.table) (hfresh : l.fresh = s.locks.fresh)
    (hhandles : l.handles ⊆ s.locks.handles) (hguards : l.guards ⊆ s.locks.guards) :
    Sound { s with locks := l } := by
  have hholders : l.holders ⊆ s.locks.holders :=
    List.append_subset.mpr ⟨List.subset_append_of_subset_left _ hhandles,
      List.subset_append_of_subset_right _ (List.map_subset _ hguards)⟩
  exact
    { holder_lt := fun x hx => hfresh ▸ h.holder_lt x (hholders hx)
      lock_lt := fun e he => hfresh ▸ h.lock_lt e (htable ▸ he)
      lock_eq := fun ha hb => h.lock_eq (htable ▸ ha) (htable ▸ hb)
      key_eq := fun ha hb => h.key_eq (htable ▸ ha) (htable ▸ hb)
      filed := fun x hx => htable ▸ h.filed x (hholders hx)
      exclusive := fun a ha b hb => h.exclusive a (hguards ha) b (hguards hb) }

theorem drop (h : s.Sound) (handle : Nat) : (s.drop handle).Sound :=
  h.fewer rfl rfl List.filter_sublist.subset (List.Subset.refl _)

theorem release (h : s.Sound) (guard : Nat) : (s.release guard).Sound :=
  h.fewer rfl rfl (List.Subset.refl _) List.filter_sublist.subset

theorem cleanup (h : s.Sound) : s.cleanup.Sound where
  holder_lt := h.holder_lt
  lock_lt e he := h.lock_lt e (List.mem_filter.mp he).1
  lock_eq ha hb := h.lock_eq (List.mem_filter.mp ha).1 (List.mem_filter.mp hb).1
  key_eq ha hb := h.key_eq (List.mem_filter.mp ha).1 (List.mem_filter.mp hb).1
  filed x hx := by
    obtain ⟨o, ho, hfiled⟩ := h.filed x hx
    exact ⟨o, ho, List.mem_filter.mpr ⟨hfiled, Locks.isLive_iff.mpr ⟨x.1, hx⟩⟩⟩
  exclusive := h.exclusive

/-! ### Keys and locks -/

/-- What is live is on one lock exactly if it is for one key. -/
theorem key_eq_iff (h : s.Sound) {a b la lb : Nat} {oa ob : Origin} (ha : s.Live a la oa) (hb : s.Live b lb ob) :
    oa.key = ob.key ↔ la = lb := by
  have hta := h.mem_table ha
  have htb := h.mem_table hb
  exact ⟨fun hk => h.lock_eq (hk ▸ hta) htb, fun hl => h.key_eq (hl ▸ hta) htb⟩

/-- A guard that holds the lock of its key alone is the only guard for this key. -/
theorem guard_eq (h : s.Sound) {a b : Guard} {oa ob : Origin} (ha : a ∈ s.locks.guards) (hb : b ∈ s.locks.guards)
    (hoa : s.origin? a.id = some oa) (hob : s.origin? b.id = some ob) (hkey : oa.key = ob.key)
    (hexclusive : a.exclusive = true) : a = b := by
  have hla : s.Live a.id a.lock oa := ⟨Locks.mem_holders.mpr (.inr ⟨a, ha, rfl⟩), hoa⟩
  have hlb : s.Live b.id b.lock ob := ⟨Locks.mem_holders.mpr (.inr ⟨b, hb, rfl⟩), hob⟩
  exact h.exclusive a ha b hb hexclusive ((h.key_eq_iff hla hlb).mp hkey)

/-- Cleaning up keeps the entries of keys for which something is live. -/
theorem mem_cleanup_iff (h : s.Sound) {key : LockKey} {lock : Nat} :
    (key, lock) ∈ s.cleanup.locks.table ↔
      (key, lock) ∈ s.locks.table ∧ ∃ id o, s.Live id lock o ∧ o.key = key := by
  rw [Ledger.cleanup, Locks.cleanup, List.mem_filter, Locks.isLive_iff]
  refine and_congr_right fun hmem => ⟨?_, fun ⟨id, o, hl, _⟩ => ⟨id, hl.1⟩⟩
  rintro ⟨id, hid⟩
  obtain ⟨o, ho, hfiled⟩ := h.filed _ hid
  exact ⟨id, o, ⟨hid, ho⟩, h.key_eq hfiled hmem⟩

end Sound

/-! ## What becomes live and what stays so -/

/-- A handle is for the key that it was asked for. -/
theorem live_get (s : Ledger) (o : Origin) : ∃ lock, (s.get o).2.Live (s.get o).1 lock o := by
  obtain ⟨lock, hhandles, -⟩ := s.locks.get_spec o.key
  refine ⟨lock, List.mem_append_left _ ?_, if_pos rfl⟩
  exact hhandles ▸ List.mem_cons_self

/-- A guard is on the lock of its handle, for the same key. -/
theorem live_take {s s' : Ledger} (h : s.Sound) {handle guard : Nat} {exclusive : Bool} {batch? : Option Nat}
    (ht : s.take? handle exclusive batch? = some (guard, s')) :
    ∃ lock o, s.Live handle lock o ∧ s'.Live guard lock ⟨o.key, batch?⟩ := by
  obtain ⟨lock, o, hlive, -, rfl, rfl⟩ := h.take?_eq_some ht
  exact ⟨lock, o, hlive, Locks.mem_holders.mpr (.inr ⟨_, List.mem_cons_self, rfl⟩), if_pos rfl⟩

/-- From `s` to `s'`, handles and guards are given up and new ones are obtained, by `batch?` and with the
numbers in `handles` and `guards`. -/
structure Leads (s s' : Ledger) (batch? : Option Nat) (handles guards : List Nat) : Prop where
  fresh_le : s.locks.fresh ≤ s'.locks.fresh
  handle : ∀ h ∈ s'.locks.handles, h ∈ s.locks.handles ∧ s'.origin? h.1 = s.origin? h.1 ∨
    s.locks.fresh ≤ h.1 ∧ h.1 ∈ handles ∧ ∀ o, s'.origin? h.1 = some o → o.batch? = batch?
  guard : ∀ g ∈ s'.locks.guards, g ∈ s.locks.guards ∧ s'.origin? g.id = s.origin? g.id ∨
    s.locks.fresh ≤ g.id ∧ g.id ∈ guards ∧ ∀ o, s'.origin? g.id = some o → o.batch? = batch?

namespace Leads

variable {s s' s'' : Ledger} {batch? : Option Nat} {handles handles' guards guards' : List Nat}

theorem fewer {l : Locks} (hfresh : l.fresh = s.locks.fresh) (hhandles : l.handles ⊆ s.locks.handles)
    (hguards : l.guards ⊆ s.locks.guards) : Leads s { s with locks := l } batch? [] [] where
  fresh_le := Nat.le_of_eq hfresh.symm
  handle _ hh := .inl ⟨hhandles hh, rfl⟩
  guard _ hg := .inl ⟨hguards hg, rfl⟩

theorem refl : Leads s s batch? [] [] := fewer rfl (List.Subset.refl _) (List.Subset.refl _)

theorem drop (handle : Nat) : Leads s (s.drop handle) batch? [] [] :=
  fewer rfl List.filter_sublist.subset (List.Subset.refl _)

theorem release (guard : Nat) : Leads s (s.release guard) batch? [] [] :=
  fewer rfl (List.Subset.refl _) List.filter_sublist.subset

theorem cleanup : Leads s s.cleanup batch? [] [] := fewer rfl (List.Subset.refl _) (List.Subset.refl _)

theorem trans_fewer (h : Leads s s' batch? handles guards) (h' : Leads s' s'' batch? [] []) :
    Leads s s'' batch? handles guards where
  fresh_le := Nat.le_trans h.fresh_le h'.fresh_le
  handle x hx := by
    rcases h'.handle x hx with ⟨hx', ho⟩ | ⟨-, hx', -⟩
    · rw [ho]
      exact h.handle x hx'
    · simp at hx'
  guard g hg := by
    rcases h'.guard g hg with ⟨hg', ho⟩ | ⟨-, hg', -⟩
    · rw [ho]
      exact h.guard g hg'
    · simp at hg'

/-- What is noted anew has a number that nothing live has. -/
theorem note (h : s.Sound) {l : Locks} {id : Nat} {o : Option Origin} (hid : s.locks.fresh ≤ id)
    (hfresh : s.locks.fresh ≤ l.fresh) (ho : ∀ o', o = some o' → o'.batch? = batch?)
    (hhandles : ∀ x ∈ l.handles, x ∈ s.locks.handles ∨ x.1 = id ∧ id ∈ handles)
    (hguards : ∀ g ∈ l.guards, g ∈ s.locks.guards ∨ g.id = id ∧ id ∈ guards) :
    Leads s (s.note l id o) batch? handles guards where
  fresh_le := hfresh
  handle x hx := by
    rcases hhandles x hx with hx | ⟨rfl, hx⟩
    · have hlt : x.1 < s.locks.fresh := h.holder_lt x (List.mem_append_left _ hx)
      exact .inl ⟨hx, if_neg (Nat.ne_of_lt (Nat.lt_of_lt_of_le hlt hid))⟩
    · exact .inr ⟨hid, hx, fun o' ho' => ho o' ((if_pos rfl).symm.trans ho')⟩
  guard g hg := by
    rcases hguards g hg with hg | ⟨rfl, hg⟩
    · have hlt : g.id < s.locks.fresh := h.holder_lt _ (Locks.mem_holders.mpr (.inr ⟨g, hg, rfl⟩))
      exact .inl ⟨hg, if_neg (Nat.ne_of_lt (Nat.lt_of_lt_of_le hlt hid))⟩
    · exact .inr ⟨hid, hg, fun o' ho' => ho o' ((if_pos rfl).symm.trans ho')⟩

theorem get (h : s.Sound) (o : Origin) : Leads s (s.get o).2 o.batch? [(s.get o).1] [] := by
  have ho : ∀ o', some o = some o' → o'.batch? = o.batch? := fun o' ho' => by rw [Option.some.inj ho']
  obtain ⟨lock, hhandles, -, hguards, hle, hlt⟩ := s.locks.get_spec o.key
  refine note h hle (Nat.le_trans hle (Nat.le_of_lt hlt)) ho ?_ fun g hg => .inl (hguards ▸ hg)
  intro x hx
  rcases List.mem_cons.mp (hhandles ▸ hx) with rfl | hx
  · exact .inr ⟨rfl, List.mem_cons_self⟩
  · exact .inl hx

theorem take (h : s.Sound) {handle guard : Nat} {exclusive : Bool}
    (ht : s.take? handle exclusive batch? = some (guard, s')) : Leads s s' batch? [] [guard] := by
  obtain ⟨lock, o, -, -, rfl, rfl⟩ := h.take?_eq_some ht
  refine note h (Nat.le_refl _) (Nat.le_succ _) (fun o' ho' => by rw [← Option.some.inj ho']) (fun _ => .inl) ?_
  intro g hg
  rcases List.mem_cons.mp hg with rfl | hg
  · exact .inr ⟨rfl, List.mem_cons_self⟩
  · exact .inl hg

theorem holder (h : Leads s s' batch? handles guards) {x : Nat × Nat} (hx : x ∈ s'.locks.holders)
    (hlt : x.1 < s.locks.fresh) : x ∈ s.locks.holders ∧ s'.origin? x.1 = s.origin? x.1 := by
  rcases Locks.mem_holders.mp hx with hx | ⟨g, hg, rfl⟩
  · rcases h.handle x hx with ⟨hx', ho⟩ | ⟨hle, -⟩
    · exact ⟨List.mem_append_left _ hx', ho⟩
    · exact absurd hlt (Nat.not_lt.mpr hle)
  · rcases h.guard g hg with ⟨hg', ho⟩ | ⟨hle, -⟩
    · exact ⟨Locks.mem_holders.mpr (.inr ⟨g, hg', rfl⟩), ho⟩
    · exact absurd hlt (Nat.not_lt.mpr hle)

/-- What stays live stays on its lock and for its key. -/
theorem live_eq (h : Leads s s' batch? handles guards) (hs : s.Sound) {id lock lock' : Nat} {o o' : Origin}
    (hl : s.Live id lock o) (hl' : s'.Live id lock' o') : lock' = lock ∧ o' = o := by
  have hlt : id < s.locks.fresh := hs.holder_lt _ hl.1
  obtain ⟨hmem, horigin⟩ := h.holder hl'.1 hlt
  have ho : s.origin? id = some o' := horigin.symm.trans hl'.2
  cases hl.2.symm.trans ho
  exact ⟨(hs.key_eq_iff ⟨hmem, ho⟩ hl).mp rfl, rfl⟩

end Leads

end Ledger

end Refactor
