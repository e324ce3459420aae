import Refactor.FileTree.Resolve

/-!
# File locks

One lock for each file, handed out by path. The table finds the lock of a key;
handles and guards keep a lock alive. Cleaning up forgets the locks that nothing
keeps alive.

Handles and guards are known by numbers that are never used twice. A lock is
known by the number under which the table first gave it out.
-/

namespace Refactor

/-- What a lock is filed under: the parts of a path. -/
abbrev LockKey := List Path.Part

/-- A hold on a lock. -/
structure Guard where
  id : Nat
  lock : Nat
  exclusive : Bool
deriving DecidableEq, Repr

/-- The locks of a project. -/
structure Locks where
  /-- Locks by key. -/
  table : List (LockKey × Nat) := []
  /-- Live handles and their locks. -/
  handles : List (Nat × Nat) := []
  /-- Holds in force. -/
  guards : List Guard := []
  /-- The next unused number. -/
  fresh : Nat := 0
deriving DecidableEq, Repr

namespace Locks

/-- The key of a path: that of its canonical path if the file is there. -/
def keyOf (t : FileTree) (p : Path) : LockKey := (t.canonicalOr p).parts

/-- A new handle on the lock of a key. -/
def get (l : Locks) (key : LockKey) : Nat × Locks :=
  match l.table.lookup key with
  | some lock => (l.fresh, { l with handles := (l.fresh, lock) :: l.handles, fresh := l.fresh + 1 })
  | none =>
    (l.fresh + 1,
      { l with
        table := l.table ++ [(key, l.fresh)]
        handles := (l.fresh + 1, l.fresh) :: l.handles
        fresh := l.fresh + 2 })

/-- The lock of a handle. -/
def lockOf? (l : Locks) (handle : Nat) : Option Nat := l.handles.lookup handle

/-- Gives up a handle. -/
def drop (l : Locks) (handle : Nat) : Locks :=
  { l with handles := l.handles.filter fun h => h.1 ≠ handle }

/-- Whether a hold can be taken now: an exclusive one if there is none, another if there is no
exclusive one. -/
def isFree (l : Locks) (lock : Nat) (exclusive : Bool) : Bool :=
  l.guards.all fun g => g.lock ≠ lock || (!exclusive && !g.exclusive)

/-- Puts a hold in force. -/
def grant (l : Locks) (lock : Nat) (exclusive : Bool) : Nat × Locks :=
  (l.fresh, { l with guards := ⟨l.fresh, lock, exclusive⟩ :: l.guards, fresh := l.fresh + 1 })

/-- Takes a hold through a handle if it can be taken now. -/
def take? (l : Locks) (handle : Nat) (exclusive : Bool) : Option (Nat × Locks) :=
  match l.lockOf? handle with
  | some lock => if l.isFree lock exclusive then some (l.grant lock exclusive) else none
  | none => none

/-- Ends a hold. -/
def release (l : Locks) (guard : Nat) : Locks :=
  { l with guards := l.guards.filter fun g => g.id ≠ guard }

/-- Whether a handle or a hold keeps a lock alive. -/
def isLive (l : Locks) (lock : Nat) : Bool :=
  l.handles.any (·.2 == lock) || l.guards.any (·.lock == lock)

/-- Forgets the locks that nothing keeps alive. -/
def cleanup (l : Locks) : Locks := { l with table := l.table.filter fun e => l.isLive e.2 }

/-- The number of locks in the table. -/
def count (l : Locks) : Nat := l.table.length

/-- Holds the lock of a key alone, once it is free. -/
def hold (l : Locks) (key : LockKey) : Nat × Locks :=
  let (handle, l) := l.get key
  match l.lockOf? handle with
  | some lock =>
    let (guard, l) := l.grant lock true
    (guard, l.drop handle)
  | none => (handle, l)

/-- Holds the locks of keys alone, one after the other. -/
def holdAll : Locks → List LockKey → List Nat × Locks
  | l, [] => ([], l)
  | l, key :: keys =>
    let (guard, l) := l.hold key
    let (guards, l) := holdAll l keys
    (guard :: guards, l)

/-- Ends holds and forgets the locks that nothing keeps alive any more. -/
def releaseAll (l : Locks) (guards : List Nat) : Locks := (guards.foldl release l).cleanup

end Locks

end Refactor
