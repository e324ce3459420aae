import Refactor.Bytes
import Refactor.OsError

/-!
# File trees

A tree of files, links and directories. A location is the list of names that
leads to a node from the root. `get?` looks a location up without following
links, and `set` and `erase` change what is there.

What the tree looks like does not tell all that can happen to it: the system can
refuse to read or write a file or to make a directory, and a write that fails can
leave a part of the file. `Faults` says where it does.
-/

namespace Refactor

/-- A file, a link or a directory. -/
inductive Node where
  | file (content : Bytes) (executable : Bool)
  | link (target : String)
  | dir (entries : List (String × Node))

namespace Node

/-- The entries of a directory. -/
abbrev Entries := List (String × Node)

instance : Inhabited Node := ⟨.dir []⟩

def isDir : Node → Bool
  | .dir _ => true
  | _ => false

/-- Sets the entry of a name, at its place in the order of names. -/
def Entries.insert (name : String) (n : Node) : Entries → Entries
  | [] => [(name, n)]
  | (name', n') :: es =>
    if name = name' then (name, n) :: es
    else if name < name' then (name, n) :: (name', n') :: es
    else (name', n') :: insert name n es

/-- The node at a location. -/
def get? : Node → List String → Option Node
  | n, [] => some n
  | .dir es, name :: rest =>
    match es.lookup name with
    | some n => n.get? rest
    | none => none
  | _, _ :: _ => none

/-- Puts a node at a location, unless something other than a directory is in the way. Missing
directories on the way are made. -/
def set : Node → List String → Node → Node
  | _, [], m => m
  | .dir es, name :: rest, m =>
    .dir (Entries.insert name (((es.lookup name).getD (.dir [])).set rest m) es)
  | n, _ :: _, _ => n

/-- Removes the node at a location and all below it. -/
def erase : Node → List String → Node
  | n, [] => n
  | .dir es, [name] => .dir (es.filter fun e => e.1 ≠ name)
  | .dir es, name :: rest =>
    match es.lookup name with
    | some n => .dir (Entries.insert name (n.erase rest) es)
    | none => .dir es
  | n, _ :: _ => n

theorem lookup_insert_self (name : String) (n : Node) (es : Entries) :
    (Entries.insert name n es).lookup name = some n := by
  induction es with
  | nil => simp [Entries.insert]
  | cons e es ih =>
    obtain ⟨name', n'⟩ := e
    simp only [Entries.insert]
    split
    · simp
    · rename_i hne
      split
      · simp
      · have : (name == name') = false := by simpa using hne
        simp [List.lookup_cons, this, ih]

theorem lookup_insert_of_ne {name other : String} (n : Node) (es : Entries) (h : other ≠ name) :
    (Entries.insert name n es).lookup other = es.lookup other := by
  have hb : (other == name) = false := by simpa using h
  induction es with
  | nil => simp [Entries.insert, List.lookup_cons, hb]
  | cons e es ih =>
    obtain ⟨name', n'⟩ := e
    simp only [Entries.insert]
    split
    · rename_i heq
      subst heq
      simp [List.lookup_cons, hb]
    · split
      · simp [List.lookup_cons, hb]
      · simp only [List.lookup_cons]
        split <;> simp [ih]

end Node

/-- A write that fails: why, and what the file holds then if it was opened for the write. -/
structure WriteFault where
  error : OsError
  left : Option Bytes
deriving DecidableEq, Repr

/-- What the system refuses at a location, whatever is there: for want of permissions or space, say. -/
structure Faults where
  /-- Reading a file. What is there is not reported as missing. -/
  reading : List String → Option { e : OsError // e ≠ .notFound } := fun _ => none
  /-- Writing a file. -/
  writing : List String → Option WriteFault := fun _ => none
  /-- Making a directory. -/
  making : List String → Option OsError := fun _ => none

/-- All files, the directory from which relative paths start, and what cannot be done to the files. -/
structure FileTree where
  root : Node
  workingDir : List String
  faults : Faults := {}

namespace FileTree

/-- The node at a location. -/
def get? (t : FileTree) (loc : List String) : Option Node := t.root.get? loc

/-- Puts a node at a location. -/
def set (t : FileTree) (loc : List String) (n : Node) : FileTree :=
  { t with root := t.root.set loc n }

/-- Removes the node at a location. -/
def erase (t : FileTree) (loc : List String) : FileTree := { t with root := t.root.erase loc }

end FileTree

end Refactor
