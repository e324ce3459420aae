import Refactor.Text.Basic

/-!
# What programs read and write

A program reads a feed: characters that arrive one after another, each at a time,
and perhaps an end. A program that needs more than has arrived waits. What it
writes is a list of pieces with the times at which they were written, and can be
the feed of another program.
-/

namespace Refactor.Shell

/-- Characters with the times of their arrival, and the time of the end if there is one. -/
structure Feed where
  chars : List (Nat × Char)
  endsAt : Option Nat
deriving DecidableEq, Repr

/-- Pieces of text with the times at which they were written, the latest first. -/
abbrev Writing := List (Nat × Text)

namespace Feed

/-- A feed that ends at once. -/
def nothing : Feed := ⟨[], some 0⟩

/-- A text that is there from the start. -/
def ofText (t : Text) : Feed := ⟨t.map fun c => (0, c), some 0⟩

/-- What another program writes. -/
def ofWriting (w : Writing) (endsAt : Option Nat) : Feed :=
  ⟨w.reverse.flatMap fun (time, t) => t.map fun c => (time, c), endsAt⟩

/-- What the next line is. -/
inductive Next where
  /-- A line that a newline ended, with the time of its end and what follows. -/
  | line (t : Text) (time : Nat) (rest : Feed)
  /-- The end, with the text before it that no newline ended. -/
  | last (t : Text) (time : Nat)
  /-- The line is not there yet. -/
  | waiting

/-- The next line of a feed. -/
def next (f : Feed) : Next :=
  match f.chars.dropWhile (fun c => c.2 != '\n') with
  | (time, _) :: rest => .line ((f.chars.takeWhile (fun c => c.2 != '\n')).map Prod.snd) time
      { f with chars := rest }
  | [] =>
    match f.endsAt with
    | some time => .last (f.chars.map Prod.snd) time
    | none => .waiting

/-- All lines so far with the times of their ends, the text after the last newline, and the time
of the end. -/
def lines : Nat → Feed → List (Text × Nat) × Text × Option Nat
  | 0, f => ([], [], f.endsAt)
  | fuel + 1, f =>
    match f.next with
    | .line t time rest =>
      let (ls, tail, ending) := lines fuel rest
      ((t, time) :: ls, tail, ending)
    | .last t time => ([], t, some time)
    | .waiting => ([], f.chars.map Prod.snd, none)

end Feed

end Refactor.Shell
