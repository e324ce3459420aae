import Refactor.Json.Value

/-!
# Tables under construction

A configuration file names its tables line by line, and no table or key may be
given twice. A table that was only passed through on the way to another one may
still be given by a header; one that dotted keys made may take further dotted
keys and nothing else; one that a header made is complete with its section.
-/

namespace Refactor.Toml

/-- How a table came to be. -/
inductive Origin where
  /-- On the way to a table that a header names. -/
  | passed
  /-- By a dotted key. -/
  | dotted
  /-- By its own header. -/
  | header
deriving DecidableEq, Repr

/-- A value, a table, or a list of tables with the newest first. -/
inductive Node where
  | value (v : Json)
  | table (origin : Origin) (entries : List (String × Node))
  | tables (items : List (List (String × Node)))

/-- The keys of a table and what they hold. -/
abbrev Entries := List (String × Node)

namespace Entries

/-- Sets what a key holds, in place if it is there and at the end if it is new. -/
def set (k : String) (n : Node) : Entries → Entries
  | [] => [(k, n)]
  | (k', n') :: es => if k = k' then (k, n) :: es else (k', n') :: set k n es

/-- Changes the table at a path, making tables on the way by `origin`. Of a list of tables the
newest one is meant. -/
def within (origin : Origin) (f : Entries → Option Entries) :
    List String → Entries → Option Entries
  | [], es => f es
  | k :: path, es =>
    match es.lookup k with
    | none => (within origin f path []).map fun sub => es.set k (.table origin sub)
    | some (.table o sub) =>
      if origin = .dotted ∧ (o = .header ∨ path.isEmpty ∧ o ≠ .dotted) then none
      else (within origin f path sub).map fun sub => es.set k (.table o sub)
    | some (.tables (newest :: older)) =>
      if origin = .dotted ∧ path.isEmpty then none
      else (within origin f path newest).map fun sub => es.set k (.tables (sub :: older))
    | some _ => none

/-- Gives a value to a key, once. -/
def assign (k : String) (v : Json) (es : Entries) : Option Entries :=
  match es.lookup k with
  | none => some (es.set k (.value v))
  | some _ => none

/-- Gives a value to a dotted key. -/
def assignAt (path : List String) (k : String) (v : Json) (es : Entries) : Option Entries :=
  within .dotted (assign k v) path es

/-- Starts the table of a header. -/
def begin (path : List String) (k : String) (es : Entries) : Option Entries :=
  within .passed (fun es =>
    match es.lookup k with
    | none => some (es.set k (.table .header []))
    | some (.table .passed sub) => some (es.set k (.table .header sub))
    | some _ => none) path es

/-- Starts one more table in the list that a header names. -/
def beginItem (path : List String) (k : String) (es : Entries) : Option Entries :=
  within .passed (fun es =>
    match es.lookup k with
    | none => some (es.set k (.tables [[]]))
    | some (.tables items) => some (es.set k (.tables ([] :: items)))
    | some _ => none) path es

end Entries

mutual

/-- The value of a finished node. -/
def Node.toJson : Node → Json
  | .value v => v
  | .table _ entries => .ofMembers (Entries.members entries)
  | .tables items => .arr (Entries.itemList items).reverse

/-- The members of a finished table. -/
def Entries.members : List (String × Node) → List (String × Json)
  | [] => []
  | (k, n) :: es => (k, n.toJson) :: Entries.members es

/-- The tables of a finished list. -/
def Entries.itemList : List (List (String × Node)) → List Json
  | [] => []
  | es :: items => .ofMembers (Entries.members es) :: Entries.itemList items

end

/-- The object that a finished table stands for. -/
def Entries.toJson (es : Entries) : Json := .ofMembers (Entries.members es)

end Refactor.Toml
