import Refactor.Toml.Scalar
import Refactor.Toml.Table

/-!
# Reading configuration files

A file is a list of lines: a header that starts a table or one more table of a
list, a key with a value, or nothing; each may end in a comment. Main function:
`Toml.parse?`, which gives the object that the file describes.
-/

namespace Refactor.Toml

/-- The most brackets and braces that nest, and the most parts of a key. -/
def depthLimit : Nat := 79

/-! ## Keys -/

/-- Characters of a key without quotes. -/
def isKeyChar (c : Char) : Bool := c.isAlphanum || c == '_' || c == '-'

/-- One part of a key. -/
def readKeyPart (t : Text) : Option (String × Text) :=
  match t with
  | '"' :: r => (readQuoted (t.length + 1) r).map fun (s, r) => (String.ofList s, r)
  | '\'' :: r => (readLiteral r).map fun (s, r) => (String.ofList s, r)
  | _ =>
    match t.takeWhile isKeyChar with
    | [] => none
    | k => some (String.ofList k, t.dropWhile isKeyChar)

/-- A key: the tables it passes through, its last part, and the text after it. -/
def readKey : Nat → Text → Option (List String × String × Text)
  | 0, _ => none
  | fuel + 1, t => do
    let (k, r) ← readKeyPart (skipGap t)
    match skipGap r with
    | '.' :: r =>
      let (path, last, r) ← readKey fuel r
      return (k :: path, last, r)
    | r => return ([], k, r)

/-! ## Values -/

/-- What follows a comment, up to its line end. -/
def skipComment : Text → Text
  | '#' :: t => t.dropWhile isPlain
  | t => t

/-- Blanks, line ends and comments between the items of an array left out. -/
def skipBetween : Nat → Text → Option Text
  | 0, _ => none
  | fuel + 1, t =>
    let t := skipGap t
    match lineEnd? t with
    | some r => skipBetween fuel r
    | none =>
      match t with
      | '#' :: _ => (lineEnd? (skipComment t)).bind (skipBetween fuel)
      | _ => some t

mutual

/-- A value, and what follows it. -/
def readValue : Nat → Nat → Text → Option (Json × Text)
  | 0, _, _ => none
  | fuel + 1, depth, t =>
    match t with
    | '"' :: _ | '\'' :: _ => (readString t).map fun (s, r) => (.str (String.ofList s), r)
    | '[' :: r =>
      match depth with
      | 0 => none
      | depth + 1 => (readItems fuel depth r).map fun (vs, r) => (.arr vs, r)
    | '{' :: r =>
      match depth with
      | 0 => none
      | depth + 1 =>
        match skipGap r with
        | '}' :: r => some (.obj [], r)
        | r => (readPairs fuel depth [] r).map fun (es, r) => (es.toJson, r)
    | _ => readBare t

/-- The items of an array up to the closing bracket. A comma may follow the last one. -/
def readItems : Nat → Nat → Text → Option (List Json × Text)
  | 0, _, _ => none
  | fuel + 1, depth, t => do
    match ← skipBetween (t.length + 1) t with
    | ']' :: r => return ([], r)
    | t =>
      let (v, r) ← readValue fuel depth t
      match ← skipBetween (r.length + 1) r with
      | ']' :: r => return ([v], r)
      | ',' :: r =>
        let (vs, r) ← readItems fuel depth r
        return (v :: vs, r)
      | _ => none

/-- The keys and values of a table on one line, up to the closing brace. -/
def readPairs : Nat → Nat → Entries → Text → Option (Entries × Text)
  | 0, _, _, _ => none
  | fuel + 1, depth, es, t => do
    let (path, k, r) ← readKey depthLimit t
    match r with
    | '=' :: r =>
      let (v, r) ← readValue fuel depth (skipGap r)
      let es ← es.assignAt path k v
      match skipGap r with
      | '}' :: r => return (es, r)
      | ',' :: r => readPairs fuel depth es r
      | _ => none
    | _ => none

end

/-! ## Files -/

/-- A file that is read up to some line: its tables, and the section that the next keys go to. -/
structure Draft where
  entries : Entries
  current : List String

/-- The rest of a line after its header or value: blanks and a comment. -/
def endLine (t : Text) : Option Text :=
  match skipComment (skipGap t) with
  | [] => some []
  | t => lineEnd? t

/-- One line of a file. -/
def readLine (d : Draft) (t : Text) : Option (Draft × Text) :=
  match t with
  | '[' :: '[' :: r => do
    let (path, k, r) ← readKey depthLimit r
    match r with
    | ']' :: ']' :: r => return (⟨← d.entries.beginItem path k, path ++ [k]⟩, ← endLine r)
    | _ => none
  | '[' :: r => do
    let (path, k, r) ← readKey depthLimit r
    match r with
    | ']' :: r => return (⟨← d.entries.begin path k, path ++ [k]⟩, ← endLine r)
    | _ => none
  | _ =>
    match endLine t with
    | some r => some (d, r)
    | none => do
      let (path, k, r) ← readKey depthLimit t
      match r with
      | '=' :: r =>
        let (v, r) ← readValue (2 * r.length + 2) depthLimit (skipGap r)
        let es ← d.entries.within .passed (·.assignAt path k v) d.current
        return ({ d with entries := es }, ← endLine r)
      | _ => none

/-- All lines of a file. -/
def readLines : Nat → Draft → Text → Option Entries
  | 0, _, _ => none
  | fuel + 1, d, t =>
    match skipGap t with
    | [] => some d.entries
    | t => do
      let (d, r) ← readLine d t
      readLines fuel d r

/-- The object that a file describes. A byte order mark in front is left out. -/
def parse? (t : Text) : Option Json :=
  let t := match t with
    | '\ufeff' :: r => r
    | t => t
  (readLines (t.length + 1) ⟨[], []⟩ t).map Entries.toJson

end Refactor.Toml
