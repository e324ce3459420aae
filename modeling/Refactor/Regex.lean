import Refactor.Text.Basic

/-!
# Regular expressions

Expressions in the basic notation, in which operators carry a backslash, in the
extended one, in which they do not, and in the modern one, which has letters for
classes of characters, groups without a number and modest repetitions, and
refuses an operator without an operand. Matching finds the leftmost match and
takes repetitions as far as they go, modest ones as far as they have to.
-/

namespace Refactor

/-- A regular expression. -/
inductive Regex where
  | empty
  | any
  | one (c : Char)
  | list (negated : Bool) (ranges : List (Char × Char))
  | atStart
  | atEnd
  | cat (a b : Regex)
  | alt (a b : Regex)
  | rep (modest : Bool) (least : Nat) (most : Option Nat) (r : Regex)
  | group (n : Nat) (r : Regex)
  | back (n : Nat)
deriving DecidableEq, Repr

namespace Regex

/-! ## Reading -/

/-- A way to write expressions. -/
inductive Dialect where
  | basic
  | extended
  | modern
deriving DecidableEq, Repr

/-- A sign of an expression. -/
inductive Sign where
  | opening
  | closing
  | bar
  | times (modest : Bool) (least : Nat) (most : Option Nat)
  | atom (r : Regex)

/-- Ranges of named classes. -/
def classRanges (name : Text) : List (Char × Char) :=
  if name = "digit".toList then [('0', '9')]
  else if name = "alpha".toList then [('a', 'z'), ('A', 'Z')]
  else if name = "alnum".toList then [('a', 'z'), ('A', 'Z'), ('0', '9')]
  else if name = "space".toList then [(' ', ' '), ('\t', '\r')]
  else if name = "upper".toList then [('A', 'Z')]
  else if name = "lower".toList then [('a', 'z')]
  else []

/-- The ranges of a list up to its closing bracket. -/
def readRanges : Nat → Text → Option (List (Char × Char) × Text)
  | 0, _ => none
  | fuel + 1, t =>
    match t with
    | '[' :: ':' :: r =>
      let name := r.takeWhile (· != ':')
      match r.dropWhile (· != ':') with
      | ':' :: ']' :: r => (readRanges fuel r).map fun (rs, r) => (classRanges name ++ rs, r)
      | _ => none
    | ']' :: r => some ([], r)
    | a :: '-' :: b :: r =>
      if b = ']' then some ([(a, a), ('-', '-')], r)
      else (readRanges fuel r).map fun (rs, r) => ((a, b) :: rs, r)
    | '\\' :: 'n' :: r => (readRanges fuel r).map fun (rs, r) => (('\n', '\n') :: rs, r)
    | a :: r => (readRanges fuel r).map fun (rs, r) => ((a, a) :: rs, r)
    | [] => none

/-- A list after its opening bracket. A closing bracket in first place is a character. -/
def readList (t : Text) : Option (Regex × Text) := do
  let (negated, t) := match t with
    | '^' :: t => (true, t)
    | t => (false, t)
  let (first, t) := match t with
    | ']' :: t => ([(']', ']')], t)
    | t => ([], t)
  let (rs, r) ← readRanges (t.length + 1) t
  return (.list negated (first ++ rs), r)

/-- A numeral, and what follows it. -/
def readCount (t : Text) : Option Nat × Text :=
  match t.takeWhile Char.isDigit with
  | [] => (none, t)
  | ds => (some (ds.foldl (fun n c => n * 10 + (c.toNat - '0'.toNat)) 0), t.dropWhile Char.isDigit)

/-- The bounds of a repetition up to the closing brace. -/
def readBounds (extended : Bool) (t : Text) : Option ((Nat × Option Nat) × Text) := do
  let (least, r) := readCount t
  let (most, r) := match r with
    | ',' :: r => readCount r
    | r => (least, r)
  match extended, r with
  | true, '}' :: r => some ((least.getD 0, most), r)
  | false, '\\' :: '}' :: r => some ((least.getD 0, most), r)
  | _, _ => none

/-- The character that a letter after a backslash stands for. -/
def escapedChar (c : Char) : Char :=
  if c = 'n' then '\n' else if c = 't' then '\t' else if c = 'r' then '\r' else c

/-- What a character after a backslash stands for in the modern notation: a class, a character that
cannot be typed, or itself if it is neither letter nor digit. -/
def modernEscape? (c : Char) : Option Regex :=
  let word : List (Char × Char) := [('a', 'z'), ('A', 'Z'), ('0', '9'), ('_', '_')]
  let space : List (Char × Char) := [(' ', ' '), ('\t', '\r')]
  if c = 'd' then some (.list false [('0', '9')])
  else if c = 'D' then some (.list true [('0', '9')])
  else if c = 'w' then some (.list false word)
  else if c = 'W' then some (.list true word)
  else if c = 's' then some (.list false space)
  else if c = 'S' then some (.list true space)
  else if c = 'n' ∨ c = 't' ∨ c = 'r' then some (.one (escapedChar c))
  else if c.toNat < 128 ∧ !c.isAlphanum then some (.one c)
  else none

/-- The signs of an expression. `first` says that nothing stands before, so that a star is a
character and a caret an anchor. -/
def readSigns (n : Dialect) : Nat → Bool → Text → Option (List Sign)
  | 0, _, _ => none
  | _ + 1, _, [] => some []
  | fuel + 1, first, c :: t =>
    let extended : Bool := n ≠ .basic
    let go (s : Sign) (first : Bool) (r : Text) := (readSigns n fuel first r).map (s :: ·)
    let times (least : Nat) (most : Option Nat) (r : Text) := match n, r with
      | .modern, '?' :: r => go (.times true least most) false r
      | _, r => go (.times false least most) false r
    let ends (r : Text) : Bool := extended || r.isEmpty || r.take 2 = ['\\', ')'] ||
      r.take 2 = ['\\', '|']
    if c = '\\' then
      match t with
      | [] => none
      | d :: r =>
        if n = .modern then do
          let a ← modernEscape? d
          (readSigns n fuel false r).map (.atom a :: ·)
        else if d.isDigit ∧ d ≠ '0' then go (.atom (.back (d.toNat - '0'.toNat))) false r
        else if extended then go (.atom (.one (escapedChar d))) false r
        else if d = '(' then go .opening true r
        else if d = ')' then go .closing false r
        else if d = '|' then go .bar true r
        else if d = '+' then times 1 none r
        else if d = '?' then times 0 (some 1) r
        else if d = '{' then do
          let ((least, most), r) ← readBounds false r
          times least most r
        else go (.atom (.one (escapedChar d))) false r
    else if c = '[' then do
      let (l, r) ← readList t
      (readSigns n fuel false r).map (.atom l :: ·)
    else if c = '.' then
      go (.atom (if n = .modern then .list true [('\n', '\n')] else .any)) false t
    else if c = '*' then
      if first ∧ n ≠ .modern then go (.atom (.one '*')) false t else times 0 none t
    else if c = '^' ∧ (first ∨ extended) then go (.atom .atStart) true t
    else if c = '$' ∧ ends t then go (.atom .atEnd) false t
    else if extended ∧ c = '(' then
      match n, t with
      | .modern, '?' :: ':' :: r => go .opening true r
      | _, r => go .opening true r
    else if extended ∧ c = ')' then go .closing false t
    else if extended ∧ c = '|' then go .bar true t
    else if extended ∧ c = '+' then times 1 none t
    else if extended ∧ c = '?' then times 0 (some 1) t
    else if extended ∧ c = '{' then do
      let ((least, most), r) ← readBounds true t
      times least most r
    else go (.atom (.one c)) false t

mutual

/-- Alternatives up to a closing bracket. Groups are numbered in the order of their opening
brackets, `n` being the next number. -/
def readAlternatives : Nat → Nat → List Sign → Option (Regex × Nat × List Sign)
  | 0, _, _ => none
  | fuel + 1, n, ss => do
    let (a, n, ss) ← readSequence fuel n ss
    match ss with
    | .bar :: ss =>
      let (b, n, ss) ← readAlternatives fuel n ss
      return (.alt a b, n, ss)
    | ss => return (a, n, ss)

/-- A sequence of repeated atoms. -/
def readSequence : Nat → Nat → List Sign → Option (Regex × Nat × List Sign)
  | 0, _, _ => none
  | fuel + 1, n, ss =>
    match ss with
    | [] | .bar :: _ | .closing :: _ => some (.empty, n, ss)
    | .times _ _ _ :: _ => none
    | .atom r :: ss => readRepeated fuel n r ss
    | .opening :: ss => do
      let (r, n', ss) ← readAlternatives fuel (n + 1) ss
      match ss with
      | .closing :: ss => readRepeated fuel n' (.group n r) ss
      | _ => none

/-- The repetitions of an atom, and the sequence after it. -/
def readRepeated : Nat → Nat → Regex → List Sign → Option (Regex × Nat × List Sign)
  | 0, _, _, _ => none
  | fuel + 1, n, r, ss =>
    match ss with
    | .times modest least most :: ss => readRepeated fuel n (.rep modest least most r) ss
    | ss => do
      let (rest, n, ss) ← readSequence fuel n ss
      return (.cat r rest, n, ss)

end

/-- Reads an expression. -/
def parse? (n : Dialect) (t : Text) : Option Regex := do
  let ss ← readSigns n (t.length + 1) true t
  match ← readAlternatives (4 * ss.length + 8) 1 ss with
  | (r, _, []) => return r
  | _ => none

/-! ## Matching -/

/-- A place in a text, with the groups matched so far as places and texts. -/
structure Spot where
  pos : Nat
  rest : Text
  groups : List (Nat × Text) := []

/-- Matches at a place and goes on with `k`. -/
def run : Nat → Regex → Spot → (Spot → Option Spot) → Option Spot
  | 0, _, _, _ => none
  | _ + 1, .empty, s, k => k s
  | _ + 1, .any, s, k =>
    match s.rest with
    | _ :: t => k { s with pos := s.pos + 1, rest := t }
    | [] => none
  | _ + 1, .one c, s, k =>
    match s.rest with
    | d :: t => if c = d then k { s with pos := s.pos + 1, rest := t } else none
    | [] => none
  | _ + 1, .list negated ranges, s, k =>
    match s.rest with
    | d :: t =>
      if (ranges.any fun r => r.1 ≤ d && d ≤ r.2) != negated then
        k { s with pos := s.pos + 1, rest := t }
      else none
    | [] => none
  | _ + 1, .atStart, s, k => if s.pos = 0 then k s else none
  | _ + 1, .atEnd, s, k => if s.rest.isEmpty then k s else none
  | fuel + 1, .cat a b, s, k => run fuel a s fun s => run fuel b s k
  | fuel + 1, .alt a b, s, k => (run fuel a s k).or (run fuel b s k)
  | fuel + 1, .group n r, s, k =>
    run fuel r s fun s' =>
      k { s' with groups := (n, s.rest.take (s'.pos - s.pos)) :: s'.groups }
  | _ + 1, .back n, s, k =>
    let t := (s.groups.lookup n).getD []
    if s.rest.take t.length = t then
      k { s with pos := s.pos + t.length, rest := s.rest.drop t.length }
    else none
  | fuel + 1, .rep modest (least + 1) most r, s, k =>
    run fuel r s fun s => run fuel (.rep modest least (most.map (· - 1)) r) s k
  | fuel + 1, .rep modest 0 most r, s, k =>
    if most = some 0 then k s
    else
      let more := fun (_ : Unit) => run fuel r s fun s' =>
        if s'.pos = s.pos then none else run fuel (.rep modest 0 (most.map (· - 1)) r) s' k
      if modest then (k s).or (more ()) else (more ()).or (k s)

/-- The size of an expression. -/
def size : Regex → Nat
  | .cat a b => a.size + b.size + 1
  | .alt a b => a.size + b.size + 1
  | .rep _ least _ r => r.size + least + 1
  | .group _ r => r.size + 1
  | _ => 1

/-- The match that starts at a place. -/
def matchAt? (r : Regex) (s : Spot) : Option Spot :=
  run ((s.rest.length + 2) * (r.size + 2)) r s some

/-- The leftmost match from a place on: the text before it, what it matched, the groups, and the
place after it. -/
def find? (r : Regex) : Nat → Text → Text → Option (Text × Text × Spot)
  | pos, before, t =>
    match r.matchAt? ⟨pos, t, []⟩, t with
    | some s, _ => some (before.reverse, t.take (s.pos - pos), s)
    | none, c :: t => find? r (pos + 1) (c :: before) t
    | none, [] => none

end Regex

end Refactor
