import Refactor.Shell.Syntax

/-!
# Reading scripts

A script is read from left to right; each function takes what it reads from the
front of the text and gives back the rest. The text bounds every loop, so the
fuel that `parse?` starts with is enough.
-/

namespace Refactor.Shell

/-! ## Characters and words of the grammar -/

def isBlankChar (c : Char) : Bool := c == ' ' || c == '\t'

/-- Characters that end a word. -/
def isMeta (c : Char) : Bool :=
  isBlankChar c || c == '\n' || c == ';' || c == '&' || c == '|' || c == '<' || c == '>' ||
    c == '(' || c == ')'

def isNameStart (c : Char) : Bool := c.isAlpha || c == '_'

def isNameChar (c : Char) : Bool := c.isAlphanum || c == '_'

/-- Names of variables that are one character long and no letter. -/
def isSpecialName (c : Char) : Bool :=
  c.isDigit || c == '@' || c == '*' || c == '#' || c == '?' || c == '$' || c == '!' || c == '-'

/-- A backquote. -/
def backquote : Char := '\x60'

/-- Blanks, joined lines and a comment left out. -/
def skipBlanks : Text → Text
  | '\\' :: '\n' :: t => skipBlanks t
  | '#' :: t => t.dropWhile (· != '\n')
  | c :: t => if isBlankChar c then skipBlanks t else c :: t
  | [] => []

/-- Blanks, comments and line ends left out. -/
def skipLines : Nat → Text → Text
  | 0, t => t
  | fuel + 1, t =>
    match skipBlanks t with
    | '\n' :: t => skipLines fuel t
    | t => t

/-- What follows a word of the grammar, if the text starts with it. -/
def after? (word : String) (t : Text) : Option Text :=
  let w := word.toList
  if t.take w.length = w ∧ ((t.drop w.length).head?.all isMeta) then some (t.drop w.length) else none

/-- Words that end a list of commands. -/
def closers : List String := ["then", "else", "elif", "fi", "do", "done", "esac", "\x7d"]

/-- Whether a list of commands ends here. -/
def isClosed (t : Text) : Bool :=
  match t with
  | [] => true
  | ')' :: _ => true
  | ';' :: ';' :: _ => true
  | _ => closers.any fun w => (after? w t).isSome

/-- A name of a variable or function, and what follows it. -/
def readName (t : Text) : Option (String × Text) :=
  match t with
  | c :: _ =>
    if isNameStart c then some (String.ofList (t.takeWhile isNameChar), t.dropWhile isNameChar)
    else none
  | [] => none

/-- The text up to the two brackets that close a calculation. -/
def readTerm : Nat → Text → Option (Text × Text)
  | 0, ')' :: ')' :: t => some ([], t)
  | d + 1, ')' :: t => (readTerm d t).map fun (s, r) => (')' :: s, r)
  | d, '(' :: t => (readTerm (d + 1) t).map fun (s, r) => ('(' :: s, r)
  | d, c :: t => (readTerm d t).map fun (s, r) => (c :: s, r)
  | _, [] => none

/-- The text up to the next backquote, with the backslashes before special characters removed. -/
def readBackquoted : Text → Option (Text × Text)
  | [] => none
  | '\\' :: c :: t =>
    (readBackquoted t).map fun (s, r) =>
      (if c = backquote ∨ c = '\\' ∨ c = '$' then c :: s else '\\' :: c :: s, r)
  | c :: t => if c = backquote then some ([], t) else (readBackquoted t).map fun (s, r) => (c :: s, r)

/-- The kind of a redirection, and what follows its sign. -/
def readSign : Text → Option (RedirectKind × Nat × Text)
  | '>' :: '>' :: t => some (.append, 1, t)
  | '>' :: '&' :: t => some (.duplicate, 1, t)
  | '>' :: '|' :: t => some (.write, 1, t)
  | '>' :: t => some (.write, 1, t)
  | '<' :: '&' :: t => some (.duplicate, 0, t)
  | '<' :: '<' :: _ => none
  | '<' :: t => some (.read, 0, t)
  | _ => none

/-- The sign of a redirection with the descriptor in front of it. -/
def readRedirectSign (t : Text) : Option (RedirectKind × Nat × Text) :=
  match t.takeWhile Char.isDigit with
  | [] => readSign t
  | ds => (readSign (t.dropWhile Char.isDigit)).map fun (kind, _, r) =>
      (kind, ds.foldl (fun n c => n * 10 + (c.toNat - '0'.toNat)) 0, r)

/-- The word that ends a text in the script, whether it is quoted, and what follows it. -/
def readEndWord (t : Text) : Text × Bool × Text :=
  let raw := t.takeWhile (!isMeta ·)
  let isQuote (c : Char) : Bool := c == '\'' || c == '"' || c == '\\'
  (raw.filter (!isQuote ·), raw.any isQuote, t.drop raw.length)

/-- The lines of a text up to the one that ends it, and what follows that. -/
def readBody (tabs : Bool) (ending : Text) : Nat → Text → Text × Text
  | 0, t => ([], t)
  | _ + 1, [] => ([], [])
  | fuel + 1, t =>
    let line := t.takeWhile (· != '\n')
    let shown := if tabs then line.dropWhile (· == '\t') else line
    let rest := (t.drop line.length).drop 1
    if shown = ending then ([], rest)
    else
      let (body, rest) := readBody tabs ending fuel rest
      (shown ++ '\n' :: body, rest)

/-- A text that stands in the script after the line with its sign: whether it is taken as it is,
the text, and the rest of the script without it. -/
def readHere? (t : Text) : Option (Bool × Text × Text) :=
  match t with
  | '<' :: '<' :: r =>
    let (tabs, r) := match r with
      | '-' :: r => (true, r)
      | r => (false, r)
    let (ending, quoted, r) := readEndWord (skipBlanks r)
    let line := r.takeWhile (· != '\n')
    let after := (r.drop line.length).drop 1
    let (body, rest) := readBody tabs ending (after.length + 1) after
    some (quoted, body, line ++ '\n' :: rest)
  | _ => none

/-- The name that a word sets, and the rest of the word. -/
def splitAssignment? : List Part → Option (String × List Part)
  | .text t false :: ps => do
    let (name, r) ← readName t
    match r with
    | '=' :: v => return (name, if v.isEmpty then ps else .text v false :: ps)
    | _ => none
  | _ => none

/-- The name of a variable, one that scripts cannot set included. -/
def readVariable (t : Text) : Option (String × Text) :=
  match t with
  | c :: r => if isSpecialName c then some (String.ofList [c], r) else readName t
  | [] => none

/-- The sign that says what is done to a value, with the change that it makes of a word. -/
def readChangeSign : Text → Option ((List Part → Change) × Text)
  | '}' :: r => some (fun _ => .keep, '}' :: r)
  | ':' :: '-' :: r => some (.orElse true, r)
  | '-' :: r => some (.orElse false, r)
  | ':' :: '=' :: r => some (.orAssign true, r)
  | '=' :: r => some (.orAssign false, r)
  | ':' :: '+' :: r => some (.replaced true, r)
  | '+' :: r => some (.replaced false, r)
  | '#' :: '#' :: r => some (.without true true, r)
  | '#' :: r => some (.without true false, r)
  | '%' :: '%' :: r => some (.without false true, r)
  | '%' :: r => some (.without false false, r)
  | _ => none

mutual

/-- A word up to a character at which it stops. -/
def readWord : Nat → (Char → Bool) → Text → Option (List Part × Text)
  | 0, _, _ => none
  | fuel + 1, stop, t =>
    match t with
    | [] => some ([], [])
    | '\'' :: r =>
      match r.dropWhile (· != '\'') with
      | _ :: rest => (readWord fuel stop rest).map fun (ps, r') =>
          (.text (r.takeWhile (· != '\'')) true :: ps, r')
      | [] => none
    | '"' :: r => do
      let (ps, r) ← readQuoted fuel (some '"') r
      let (qs, r) ← readWord fuel stop r
      return ((if ps.isEmpty then [.text [] true] else ps) ++ qs, r)
    | '\\' :: '\n' :: r => readWord fuel stop r
    | '\\' :: c :: r => (readWord fuel stop r).map fun (ps, r) => (.text [c] true :: ps, r)
    | '$' :: r => do
      let (p, r) ← readDollar fuel false r
      let (ps, r) ← readWord fuel stop r
      return (p :: ps, r)
    | c :: r =>
      if stop c then some ([], t)
      else if c = backquote then do
        let (s, r) ← readBackquoted r
        let (body, _) ← readList fuel s
        let (ps, r) ← readWord fuel stop r
        return (.output body false :: ps, r)
      else
        let isPlain (d : Char) : Bool :=
          !stop d && d != '\'' && d != '"' && d != '\\' && d != '$' && d != backquote
        let rest := r.dropWhile isPlain
        (readWord fuel stop rest).map fun (ps, r') => (.text (c :: r.takeWhile isPlain) false :: ps, r')

/-- Text in double quotes, up to the closing quote or the end. -/
def readQuoted : Nat → Option Char → Text → Option (List Part × Text)
  | 0, _, _ => none
  | fuel + 1, close, t =>
    match t with
    | [] => if close.isNone then some ([], []) else none
    | '\\' :: '\n' :: r => readQuoted fuel close r
    | '\\' :: c :: r =>
      (readQuoted fuel close r).map fun (ps, r) =>
        (.text (if c = '$' ∨ c = backquote ∨ c = '"' ∨ c = '\\' then [c] else ['\\', c]) true :: ps, r)
    | '$' :: r => do
      let (p, r) ← readDollar fuel true r
      let (ps, r) ← readQuoted fuel close r
      return (p :: ps, r)
    | c :: r =>
      if close = some c then some ([], r)
      else if c = backquote then do
        let (s, r) ← readBackquoted r
        let (body, _) ← readList fuel s
        let (ps, r) ← readQuoted fuel close r
        return (.output body true :: ps, r)
      else
        let isPlain (d : Char) : Bool :=
          close != some d && d != '\\' && d != '$' && d != backquote
        (readQuoted fuel close (r.dropWhile isPlain)).map fun (ps, r') =>
          (.text (c :: r.takeWhile isPlain) true :: ps, r')

/-- What a dollar sign puts in. -/
def readDollar : Nat → Bool → Text → Option (Part × Text)
  | 0, _, _ => none
  | fuel + 1, quoted, t =>
    match t with
    | '(' :: '(' :: r => do
      let (s, r) ← readTerm 0 r
      let (ps, _) ← readQuoted fuel none s
      return (.sum ps quoted, r)
    | '(' :: r => do
      let (body, r) ← readList fuel r
      match r with
      | ')' :: r => return (.output body quoted, r)
      | _ => none
    | '{' :: '#' :: r => do
      let (name, r) ← readVariable r
      match r with
      | '}' :: r => return (.value name .length quoted, r)
      | _ => none
    | '{' :: r => do
      let (name, r) ← readVariable r
      let (change, r) ← readChange fuel r
      return (.value name change quoted, r)
    | _ =>
      match readVariable t with
      | some (name, r) => some (.value name .keep quoted, r)
      | none => some (.text ['$'] quoted, t)

/-- What is done to a value, up to the closing brace. -/
def readChange : Nat → Text → Option (Change × Text)
  | 0, _ => none
  | fuel + 1, t => do
    let (make, r) ← readChangeSign t
    let (word, r) ← readWord fuel (· == '}') r
    match r with
    | '}' :: r => return (make word, r)
    | _ => none

/-- Commands up to where a list ends. -/
def readList : Nat → Text → Option (List Command × Text)
  | 0, _ => none
  | fuel + 1, t =>
    let t := skipLines t.length t
    if isClosed t then some ([], t)
    else do
      let (c, r) ← readChain fuel t
      let (c, r) := match skipBlanks r with
        | '&' :: r => (Command.background c, r)
        | r => (c, r)
      match skipBlanks r with
      | ';' :: ';' :: _ => return ([c], skipBlanks r)
      | ';' :: r | '\n' :: r =>
        let (cs, r) ← readList fuel r
        return (c :: cs, r)
      | r =>
        match c with
        | .background _ =>
          let (cs, r) ← readList fuel r
          return (c :: cs, r)
        | _ => return ([c], r)

/-- Pipelines, each run as the one before it succeeds or fails. -/
def readChain : Nat → Text → Option (Command × Text)
  | 0, _ => none
  | fuel + 1, t => do
    let (c, r) ← readPipeline fuel t
    readMore fuel c r

/-- The pipelines after the first. -/
def readMore : Nat → Command → Text → Option (Command × Text)
  | 0, _, _ => none
  | fuel + 1, c, t =>
    match skipBlanks t with
    | '&' :: '&' :: r => do
      let (d, r) ← readPipeline fuel (skipLines r.length r)
      readMore fuel (.both c d) r
    | '|' :: '|' :: r => do
      let (d, r) ← readPipeline fuel (skipLines r.length r)
      readMore fuel (.either c d) r
    | r => some (c, r)

/-- Commands joined by pipes. -/
def readPipeline : Nat → Text → Option (Command × Text)
  | 0, _ => none
  | fuel + 1, t => do
    let (negated, t) := match after? "!" t with
      | some r => (true, skipBlanks r)
      | none => (false, t)
    let (stages, r) ← readStages fuel t
    match stages, negated with
    | [c], false => return (c, r)
    | _, _ => return (.pipeline negated stages, r)

/-- The stages of a pipeline. -/
def readStages : Nat → Text → Option (List Command × Text)
  | 0, _ => none
  | fuel + 1, t => do
    let (c, r) ← readCommand fuel t
    match skipBlanks r with
    | '|' :: '|' :: r => return ([c], '|' :: '|' :: r)
    | '|' :: r =>
      let (cs, r) ← readStages fuel (skipLines r.length r)
      return (c :: cs, r)
    | r => return ([c], r)

/-- One command with its redirections. -/
def readCommand : Nat → Text → Option (Command × Text)
  | 0, _ => none
  | fuel + 1, t => do
    match ← readCompound fuel t with
    | (some c, r) =>
      let (rs, r) ← readRedirects fuel r
      return (if rs.isEmpty then c else .redirected c rs, r)
    | (none, r) => readSimple fuel [] [] [] r

/-- A command that contains others, if there is one. -/
def readCompound : Nat → Text → Option (Option Command × Text)
  | 0, _ => none
  | fuel + 1, t =>
    match t with
    | '(' :: r => do
      let (body, r) ← readList fuel r
      match r with
      | ')' :: r => return (some (.subshell body), r)
      | _ => none
    | _ =>
      match after? "\x7b" t, after? "while" t, after? "until" t, after? "if" t, after? "for" t,
        after? "case" t with
      | some r, _, _, _, _, _ => do
        let (body, r) ← readList fuel r
        return (some (.group body), ← after? "\x7d" r)
      | _, some r, _, _, _, _ => readLoop fuel false r
      | _, _, some r, _, _, _ => readLoop fuel true r
      | _, _, _, some r, _, _ => do
        let (arms, otherwise, r) ← readArms fuel r
        return (some (.branch arms otherwise), r)
      | _, _, _, _, some r, _ => do
        let (name, r) ← readName (skipBlanks r)
        let (words, r) ← match after? "in" (skipLines r.length r) with
          | some r => (readWords fuel r).map fun (ws, r) => (some ws, r)
          | none => some (none, r)
        let r := match skipBlanks r with
          | ';' :: r => r
          | r => r
        let r ← after? "do" (skipLines r.length r)
        let (body, r) ← readList fuel r
        return (some (.each name words body), ← after? "done" r)
      | _, _, _, _, _, some r => do
        let (subject, r) ← readWord fuel isMeta (skipBlanks r)
        let r ← after? "in" (skipLines r.length r)
        let (arms, r) ← readCases fuel r
        return (some (.select subject arms), r)
      | none, none, none, none, none, none =>
        match readName t with
        | some (name, '(' :: ')' :: r) => do
          let (body, r) ← readCommand fuel (skipLines r.length r)
          return (some (.define name body), r)
        | _ => some (none, t)

/-- The test and the body of a loop. -/
def readLoop : Nat → Bool → Text → Option (Option Command × Text)
  | 0, _, _ => none
  | fuel + 1, whileFailing, t => do
    let (test, r) ← readList fuel t
    let (body, r) ← readList fuel (← after? "do" r)
    return (some (.loop whileFailing test body), ← after? "done" r)

/-- The tests and bodies of a choice. -/
def readArms : Nat → Text → Option (List (List Command × List Command) × List Command × Text)
  | 0, _ => none
  | fuel + 1, t => do
    let (test, r) ← readList fuel t
    let (body, r) ← readList fuel (← after? "then" r)
    match after? "elif" r, after? "else" r with
    | some r, _ =>
      let (arms, otherwise, r) ← readArms fuel r
      return ((test, body) :: arms, otherwise, r)
    | none, some r =>
      let (otherwise, r) ← readList fuel r
      return ([(test, body)], otherwise, ← after? "fi" r)
    | none, none => return ([(test, body)], [], ← after? "fi" r)

/-- The arms of a selection. -/
def readCases : Nat → Text → Option (List (List (List Part) × List Command) × Text)
  | 0, _ => none
  | fuel + 1, t =>
    let t := skipLines t.length t
    match after? "esac" t with
    | some r => some ([], r)
    | none => do
      let t := match t with
        | '(' :: r => r
        | t => t
      let (patterns, r) ← readPatterns fuel t
      let (body, r) ← readList fuel r
      let r := match skipLines r.length r with
        | ';' :: ';' :: r => r
        | r => r
      let (arms, r) ← readCases fuel r
      return ((patterns, body) :: arms, r)

/-- Patterns up to the closing bracket. -/
def readPatterns : Nat → Text → Option (List (List Part) × Text)
  | 0, _ => none
  | fuel + 1, t => do
    let (p, r) ← readWord fuel isMeta (skipBlanks t)
    match skipBlanks r with
    | ')' :: r => return ([p], r)
    | '|' :: r =>
      let (ps, r) ← readPatterns fuel r
      return (p :: ps, r)
    | _ => none

/-- Words up to the end of a command. -/
def readWords : Nat → Text → Option (List (List Part) × Text)
  | 0, _ => none
  | fuel + 1, t =>
    match skipBlanks t with
    | [] => some ([], [])
    | c :: r =>
      if isMeta c then some ([], c :: r)
      else do
        let (w, r) ← readWord fuel isMeta (c :: r)
        let (ws, r) ← readWords fuel r
        return (w :: ws, r)

/-- Redirections after a compound command. -/
def readRedirects : Nat → Text → Option (List Redirect × Text)
  | 0, _ => none
  | fuel + 1, t =>
    match readHere? (skipBlanks t), readRedirectSign (skipBlanks t) with
    | some (quoted, body, r), _ => do
      let target ← if quoted then some (Part.word body) else (readQuoted fuel none body).map Prod.fst
      let (rs, r) ← readRedirects fuel r
      return (.mk 0 .here target :: rs, r)
    | none, none => some ([], t)
    | none, some (kind, descriptor, r) => do
      let (target, r) ← readWord fuel isMeta (skipBlanks r)
      let (rs, r) ← readRedirects fuel r
      return (.mk descriptor kind target :: rs, r)

/-- The assignments, words and redirections of a simple command. -/
def readSimple : Nat → List (String × List Part) → List (List Part) → List Redirect → Text →
    Option (Command × Text)
  | 0, _, _, _, _ => none
  | fuel + 1, assignments, words, redirects, t =>
    let t := skipBlanks t
    match readHere? t, readRedirectSign t with
    | some (quoted, body, r), _ => do
      let target ← if quoted then some (Part.word body) else (readQuoted fuel none body).map Prod.fst
      readSimple fuel assignments words (redirects ++ [.mk 0 .here target]) r
    | none, some (kind, descriptor, r) => do
      let (target, r) ← readWord fuel isMeta (skipBlanks r)
      readSimple fuel assignments words (redirects ++ [.mk descriptor kind target]) r
    | none, none =>
      if t.head?.all isMeta then
        if assignments.isEmpty && words.isEmpty && redirects.isEmpty then none
        else
          let c := Command.simple assignments words
          some (if redirects.isEmpty then c else .redirected c redirects, t)
      else do
        let (w, r) ← readWord fuel isMeta t
        match if words.isEmpty then splitAssignment? w else none with
        | some a => readSimple fuel (assignments ++ [a]) words redirects r
        | none => readSimple fuel assignments (words ++ [w]) redirects r

end

/-- Reads a whole script. -/
def parse? (t : Text) : Option (List Command) :=
  match readList (8 * t.length + 16) t with
  | some (cs, []) => some cs
  | _ => none

end Refactor.Shell
