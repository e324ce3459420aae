import Refactor.FileTree.Access
import Refactor.Shell.Glob
import Refactor.Shell.Parse
import Refactor.Shell.Tools

/-!
# The state of a running script

A script runs up to a limit of time. Whatever it has done by then stays done; if
it waits for input that has not arrived, or for a time after the limit, it is
stuck, and `wake` says when it would go on by itself.
-/

namespace Refactor.Shell

/-- Where output goes. -/
inductive Target where
  | here
  | nowhere
  | file (name : Text)
deriving DecidableEq, Repr

/-- A script at some time of its run. -/
structure State where
  /-- The time that the script has come to. -/
  now : Nat
  limit : Nat
  files : FileTree
  dir : Path
  bindings : List (String × Text) := []
  /-- The variables that programs get to see. -/
  exported : List String := []
  /-- The name that the script runs under. -/
  name : Text := ['s', 'h']
  arguments : List Text := []
  functions : List (String × Command) := []
  input : Feed
  output : Writing := []
  /-- Where output goes from now on. -/
  outlet : Target := .here
  /-- When the script let go of its output. -/
  outputLeft : Option Nat := none
  /-- When the script let go of its input. -/
  inputLeft : Option Nat := none
  status : Nat := 0
  /-- Whether a command that fails ends the script. -/
  strict : Bool := false
  /-- Whether the status is looked at, so that failing is no reason to end. -/
  tested : Bool := false
  /-- What to run at the end. -/
  onExit : Text := []
  wake : Option Nat := none
  /-- When the jobs in the background that have finished were all done. -/
  jobsEnd : Nat := 0
  /-- Whether a job in the background has not finished. -/
  jobsStuck : Bool := false
  /-- Whether such a job may still write to the output of the script. -/
  outputHeld : Bool := false

/-- Why a script does not go on with its next command. -/
inductive Stop where
  | stuck
  | exited
  | returned
  | broken (loops : Nat)
  | continued (loops : Nat)
deriving DecidableEq, Repr

/-- A step of a script. What was done before it stopped stays done. -/
abbrev Run := ExceptT Stop (StateM State)

namespace Run

/-- Runs a step to its end or stop without stopping at it. -/
def outcome (r : Run Unit) : Run (Except Stop Unit) := fun s =>
  match r.run s with
  | (o, s) => (.ok o, s)

/-- Goes on or stops as an earlier step did. -/
def resume (o : Except Stop Unit) : Run Unit := fun s => (o, s)

def stop {α : Type} (why : Stop) : Run α := throw why

def setStatus (n : Nat) : Run Unit := modify fun s => { s with status := n }

/-- Waits until a time. -/
def waitUntil (time : Nat) : Run Unit := do
  let s ← get
  if time ≤ s.limit then set { s with now := max s.now time }
  else
    set { s with wake := some (s.wake.elim time (min time)) }
    stop .stuck

/-- Runs a step and gives what it wrote. -/
def captured (r : Run Unit) : Run (Except Stop Unit × Writing) := do
  let before ← get
  modify fun s => { s with output := [], outlet := .here }
  let o ← outcome r
  let written := (← get).output
  modify fun s => { s with
    output := before.output
    outlet := before.outlet
    outputLeft := before.outputLeft }
  return (o, written)

/-- Runs a step whose changes to variables, streams and directory are not seen outside. Its exit is
its end. -/
def isolated (r : Run Unit) : Run (Except Stop Unit) := do
  let before ← get
  modify fun s => { s with onExit := [] }
  let o ← outcome r
  modify fun s => { s with
    bindings := before.bindings
    exported := before.exported
    name := before.name
    arguments := before.arguments
    functions := before.functions
    strict := before.strict
    onExit := before.onExit
    outlet := before.outlet
    outputLeft := before.outputLeft
    inputLeft := before.inputLeft
    dir := before.dir }
  match o with
  | .error .stuck => return .error .stuck
  | _ => return .ok ()

/-- Runs a step whose status is looked at. -/
def guarded (r : Run Unit) : Run Unit := do
  let before := (← get).tested
  modify fun s => { s with tested := true }
  let o ← outcome r
  modify fun s => { s with tested := before }
  resume o

/-- Ends a strict script after a command that failed. -/
def checkStrict : Run Unit := do
  let s ← get
  if s.strict && !s.tested && s.status ≠ 0 then stop .exited

/-- A path as the script sees it. -/
def pathOf (t : Text) : Run Path := return (← get).dir.join ⟨String.ofList t⟩

def value? (name : String) : Run (Option Text) := return (← get).bindings.lookup name

def assign (name : String) (t : Text) : Run Unit := modify fun s =>
  { s with bindings := (name, t) :: s.bindings.filter fun v => v.1 ≠ name }

/-- The characters at which values are split. -/
def separators : Run Text := return ((← value? "IFS").getD [' ', '\t', '\n'])

/-! ## Files -/

/-- The target that takes everything and holds nothing. -/
def sink : Text := "/dev/null".toList

/-- The text of a file, decoded as far as that is possible. -/
def readFile? (t : Text) : Run (Option Text) := do
  if t = sink then return some []
  let s ← get
  match s.files.readText (← pathOf t) with
  | .ok content => return some content.toList
  | .error _ => return none

/-- Puts a text into a file, in place of what was there or after it. -/
def writeFile (t : Text) (keep : Bool) (content : Text) : Run Bool := do
  if t = sink then return true
  let s ← get
  let p ← pathOf t
  let before : Bytes := if keep then (s.files.read p).toOption.getD [] else []
  let (files, outcome) := s.files.write p (before ++ Bytes.ofString (String.ofList content))
  set { s with files := files }
  match outcome with
  | .ok _ => return true
  | .error _ => return false

/-! ## Output -/

/-- Adds pieces to the output. -/
def emit (w : Writing) : Run Unit := do
  match (← get).outlet with
  | .here => modify fun s => { s with output := w ++ s.output }
  | .nowhere => return
  | .file name =>
    let _ ← writeFile name true (w.reverse.flatMap Prod.snd)

/-- Writes to the output. -/
def write (t : Text) : Run Unit := do
  unless t.isEmpty do emit [((← get).now, t)]

/-- Lets the output go to a target from now on. -/
def redirectOutput (target : Target) : Run Unit := do
  let target ← match target with
    | .file name => do pure (Target.file (← pathOf name).spelling.toList)
    | t => pure t
  modify fun s =>
    if target = .here then s
    else { s with outlet := target, outputLeft := some (s.outputLeft.getD s.now) }

/-- Lets go of the input. -/
def leaveInput : Run Unit := modify fun s =>
  { s with inputLeft := some (s.inputLeft.getD s.now) }

/-! ## Reading lines -/

/-- A line for a variable: its characters, each with whether a backslash protects it, and whether
a newline ended it. Unless the line is raw, a backslash before a newline joins lines. -/
def protect (raw : Bool) : Text → List (Char × Bool) × Bool
  | [] => ([], false)
  | ['\\'] => if raw then ([('\\', false)], false) else ([], true)
  | '\\' :: c :: t =>
    if raw then
      let (cs, joins) := protect raw (c :: t)
      (('\\', false) :: cs, joins)
    else
      let (cs, joins) := protect raw t
      ((c, true) :: cs, joins)
  | c :: t =>
    let (cs, joins) := protect raw t
    ((c, false) :: cs, joins)

/-- Takes a line from the input. -/
def takeLine (raw : Bool) : Nat → Run (List (Char × Bool) × Bool)
  | 0 => return ([], false)
  | fuel + 1 => do
    match (← get).input.next with
    | .waiting => stop .stuck
    | .last t time =>
      waitUntil time
      modify fun s => { s with input := { s.input with chars := [] } }
      return ((protect raw t).1, false)
    | .line t time rest =>
      waitUntil time
      modify fun s => { s with input := rest }
      match protect raw t with
      | (cs, true) =>
        let (more, ended) ← takeLine raw fuel
        return (cs ++ more, ended)
      | (cs, false) => return (cs, true)

/-- Divides a line among variables: each gets a field, and the last gets the rest. -/
def divide (isSep : Char × Bool → Bool) : Nat → List String → List (Char × Bool) →
    List (String × Text)
  | 0, _, _ => []
  | _, [], _ => []
  | _, [name], cs =>
    let isBlank (c : Char × Bool) : Bool := isSep c && c.1.isWhitespace
    let cs := (cs.dropWhile isBlank).reverse.dropWhile isBlank |>.reverse
    [(name, cs.map Prod.fst)]
  | fuel + 1, name :: names, cs =>
    let isBlank (c : Char × Bool) : Bool := isSep c && c.1.isWhitespace
    let cs := cs.dropWhile isBlank
    let field := cs.takeWhile (!isSep ·)
    let rest := cs.dropWhile (!isSep ·)
    let rest := match rest.dropWhile isBlank with
      | c :: r => if isSep c then r else c :: r
      | [] => []
    (name, field.map Prod.fst) :: divide isSep fuel names rest

/-- Reads a line into bindings. -/
def readLine (args : List Text) : Run Unit := do
  let raw := args.contains ['-', 'r']
  let names := (args.filter fun a => a.head? != some '-').map String.ofList
  let names := if names.isEmpty then ["REPLY"] else names
  let (cs, ended) ← takeLine raw ((← get).input.chars.length + 1)
  let seps ← separators
  let isSep (c : Char × Bool) : Bool := !c.2 && seps.contains c.1
  for (name, t) in divide isSep (names.length + 1) names cs do
    assign name t
  setStatus (if ended then 0 else 1)

/-! ## Programs -/

/-- Copies the input, or files, to the output. -/
def copy (args : List Text) : Run Unit := do
  let names := if args.isEmpty then [['-']] else args
  setStatus 0
  for name in names do
    if name = ['-'] then
      let f := (← get).input
      let start := (← get).now
      modify fun s => { s with input := { f with chars := [] } }
      emit (f.chars.map fun (time, c) => (max start time, [c])).reverse
      match f.endsAt with
      | some time => waitUntil time
      | none => stop .stuck
    else
      match ← readFile? name with
      | some t => write t
      | none => setStatus 1

/-- The whole of the input or of files, line by line. -/
def sourceOf (names : List Text) : Run Feed := do
  if names.isEmpty then
    let f := (← get).input
    modify fun s => { s with input := { f with chars := [] } }
    return f
  else
    let mut t : Text := []
    for name in names do
      t := t ++ ((← readFile? name).getD [])
    return .ofText t

/-- A line with its newline. -/
def withNewline (t : Text) : Text := t ++ ['\n']

/-- Cuts each line. The result is written when the input ends. -/
def cut (args : List Text) : Run Unit := do
  match readCut args '\t' false none none with
  | none => setStatus 1
  | some (c, names) =>
    let f ← sourceOf names
    match f.lines (f.chars.length + 1) with
    | (_, _, none) => stop .stuck
    | (ls, tail, some time) =>
      waitUntil time
      let ls := ls.map Prod.fst ++ (if tail.isEmpty then [] else [tail])
      write ((ls.filterMap c.line).flatMap withNewline)
      setStatus 0

/-- The options of an editing script: quiet, extended, unbuffered, the scripts and the files. -/
structure SedOptions where
  quiet : Bool := false
  extended : Bool := false
  unbuffered : Bool := false
  scripts : List Text := []
  files : List Text := []

/-- Reads the arguments of an editing script. -/
def SedOptions.read : List Text → SedOptions → SedOptions
  | [], o => o
  | ['-', 'e'] :: t :: args, o => read args { o with scripts := o.scripts ++ [t] }
  | ('-' :: flags) :: args, o =>
    let o := { o with
      quiet := o.quiet || flags.contains 'n'
      extended := o.extended || flags.contains 'E' || flags.contains 'r'
      unbuffered := o.unbuffered || flags.contains 'u' }
    if flags.getLast? = some 'e' then
      match args with
      | t :: args => read args { o with scripts := o.scripts ++ [t] }
      | [] => o
    else read args o
  | t :: args, o =>
    if o.scripts.isEmpty then read args { o with scripts := [t] }
    else read args { o with files := o.files ++ [t] }

/-- Edits lines, each as it comes. -/
def editLines (quiet : Bool) (script : List Sed.Command) (newline : Bool) :
    Nat → List (Text × Nat) → Writing × Bool
  | _, [] => ([], false)
  | n, (t, time) :: ls =>
    let (out, quits) := Sed.editLine quiet script n ls.isEmpty t
    let isFinal := ls.isEmpty && !newline
    let text := if isFinal then ['\n'].intercalate out else out.flatMap withNewline
    if quits then ([(time, text)], true)
    else
      let (rest, quits) := editLines quiet script newline (n + 1) ls
      (rest ++ [(time, text)], quits)

/-- Edits the input by a script. Unless it is told to write at once, it writes when the input
ends. -/
def sed (args : List Text) : Run Unit := do
  let o := SedOptions.read args {}
  match Sed.parse? (if o.extended then .extended else .basic) (['\n'].intercalate o.scripts) with
  | none => setStatus 1
  | some script =>
    let f ← sourceOf o.files
    let (ls, tail, ending) := f.lines (f.chars.length + 1)
    let ls := match ending with
      | some time => if tail.isEmpty then ls else ls ++ [(tail, time)]
      | none => ls
    let newline := ending.isNone || tail.isEmpty
    let (out, quits) := editLines o.quiet script newline 1 ls
    let finish := if quits then (out.head?.map Prod.fst) else ending
    setStatus 0
    match finish with
    | some time =>
      let start := (← get).now
      waitUntil time
      if o.unbuffered then emit (out.map fun (w, t) => (max start w, t))
      else write (out.reverse.flatMap Prod.snd)
    | none =>
      if o.unbuffered then
        let start := (← get).now
        emit (out.map fun (w, t) => (max start w, t))
      stop .stuck

/-- A span of time in milliseconds: digits, perhaps with a fraction, and a unit. -/
def duration? (t : Text) : Option Nat :=
  let whole := t.takeWhile Char.isDigit
  let (fraction, r) := match t.dropWhile Char.isDigit with
    | '.' :: r => (r.takeWhile Char.isDigit, r.dropWhile Char.isDigit)
    | r => ([], r)
  let value (ds : Text) : Nat := ds.foldl (fun n c => n * 10 + (c.toNat - '0'.toNat)) 0
  if (whole ++ fraction).isEmpty then none
  else
    let ms := (value (whole ++ fraction)) * 1000 / Nat.pow 10 fraction.length
    match r with
    | [] | ['s'] => some ms
    | ['m'] => some (ms * 60)
    | ['h'] => some (ms * 3600)
    | _ => none

def sleep (args : List Text) : Run Unit := do
  match args.mapM duration? with
  | some ds =>
    waitUntil ((← get).now + ds.foldl (· + ·) 0)
    setStatus 0
  | none => setStatus 1

/-- Makes files that are not there. -/
def touch (names : List Text) : Run Unit := do
  setStatus 0
  for name in names do
    unless name.head? = some '-' do
      unless ← writeFile name true [] do setStatus 1

/-- Says where the script is. -/
def whereAmI : Run Unit := do
  let s ← get
  write (withNewline (s.files.canonicalOr s.dir).spelling.toList)
  setStatus 0

/-- Goes to another directory. -/
def changeDir (args : List Text) : Run Unit := do
  let s ← get
  let p := s.dir.join ⟨String.ofList (args.head?.getD [])⟩
  if s.files.isDir p then
    set { s with dir := s.files.canonicalOr p, status := 0 }
    assign "OLDPWD" s.dir.spelling.toList
    assign "PWD" (← get).dir.spelling.toList
  else setStatus 2

/-- Whether a condition on files, texts or numbers holds. -/
def holds (args : List Text) : Run Bool := do
  let s ← get
  let node (t : Text) : Option Node :=
    (s.files.find (s.dir.join ⟨String.ofList t⟩)).toOption.map Prod.snd
  let compare (f : Int → Int → Bool) (a b : Text) : Bool :=
    match integer? a, integer? b with
    | some x, some y => f x y
    | _, _ => false
  let one (args : List Text) : Bool := match args with
    | [] => false
    | [a] => !a.isEmpty
    | [op, a] =>
      if op = ['-', 'z'] then a.isEmpty
      else if op = ['-', 'n'] then !a.isEmpty
      else if op = ['-', 'e'] then (node a).isSome
      else if op = ['-', 'f'] then (node a).any (!·.isDir)
      else if op = ['-', 'd'] then (node a).any (·.isDir)
      else if op = ['-', 's'] then match node a with
        | some (.file c _) => !c.isEmpty
        | other => other.isSome
      else if op = ['!'] then a.isEmpty
      else false
    | [a, op, b] =>
      if op = ['='] ∨ op = ['=', '='] then a = b
      else if op = ['!', '='] then a ≠ b
      else if op = "-eq".toList then compare (· == ·) a b
      else if op = "-ne".toList then compare (· != ·) a b
      else if op = "-lt".toList then compare (· < ·) a b
      else if op = "-le".toList then compare (· ≤ ·) a b
      else if op = "-gt".toList then compare (· > ·) a b
      else if op = "-ge".toList then compare (· ≥ ·) a b
      else false
    | _ => false
  match args with
  | ['!'] :: a :: rest => return !one (a :: rest)
  | _ => return one args

end Run

end Refactor.Shell
