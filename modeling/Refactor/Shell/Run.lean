import Refactor.Program
import Refactor.Shell.State

/-!
# Running scripts

Commands run one after another on the state of the script. The stages of a
pipeline run side by side: each reads what the one before it writes, at the times
at which it is written. A job in the background starts where the script is and
does not hold it up. Fuel bounds the loops of a script that never waits.
-/

namespace Refactor.Shell

/-- What a part of a word has become. -/
inductive Piece where
  | literal (t : Text) (quoted : Bool)
  | value (t : Text) (quoted : Bool)
  /-- All arguments, each a field of its own. -/
  | several (ts : List Text)

namespace Piece

/-- The text of a piece. -/
def text : Piece → Text
  | .literal t _ => t
  | .value t _ => t
  | .several ts => [' '].intercalate ts

/-- Pieces as one text. -/
def join (ps : List Piece) : Text := ps.flatMap text

/-- Pieces as a pattern. -/
def glob (ps : List Piece) : Glob :=
  ps.flatMap fun
    | .literal t quoted => t.map (·, quoted)
    | .value t quoted => t.map (·, quoted)
    | p => p.text.map (·, true)

/-- Fields under construction: those that are finished, the latest first, and the one that is
open. -/
abbrev Draft := List Text × Option Text

/-- Adds a text to the open field. -/
def Draft.add (d : Draft) (t : Text) : Draft := (d.1, some (d.2.getD [] ++ t))

/-- Finishes the open field. -/
def Draft.close (d : Draft) : Draft := (d.2.toList ++ d.1, none)

/-- Adds a value that is split at separators. -/
def Draft.split (seps : Text) (d : Draft) (t : Text) : Draft :=
  t.foldl (fun d c =>
    if !seps.contains c then d.add [c]
    else if c.isWhitespace then d.close
    else (d.2.getD [] :: d.1, none)) d

/-- Adds arguments as fields of their own. -/
def Draft.several (d : Draft) : List Text → Draft
  | [] => d
  | [t] => d.add t
  | t :: ts => Draft.several (d.add t).close ts

/-- Pieces as fields. -/
def fields (seps : Text) (ps : List Piece) : List Text :=
  let d := ps.foldl (fun (d : Draft) p => match p with
    | .literal t _ => d.add t
    | .value t true => d.add t
    | .value t false => Draft.split seps d t
    | .several ts => Draft.several d ts) ([], none)
  (Draft.close d).1.reverse

end Piece

/-- A text without the newlines at its end. -/
def dropNewlines (t : Text) : Text := (t.reverse.dropWhile (· == '\n')).reverse

/-- Whether a command writes to a file rather than to the output of the script. -/
def Command.isRedirected : Command → Bool
  | .redirected _ rs => rs.any fun
    | .mk 1 .write _ => true
    | .mk 1 .append _ => true
    | _ => false
  | _ => false

/-- Whether a command does nothing but redirect the streams of the script itself. -/
def Command.isBareExec : Command → Bool
  | .simple _ [[.text t false]] => t = "exec".toList
  | _ => false

/-- Whether a redirection is one of the input. -/
def Redirect.isInput : Redirect → Bool
  | .mk 0 _ _ => true
  | _ => false

namespace Run

/-- The number that the system knows a script by. -/
def ownNumber : Int := 100

/-- The value of a variable, or of something that a script cannot set. -/
def valueOf? (name : String) : Run (Option Text) := do
  let s ← get
  match name.toList with
  | ['#'] => return some (ofInt s.arguments.length)
  | ['?'] => return some (ofInt s.status)
  | ['$'] => return some (ofInt ownNumber)
  | ['!'] => return some (ofInt 101)
  | ['-'] => return some []
  | ['@'] | ['*'] => return some ([' '].intercalate s.arguments)
  | ['0'] => return some s.name
  | [c] =>
    if c.isDigit then return s.arguments[c.toNat - '0'.toNat - 1]?
    else value? name
  | _ => value? name

/-- The status that an argument names. -/
def statusOf (args : List Text) : Run Nat := do
  match args.head?.bind integer? with
  | some i => return (i % 256).toNat
  | none => return (← get).status

/-- The number of loops that an argument names. -/
def loopsOf (args : List Text) : Nat := ((args.head?.bind integer?).getD 1).toNat

/-- Sets a variable to what follows an equals sign; its name. -/
def assignWord (w : Text) : Run String := do
  let name := String.ofList (w.takeWhile (· != '='))
  match w.dropWhile (· != '=') with
  | _ :: t => assign name t
  | [] => pure ()
  return name

/-- A command of the shell that runs no other commands; whether there is one of that name. -/
def runBuiltin (name : String) (args : List Text) : Run Bool := do
  match name with
  | "set" =>
    setStatus 0
    for a in args.takeWhile (· != ['-', '-']) do
      match a with
      | '-' :: flags => if flags.contains 'e' then modify fun s => { s with strict := true }
      | '+' :: flags => if flags.contains 'e' then modify fun s => { s with strict := false }
      | _ => pure ()
    match args.dropWhile (· != ['-', '-']) with
    | _ :: rest => modify fun s => { s with arguments := rest }
    | [] => pure ()
  | ":" | "true" | "ulimit" | "umask" => setStatus 0
  | "trap" =>
    setStatus 0
    match args with
    | action :: conditions =>
      if conditions.any fun c => c = ['0'] ∨ c = "EXIT".toList then
        modify fun s => { s with onExit := if action = ['-'] then [] else action }
    | [] => pure ()
  | "kill" =>
    setStatus 0
    -- a script that kills itself ends without its last words
    if args.contains (ofInt ownNumber) && args.head? ≠ some ['-', '0'] then
      modify fun s => { s with onExit := [] }
      stop .exited
  | "export" =>
    setStatus 0
    for a in args do
      let name ← assignWord a
      modify fun s => { s with exported := name :: s.exported }
  | "local" | "readonly" =>
    setStatus 0
    for a in args do
      let _ ← assignWord a
  | "false" => setStatus 1
  | "echo" =>
    write (echo args)
    setStatus 0
  | "printf" =>
    write (printf args)
    setStatus 0
  | "read" => readLine args
  | "pwd" => whereAmI
  | "cd" => changeDir args
  | "test" => setStatus (if ← holds args then 0 else 1)
  | "[" => setStatus (if ← holds args.dropLast then 0 else 1)
  | "shift" =>
    modify fun s => { s with arguments := s.arguments.drop (loopsOf args), status := 0 }
  | "unset" =>
    modify fun s => { s with
      bindings := s.bindings.filter fun v => !args.contains v.1.toList
      status := 0 }
  | "wait" =>
    let s ← get
    if s.jobsStuck then stop .stuck
    waitUntil s.jobsEnd
    setStatus 0
  | "exit" =>
    setStatus (← statusOf args)
    stop .exited
  | "return" =>
    setStatus (← statusOf args)
    stop .returned
  | "break" => stop (.broken (loopsOf args))
  | "continue" => stop (.continued (loopsOf args))
  | _ => return false
  return true

/-- A program that runs no other commands; whether there is one of that name. -/
def runPlainTool (name : String) (args : List Text) : Run Bool := do
  match name with
  | "cat" => copy (args.filter (· != ['-', 'u']))
  | "cut" => cut args
  | "sed" => sed args
  | "sleep" => sleep args
  | "touch" => touch args
  | _ => return (← runBuiltin name args)
  return true

/-- Leaves a program only the variables that it gets to see. -/
def forgetOwn : Run Unit := modify fun s => { s with
  bindings := s.bindings.filter fun v => s.exported.contains v.1
  functions := []
  name := ['s', 'h']
  strict := false }

/-- Goes out of or on with loops: whether the loop that the stop meets goes on. -/
def loopGoesOn (o : Except Stop Unit) : Run Bool := do
  match o with
  | .ok _ => return true
  | .error (.continued n) => if n ≤ 1 then return true else stop (.continued (n - 1))
  | .error (.broken n) => if n ≤ 1 then return false else stop (.broken (n - 1))
  | .error e => stop e

mutual

/-- What parts of a word become. -/
def expand : Nat → List Part → Run (List Piece)
  | 0, _ => stop .stuck
  | _ + 1, [] => return []
  | fuel + 1, p :: ps => do
    let piece ← match p with
      | .text t quoted => pure (.literal t quoted)
      | .value "@" .keep true => pure (.several (← get).arguments)
      | .value name change quoted => pure (.value (← changed fuel name change) quoted)
      | .output body quoted =>
        let (o, written) ← captured (do resume (← isolated (runList fuel body)))
        resume o
        pure (.value (dropNewlines (written.reverse.flatMap Prod.snd)) quoted)
      | .sum term quoted =>
        let t := Piece.join (← expand fuel term)
        let vars := (← get).bindings
        let value (name : String) : Int := ((vars.lookup name).bind integer?).getD 0
        pure (.value (ofInt ((calculate? value t).getD 0)) quoted)
    return piece :: (← expand fuel ps)

/-- The value of a variable after a change. -/
def changed : Nat → String → Change → Run Text
  | 0, _, _ => stop .stuck
  | fuel + 1, name, change => do
    let v ← valueOf? name
    let isThere (evenIfEmpty : Bool) : Bool := v.any fun t => !(evenIfEmpty && t.isEmpty)
    match change with
    | .keep => return v.getD []
    | .length => return ofInt (Text.byteSize (v.getD []))
    | .orElse evenIfEmpty w =>
      if isThere evenIfEmpty then return v.getD [] else return Piece.join (← expand fuel w)
    | .orAssign evenIfEmpty w =>
      if isThere evenIfEmpty then return v.getD []
      else
        let t := Piece.join (← expand fuel w)
        assign name t
        return t
    | .replaced evenIfEmpty w =>
      if isThere evenIfEmpty then return Piece.join (← expand fuel w) else return []
    | .without atStart longest pattern =>
      let g := Piece.glob (← expand fuel pattern)
      return (if atStart then g.stripStart longest else g.stripEnd longest) (v.getD [])

/-- The fields of words. -/
def expandWords : Nat → List (List Part) → Run (List Text)
  | 0, _ => stop .stuck
  | _ + 1, [] => return []
  | fuel + 1, w :: ws => do
    let pieces ← expand fuel w
    let seps ← separators
    return Piece.fields seps pieces ++ (← expandWords fuel ws)

/-- Sets bindings. -/
def assignAll : Nat → List (String × List Part) → Run Unit
  | 0, _ => stop .stuck
  | _ + 1, [] => return
  | fuel + 1, (name, w) :: rest => do
    assign name (Piece.join (← expand fuel w))
    assignAll fuel rest

/-- Commands one after another. -/
def runList : Nat → List Command → Run Unit
  | 0, _ => stop .stuck
  | _ + 1, [] => return
  | fuel + 1, c :: cs => do
    runCommand fuel c
    runList fuel cs

/-- One command. -/
def runCommand : Nat → Command → Run Unit
  | 0, _ => stop .stuck
  | fuel + 1, c =>
    match c with
    | .simple assignments words => do
      match ← expandWords fuel words with
      | [] =>
        setStatus 0
        assignAll fuel assignments
        checkStrict
      | name :: args =>
        let before ← get
        assignAll fuel assignments
        modify fun s => { s with exported := assignments.map Prod.fst ++ s.exported }
        let o ← outcome (runNamed fuel (String.ofList name) args)
        unless assignments.isEmpty do modify fun s => { s with exported := before.exported }
        for (name, _) in assignments do
          modify fun s => { s with bindings := s.bindings.filter fun v => v.1 ≠ name }
          match before.bindings.lookup name with
          | some t => assign name t
          | none => pure ()
        resume o
        checkStrict
    | .redirected c rs => do
      let before := (← get).input
      match ← redirect fuel .here rs with
      | none => setStatus 2
      | some target =>
        if c.isBareExec then
          redirectOutput target
          if rs.any Redirect.isInput then leaveInput
          setStatus 0
          return
        let o ← runInto fuel target c
        if rs.any Redirect.isInput then modify fun s => { s with input := before }
        resume o
    | .group body => runList fuel body
    | .subshell body => do
      resume (← isolated (runList fuel body))
      checkStrict
    | .pipeline negated stages => do
      let before := (← get).tested
      modify fun s => { s with tested := before || negated }
      let (done, ending) ← runStages fuel (← get).now stages
      modify fun s => { s with now := ending, tested := before }
      unless done do stop .stuck
      if negated then modify fun s => { s with status := if s.status = 0 then 1 else 0 }
      else checkStrict
    | .both a b => do
      guarded (runCommand fuel a)
      if (← get).status = 0 then runCommand fuel b
    | .either a b => do
      guarded (runCommand fuel a)
      unless (← get).status = 0 do runCommand fuel b
    | .background c => do
      let before ← get
      modify fun s => { s with input := .nothing }
      let o ← isolated (runCommand fuel c)
      let isStuck := o matches .error _
      modify fun s => { s with
        now := before.now
        input := before.input
        status := 0
        jobsEnd := if isStuck then s.jobsEnd else max s.jobsEnd s.now
        jobsStuck := s.jobsStuck || isStuck
        outputHeld := s.outputHeld || (isStuck && !c.isRedirected && s.outlet = .here) }
    | .loop whileFailing test body => runLoop fuel whileFailing test body
    | .branch arms otherwise => runArms fuel arms otherwise
    | .each name words body => do
      let items ← match words with
        | some ws => expandWords fuel ws
        | none => pure (← get).arguments
      runEach fuel name items body
    | .select subject arms => do
      let t := Piece.join (← expand fuel subject)
      setStatus 0
      runCases fuel t arms
    | .define name body => do
      modify fun s => { s with functions := (name, body) :: s.functions }
      setStatus 0

/-- Runs a command with its output going to a target. -/
def runInto : Nat → Target → Command → Run (Except Stop Unit)
  | 0, _, _ => stop .stuck
  | fuel + 1, target, c => do
    match target with
    | .here => outcome (runCommand fuel c)
    | .nowhere => return (← captured (runCommand fuel c)).1
    | .file name =>
      let (o, written) ← captured (runCommand fuel c)
      let _ ← writeFile name true (written.reverse.flatMap Prod.snd)
      return o

/-- Opens the targets of redirections; none if one cannot be opened. -/
def redirect : Nat → Target → List Redirect → Run (Option Target)
  | 0, _, _ => stop .stuck
  | _ + 1, target, [] => return some target
  | fuel + 1, target, .mk descriptor kind w :: rs => do
    let name := Piece.join (← expand fuel w)
    match kind, descriptor with
    | .read, _ =>
      match ← readFile? name with
      | some t =>
        modify fun s => { s with input := .ofText t }
        redirect fuel target rs
      | none => return none
    | .here, _ =>
      modify fun s => { s with input := .ofText name }
      redirect fuel target rs
    | .duplicate, 0 =>
      modify fun s => { s with input := if name = ['-'] then .nothing else s.input }
      redirect fuel target rs
    | .duplicate, 1 => redirect fuel (if name = ['1'] then target else .nowhere) rs
    | .duplicate, _ => redirect fuel target rs
    | _, descriptor =>
      if ← writeFile name (kind = .append) [] then
        redirect fuel (if descriptor = 1 then .file name else target) rs
      else return none

/-- The stages of a pipeline that starts at a time: whether all are done, and when. -/
def runStages : Nat → Nat → List Command → Run (Bool × Nat)
  | 0, _, _ => stop .stuck
  | _ + 1, start, [] => return (true, start)
  | fuel + 1, _, [c] => do
    let o ← isolated (runCommand fuel c)
    return (o matches .ok _, (← get).now)
  | fuel + 1, start, c :: cs => do
    let (o, written) ← captured (do resume (← isolated (runCommand fuel c)))
    let isDone := o matches .ok _
    let s ← get
    set { s with
      now := start
      input := .ofWriting written (if isDone then some s.now else none) }
    let (done, ending) ← runStages fuel start cs
    modify fun t => { t with input := s.input }
    return (done && isDone, max ending s.now)

/-- A loop on a test. -/
def runLoop : Nat → Bool → List Command → List Command → Run Unit
  | 0, _, _, _ => stop .stuck
  | fuel + 1, whileFailing, test, body => do
    if !(← loopGoesOn (← outcome (guarded (runList fuel test)))) then setStatus 0
    else if ((← get).status = 0) != whileFailing then
      if ← loopGoesOn (← outcome (runList fuel body)) then runLoop fuel whileFailing test body
      else setStatus 0
    else setStatus 0

/-- A loop over items. -/
def runEach : Nat → String → List Text → List Command → Run Unit
  | 0, _, _, _ => stop .stuck
  | _ + 1, _, [], _ => return
  | fuel + 1, name, t :: ts, body => do
    assign name t
    if ← loopGoesOn (← outcome (runList fuel body)) then runEach fuel name ts body

/-- The first body whose test succeeds. -/
def runArms : Nat → List (List Command × List Command) → List Command → Run Unit
  | 0, _, _ => stop .stuck
  | fuel + 1, [], otherwise => do
    setStatus 0
    runList fuel otherwise
  | fuel + 1, (test, body) :: arms, otherwise => do
    guarded (runList fuel test)
    if (← get).status = 0 then runList fuel body else runArms fuel arms otherwise

/-- The first body with a pattern that matches a text. -/
def runCases : Nat → Text → List (List (List Part) × List Command) → Run Unit
  | 0, _, _ => stop .stuck
  | _ + 1, _, [] => return
  | fuel + 1, t, (patterns, body) :: arms => do
    if ← anyCovers fuel t patterns then runList fuel body else runCases fuel t arms

/-- Whether a pattern matches a text. -/
def anyCovers : Nat → Text → List (List Part) → Run Bool
  | 0, _, _ => stop .stuck
  | _ + 1, _, [] => return false
  | fuel + 1, t, w :: ws => do
    if (Piece.glob (← expand fuel w)).covers t then return true else anyCovers fuel t ws

/-- A command by its name: one of the script itself, one of the shell, or a program. -/
def runNamed : Nat → String → List Text → Run Unit
  | 0, _, _ => stop .stuck
  | fuel + 1, name, args => do
    match (← get).functions.lookup name with
    | some body =>
      let before := (← get).arguments
      modify fun s => { s with arguments := args }
      let o ← outcome (runCommand fuel body)
      modify fun s => { s with arguments := before }
      match o with
      | .error .returned => return
      | o => resume o
    | none =>
      match name with
      | "exec" =>
        match args with
        | name :: args =>
          runNamed fuel (String.ofList name) args
          stop .exited
        | [] => setStatus 0
      | "eval" => runText fuel ([' '].intercalate args)
      | "command" =>
        match args with
        | name :: args => runNamed fuel (String.ofList name) args
        | [] => setStatus 0
      | "." =>
        match ← readFile? (args.head?.getD []) with
        | some t => runText fuel t
        | none =>
          setStatus 2
          stop .exited
      | _ => unless ← runBuiltin name args do resume (← isolated (runFound fuel name args))

/-- A program by its name, which is looked for along the search path. -/
def runFound : Nat → String → List Text → Run Unit
  | 0, _, _ => stop .stuck
  | fuel + 1, name, args => do
    let s ← get
    match Program.find s.files s.dir ((← value? "PATH").getD Program.systemPath) name with
    | .ok p =>
      forgetOwn
      runTool fuel p.tool (p.arguments.map String.toList ++ args)
    | .error e => setStatus (if e = .denied then 126 else 127)

/-- A program of the system. -/
def runTool : Nat → String → List Text → Run Unit
  | 0, _, _ => stop .stuck
  | fuel + 1, name, args => do
    match name with
    | "sh" => runShell fuel args
    | "env" =>
      for a in args.takeWhile (·.contains '=') do
        let name ← assignWord a
        modify fun s => { s with exported := name :: s.exported }
      match args.dropWhile (·.contains '=') with
      | name :: args => runFound fuel (String.ofList name) args
      | [] => setStatus 0
    | _ => unless ← runPlainTool name args do setStatus 127

/-- A script as text. One that cannot be read fails. -/
def runText : Nat → Text → Run Unit
  | 0, _ => stop .stuck
  | fuel + 1, t =>
    match parse? t with
    | some cs => runList fuel cs
    | none => do
      setStatus 2
      stop .exited

/-- A script as text with its last words. -/
def runWhole : Nat → Text → Run Unit
  | 0, _ => stop .stuck
  | fuel + 1, t => do
    let o ← outcome (runText fuel t)
    let s ← get
    match o with
    | .error .stuck => stop .stuck
    | o =>
      unless s.onExit.isEmpty do
        set { s with onExit := [] }
        runText fuel s.onExit
        setStatus s.status
      resume o

/-- A shell of its own, with a script as its argument or in a file. -/
def runShell : Nat → List Text → Run Unit
  | 0, _ => stop .stuck
  | fuel + 1, args => do
    match args with
    | ('-' :: flags) :: t :: args =>
      modify fun s => { s with strict := s.strict || flags.contains 'e' }
      if flags.contains 'c' then
        modify fun s => { s with name := args.head?.getD s.name, arguments := args.drop 1 }
        runWhole fuel t
      else runShell fuel (t :: args)
    | t :: args =>
      match ← readFile? t with
      | some script =>
        modify fun s => { s with name := t, arguments := args }
        runWhole fuel script
      | none => setStatus 2
    | [] => runWhole fuel ((← get).input.chars.map Prod.snd)

end

end Run

/-- How many steps deep a script may go before it counts as stuck. -/
def stepLimit : Nat := 100000

/-- What a script has done by a time. -/
structure Progress where
  /-- What it wrote, in order of time. -/
  output : List (Nat × Text)
  /-- When its output ended. -/
  outputEnd : Option Nat
  /-- When it ended, and no longer read. -/
  inputEnd : Option Nat
  files : FileTree
  /-- When it goes on by itself. -/
  wake : Option Nat

/-- Runs a step from a state and tells what it did. -/
def progress (r : Run Unit) (s : State) : Progress :=
  match r.run s with
  | (o, s) =>
    let ending : Option Nat := match o with
      | .error .stuck => none
      | _ => some s.now
    { output := s.output.reverse.mergeSort fun a b => a.1 ≤ b.1
      outputEnd := if s.outputHeld then none else (s.outputLeft <|> ending).map (max s.jobsEnd)
      inputEnd := s.inputLeft <|> ending
      files := s.files
      wake := s.wake }

end Refactor.Shell
