import Refactor.Client.Basic
import Refactor.Launch
import Refactor.Shell.Run

/-!
# A client and its child process

A client that starts the server as a program of its own. The program reads the
lines of the client and writes messages; it may change files, and it may wait.
What it has done by some time depends only on the files at its start and on the
lines that it got and when (`Child.progress`), so a child is kept as just those.
-/

namespace Refactor

/-- A program that was started for a connection. -/
structure Child where
  connection : Nat
  program : Program
  arguments : List String
  /-- The variables that it was started with. -/
  bindings : List (String × Text)
  root : Path
  /-- When it was started. -/
  start : Nat
  /-- The files at its start. -/
  base : FileTree
  /-- Lines that it got, with their times. -/
  input : List (Nat × Text) := []
  /-- How many pieces of its output have been read. -/
  taken : Nat := 0

namespace Child

/-- What a child has done by a time. -/
def progress (c : Child) (now : Nat) : Shell.Progress :=
  let arguments := c.program.arguments ++ c.arguments
  Shell.progress (Shell.Run.runTool Shell.stepLimit c.program.tool (arguments.map String.toList))
    { now := c.start
      limit := now
      files := c.base
      dir := c.root
      bindings := ("PWD", (c.base.canonicalOr c.root).spelling.toList) :: c.bindings
      exported := "PWD" :: c.bindings.map Prod.fst
      input := ⟨c.input.flatMap fun (time, line) => (line ++ ['\n']).map fun ch => (time, ch), none⟩ }

end Child

/-- A client, the files around it and the child of its connection in use. -/
structure Host where
  client : Client
  surroundings : Surroundings
  files : FileTree
  child : Option Child := none
  /-- When the child goes on by itself. -/
  wake : Option Nat := none

namespace Host

/-- Hands new lines to a child. -/
def feed (client : Client) (c : Child) : Child :=
  let lines := client.linesRead c.connection
  { c with input := c.input ++ (lines.drop c.input.length).map fun l => (client.clock, l) }

/-- Lets client and child work until both wait. -/
def settle (h : Host) : Host :=
  let client := h.client.flush
  match h.child with
  | none => { h with client := client.expire, wake := none }
  | some c =>
    let c := feed client c
    let p := c.progress client.clock
    let client := (p.output.drop c.taken).foldl (fun client (_, t) =>
      (client.receive c.connection (Bytes.ofString (String.ofList t))).1) client
    let client := if p.outputEnd.isSome then client.endInput c.connection else client
    let client := if p.inputEnd.isSome then client.setUptake c.connection .closed else client
    { h with
      client := client.expire
      files := p.files
      child := some { c with taken := p.output.length }
      wake := p.wake }

/-- Lets time pass until something has come about, but no longer than up to a deadline. -/
def await (isDone : Host → Bool) (deadline : Nat) : Nat → Host → Host
  | 0, h => h.settle
  | fuel + 1, h =>
    let h := h.settle
    let now := h.client.clock
    if isDone h || deadline ≤ now then h
    else
      let next := max (now + 1) (min deadline (h.wake.getD deadline))
      await isDone deadline fuel { h with client := h.client.advance (next - now) }

/-- Lets time pass for at most a span until something has come about. -/
def awaitFor (isDone : Host → Bool) (ms : Nat) (h : Host) : Host :=
  h.await isDone (h.client.clock + ms) (ms + 1)

/-- Kills the child; what it did stays. -/
def kill (h : Host) : Host := { h with child := none, wake := none }

/-- Takes over a client that has started a connection, with a new child for it. -/
def adopt (h : Host) (client : Client) (program : Program) (arguments : List String) (root : Path) :
    Host :=
  { h with
    client := client
    child := some { connection := client.nextConnection - 1, program := program,
                    arguments := arguments, bindings := h.surroundings.bindings h.files root,
                    root := root, start := client.clock, base := h.files } }

/-- Starts the server. -/
def start (h : Host) (root : Path) : Host × Attempt Unit :=
  let launched := h.surroundings.launch h.files h.client.settings.command root
  let running := h.client.isRunning
  match h.client.start root (launched.map fun _ => {}), launched with
  | (client, .ok _), .ok (program, arguments) => (h.adopt client program arguments root, .ok ())
  | (client, r), _ => (if running then { h with client := client } else { h.kill with client := client }, r)

/-- Stops the server. -/
def stop (h : Host) : Host := { h.kill with client := h.client.stop }

/-- Stops the server and starts it in the same place. -/
def restart (h : Host) : Host × Attempt Unit :=
  match h.client.root? with
  | none => (h, .error .notRunning)
  | some root => h.stop.start root

/-- Asks and waits for the answer, or for the end of its time. -/
def request (h : Host) (command : String) (arguments : Option Json) : Host × Attempt (Option Json) :=
  let (ticket, client) := h.client.issue true command arguments
  let h := ({ h with client := client }).awaitFor (fun h => (h.client.outcome? ticket).isSome)
    client.settings.requestTimeoutMs.toNat
  (h, (h.client.outcome? ticket).getD (.error (.sessionClosed command)))

/-- Shows the server a file. -/
def openFile (h : Host) (path : Path) : Host × Attempt Unit :=
  let (client, r) := h.client.openFile h.files path
  ({ h with client := client }, r)

end Host

end Refactor
