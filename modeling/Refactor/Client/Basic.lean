import Refactor.Client.Connection
import Refactor.FileTree.Access
import Refactor.Settings.Basic

/-!
# The client

A client has at most one connection in use and remembers those it gave up, since
their requests are still waiting to time out. Every request and notification is
known by a ticket; it is settled once, by an answer, by the end of its time, or
because its line could not be sent. A request's time runs from the moment its
line is in the queue.
-/

namespace Refactor

/-- A request or a notification that is not settled. -/
structure Ticket where
  id : Nat
  connection : Nat
  seq : Nat
  command : String
  isRequest : Bool
  /-- When the line got into the queue. -/
  queuedAt : Option Nat := none
  /-- An answer that came before that. -/
  early : Option Response := none

/-- A client. -/
structure Client where
  settings : ServerSettings
  /-- All connections by number, the latest first. -/
  connections : List (Nat × Connection) := []
  /-- The connection in use. -/
  current : Option Nat := none
  tickets : List Ticket := []
  /-- What became of tickets, the latest first. -/
  settled : List (Nat × Attempt (Option Json)) := []
  nextTicket : Nat := 0
  nextConnection : Nat := 0
  clock : Nat := 0

namespace Client

/-- The connection in use, with its number. -/
def active? (c : Client) : Option (Nat × Connection) :=
  match c.current with
  | some n => (c.connections.lookup n).map fun k => (n, k)
  | none => none

/-- Changes a connection. -/
def update (c : Client) (n : Nat) (k : Connection) : Client :=
  { c with connections := c.connections.map fun e => if e.1 = n then (n, k) else e }

/-- Changes the dialog of a connection. -/
def updateDialog (c : Client) (n : Nat) (f : Dialog → Dialog) : Client :=
  { c with connections := c.connections.map fun e =>
      if e.1 = n then (n, { e.2 with dialog := f e.2.dialog }) else e }

def isRunning (c : Client) : Bool :=
  match c.active? with
  | some (_, k) => k.dialog.running
  | none => false

def isLoaded (c : Client) : Bool :=
  match c.active? with
  | some (_, k) => k.dialog.loaded
  | none => false

/-- The number of requests of the connection in use that have no answer. -/
def pendingCount (c : Client) : Nat :=
  match c.active? with
  | some (_, k) => k.dialog.pending.length
  | none => 0

def root? (c : Client) : Option Path := c.active?.map (·.2.root)

/-! ## Settling -/

/-- Settles a ticket. -/
def settle (c : Client) (ticket : Nat) (result : Attempt (Option Json)) : Client :=
  { c with
    tickets := c.tickets.filter fun t => t.id ≠ ticket
    settled := (ticket, result) :: c.settled }

/-- What an answer comes to for the command that asked. -/
def resultOf (command : String) (r : Response) : Attempt (Option Json) :=
  if r.success then .ok r.body
  else .error (.server command
    (r.message.getD ("tsserver reported failure for '" ++ command ++ "'")))

/-- Hands an answer to its ticket. -/
def deliver (c : Client) (ticket : Nat) (r : Response) : Client :=
  match c.tickets.find? (·.id == ticket) with
  | some t =>
    match t.queuedAt with
    | some _ => c.settle ticket (resultOf t.command r)
    | none =>
      { c with tickets := c.tickets.map fun t => if t.id = ticket then { t with early := some r } else t }
  | none => c

def deliverAll (c : Client) (answers : List (Nat × Response)) : Client :=
  answers.foldl (fun c a => c.deliver a.1 a.2) c

/-- The line of a ticket is in the queue: a notification is settled, and the time of a request
starts. -/
def enqueued (c : Client) (ticket : Nat) : Client :=
  match c.tickets.find? (·.id == ticket) with
  | some t =>
    if !t.isRequest then c.settle ticket (.ok none)
    else
      match t.early with
      | some r => c.settle ticket (resultOf t.command r)
      | none =>
        { c with tickets := c.tickets.map fun t =>
            if t.id = ticket then { t with queuedAt := some c.clock } else t }
  | none => c

/-- The project of a session counts as loaded. -/
def load (c : Client) (n : Nat) : Client := c.updateDialog n fun d => { d with loaded := true }

/-- A line of a session is in the queue. Once a file is shown, the project counts as loaded. -/
def accept (n : Nat) (c : Client) (l : OutLine) : Client :=
  let c := c.enqueued l.ticket
  if l.opens then c.load n else c

/-- The line of a ticket was turned away. -/
def turnedAway (c : Client) (ticket : Nat) : Client :=
  match c.tickets.find? (·.id == ticket) with
  | some t =>
    (c.updateDialog t.connection (·.forget t.seq)).settle ticket (.error (.sessionClosed t.command))
  | none => c

/-- Whether a ticket's time is over. -/
def isOver (c : Client) (t : Ticket) : Bool :=
  match t.queuedAt with
  | some since => c.settings.requestTimeoutMs.toNat ≤ c.clock - since
  | none => false

/-- Settles the tickets whose time is over. -/
def expire (c : Client) : Client :=
  (c.tickets.filter c.isOver).foldl
    (fun c t => (c.updateDialog t.connection (·.forget t.seq)).settle t.id
      (.error (.timeout t.command c.settings.requestTimeoutMs))) c

/-- Lets time pass. -/
def advance (c : Client) (ms : Nat) : Client := ({ c with clock := c.clock + ms }).expire

/-! ## Asking -/

/-- Sends a request or a notification; its ticket. Without a running session nothing is sent. -/
def issue (c : Client) (isRequest : Bool) (command : String) (arguments : Option Json)
    (opens : Bool := false) : Nat × Client :=
  let id := c.nextTicket
  let c := { c with nextTicket := id + 1 }
  match c.active? with
  | none => (id, c.settle id (.error .notRunning))
  | some (n, k) =>
    if !k.dialog.running then (id, c.settle id (.error .notRunning))
    else
      let (seq, dialog) := k.dialog.allocate
      let dialog := if isRequest then dialog.register seq id else dialog
      let line : OutLine := ⟨id, (Request.mk seq command arguments).text, opens⟩
      let (outbox, handed) := k.outbox.push line
      let c := { c.update n { k with dialog := dialog, outbox := outbox } with
        tickets := c.tickets ++ [{ id := id, connection := n, seq := seq, command := command,
                                   isRequest := isRequest }] }
      match handed with
      | .queued => (id, c.accept n line)
      | .blocked => (id, c)
      | .refused => (id, c.turnedAway id)

/-- Lets the writer of the connection in use work. -/
def flush (c : Client) : Client :=
  match c.active? with
  | none => c
  | some (n, k) =>
    let p := k.outbox.flush
    let dialog := if p.failed then { k.dialog with running := false } else k.dialog
    let c := c.update n { k with outbox := p.outbox, dialog := dialog }
    let c := p.admitted.foldl (accept n) c
    p.refused.foldl (fun c l => c.turnedAway l.ticket) c

/-- What a ticket came to. -/
def outcome? (c : Client) (ticket : Nat) : Option (Attempt (Option Json)) := c.settled.lookup ticket

/-! ## Sessions -/

/-- Gives up the connection in use. Its requests are left to time out. -/
def stop (c : Client) : Client :=
  match c.active? with
  | none => { c with current := none }
  | some (n, k) =>
    let (k, refused) := k.shutdown
    refused.foldl (fun c l => c.turnedAway l.ticket) { c.update n k with current := none }

/-- The arguments of the first request of a session. -/
def configuration (s : ServerSettings) : Json :=
  .ofMembers ([("hostInfo", .str "tsmill"), ("preferences", s.preferences)] ++
    s.formatOptions.toList.map fun v => ("formatOptions", v))

/-- Takes a new connection into use and sends the settings over it. -/
def install (c : Client) (root : Path) (streams : Streams) : Client :=
  let n := c.nextConnection
  let k : Connection :=
    { root := root, outbox := { uptake := streams.uptake, pipe := streams.pipe } }
  let c := { c with
    connections := (n, k) :: c.connections
    current := some n
    nextConnection := n + 1 }
  (c.issue true "configure" (some (configuration c.settings))).2

/-- Starts a session over streams that `launch` provides. There must be none running; one that has
ended is given up, even if the new one cannot be launched. -/
def start (c : Client) (root : Path) (launch : Attempt Streams) : Client × Attempt Unit :=
  if c.isRunning then (c, .error .alreadyRunning)
  else
    let c := c.stop
    match launch with
    | .error e => (c, .error e)
    | .ok streams => (c.install root streams, .ok ())

/-- Stops the session and starts another one in the same place. -/
def restart (c : Client) (launch : Path → Attempt Streams) : Client × Attempt Unit :=
  match c.root? with
  | none => (c, .error .notRunning)
  | some root => c.stop.start root (launch root)

/-- Shows the server a file. A line that has to wait for room may still be turned away. -/
def openFile (c : Client) (files : FileTree) (path : Path) : Client × Attempt Unit :=
  match files.readText path with
  | .error e => (c, .error (.ioAt path e))
  | .ok content =>
    match c.active? with
    | none => (c, .error .notRunning)
    | some (_, k) =>
      let arguments := .ofMembers [("file", .str (wirePath path)), ("fileContent", .str content),
        ("projectRootPath", .str (wirePath k.root))]
      let (ticket, c) := c.issue false "open" (some arguments) true
      match c.outcome? ticket with
      | some (.error e) => (c, .error e)
      | _ => (c, .ok ())

/-! ## What the peer does -/

/-- Takes in bytes of a peer. Answers whether the peer got rid of them. -/
def receive (c : Client) (n : Nat) (bytes : Bytes) : Client × Bool :=
  match c.connections.lookup n with
  | some k =>
    if k.isReading then
      let (k, answers, written) := k.drain (bytes.chunks k.outbox.pipe)
      ((c.update n k).deliverAll answers, written)
    else (c, false)
  | none => (c, false)

/-- The peer writes no more. -/
def endInput (c : Client) (n : Nat) : Client :=
  match c.connections.lookup n with
  | some k => c.update n k.endInput
  | none => c

/-- The peer reads in another way from now on. -/
def setUptake (c : Client) (n : Nat) (u : Uptake) : Client :=
  match c.connections.lookup n with
  | some k => c.update n { k with outbox := k.outbox.take u }
  | none => c

/-- The lines that a peer has read, in order. -/
def linesRead (c : Client) (n : Nat) : List Text :=
  match c.connections.lookup n with
  | some k => k.outbox.delivered.reverse
  | none => []

/-- A result with its body decoded. -/
def typed {α : Type} (d : Json.Decoder α) : Attempt (Option Json) → Attempt (Option α)
  | .error e => .error e
  | .ok none => .ok none
  | .ok (some body) => ((d body).map some).mapError .ofDecode

end Client

end Refactor
