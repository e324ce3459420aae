import Refactor.Frame
import Refactor.Path
import Refactor.Wire.Inbound
import Refactor.Wire.Request

/-!
# Connections

One session over a pair of streams. Its core (`Dialog`) matches answers with
requests by number and keeps track of whether the project is loaded. Around it
stand the outgoing lines (`Outbox`) and the decoder of incoming bytes.

The writer takes one line at a time from a queue of bounded length. Senders that
find the queue full wait in line for room. A peer may be slow to read, so that
the writer is stuck in a line, and it may be gone, so that the next write fails
and the writer ends. Of a line that the writer was stuck in when it ended, the
peer can still read as much as the pipe between them holds.

Incoming bytes come through a pipe too. The peer fills it, and the reader empties
it, some bytes at a time, before the peer can go on.
-/

namespace Refactor

/-- The state that requests and messages share. Requests are known by tickets. -/
structure Dialog where
  running : Bool := true
  loaded : Bool := true
  nextSeq : Nat := 1
  /-- Requests without an answer, by their number. -/
  pending : List (Nat × Nat) := []
deriving DecidableEq, Repr

namespace Dialog

/-- Forgets a request. -/
def forget (d : Dialog) (seq : Nat) : Dialog :=
  { d with pending := d.pending.filter fun p => p.1 ≠ seq }

/-- Takes up the next number. -/
def allocate (d : Dialog) : Nat × Dialog := (d.nextSeq, { d with nextSeq := d.nextSeq + 1 })

/-- Registers a request under its number. -/
def register (d : Dialog) (seq ticket : Nat) : Dialog :=
  { d with pending := (seq, ticket) :: d.pending }

/-- Takes an answer: the ticket that it settles, if the request is still pending. -/
def answer (d : Dialog) (r : Response) : Dialog × Option Nat :=
  (d.forget r.requestSeq, d.pending.lookup r.requestSeq)

/-- Takes news. -/
def hear (d : Dialog) (e : Event) : Dialog :=
  match (ServerEvent.ofName e.name).loaded? with
  | some b => { d with loaded := b }
  | none => d

/-- Takes a message; one that does not decode is passed over. -/
def dispatch (d : Dialog) (message : Json) : Dialog × Option (Nat × Response) :=
  match Inbound.decode message with
  | .ok (.response r) =>
    match d.answer r with
    | (d, some ticket) => (d, some (ticket, r))
    | (d, none) => (d, none)
  | .ok (.event e) => (d.hear e, none)
  | .error _ => (d, none)

/-- Takes messages in order, with the answers that they deliver. -/
def dispatchAll : Dialog → List Json → Dialog × List (Nat × Response)
  | d, [] => (d, [])
  | d, m :: ms =>
    let (d, delivered) := d.dispatch m
    let (d, rest) := dispatchAll d ms
    (d, delivered.toList ++ rest)

end Dialog

/-! ## Outgoing lines -/

/-- How the peer takes what is written to it. -/
inductive Uptake where
  /-- It reads everything at once. -/
  | reading
  /-- It does not read for now. -/
  | stalled
  /-- It is gone. -/
  | closed
deriving DecidableEq, Repr

/-- A line and the ticket of its sender. -/
structure OutLine where
  ticket : Nat
  text : Text
  /-- Whether the line shows the server a file. -/
  opens : Bool := false
deriving DecidableEq, Repr

/-- The streams of a new connection. -/
structure Streams where
  uptake : Uptake := .reading
  /-- How many bytes each stream holds. -/
  pipe : Nat := 65536
deriving DecidableEq, Repr

/-- Lines on their way out. -/
structure Outbox where
  /-- Whether the writer is still there. -/
  isOpen : Bool := true
  uptake : Uptake := .reading
  /-- How many bytes the pipe to the peer holds. -/
  pipe : Nat := 65536
  /-- The line that the writer is stuck in. -/
  writing : Option OutLine := none
  queue : List OutLine := []
  /-- Lines whose senders wait for room. -/
  blocked : List OutLine := []
  /-- The start of a line that is left in the pipe without its writer. -/
  left : Option Text := none
  /-- Lines that the peer has read, the latest first. -/
  delivered : List Text := []
deriving DecidableEq, Repr

namespace Outbox

/-- The length of the queue. -/
def capacity : Nat := 256

/-- What became of a line that was handed in. -/
inductive Handed where
  | queued
  | blocked
  | refused
deriving DecidableEq, Repr

/-- Hands in a line. -/
def push (o : Outbox) (l : OutLine) : Outbox × Handed :=
  if !o.isOpen then (o, .refused)
  else if o.queue.length < capacity ∧ o.blocked = [] then ({ o with queue := o.queue ++ [l] }, .queued)
  else ({ o with blocked := o.blocked ++ [l] }, .blocked)

/-- The start of a line that a number of bytes hold. A character that they hold only in part counts
as a replacement character. -/
def firstBytes (size : Nat) (line : Text) : Text :=
  let t := Text.takeBytes size line
  if Text.byteSize t ≤ size then t else t.dropLast ++ ['\ufffd']

/-- The writer is gone: what it had is lost except for what is in the pipe to a peer that does not
read for now, and the waiting senders are turned away. -/
def shut (o : Outbox) : Outbox × List OutLine :=
  let left := if o.uptake = .stalled then o.writing.map fun l => firstBytes o.pipe l.text else o.left
  ({ o with isOpen := false, writing := none, queue := [], blocked := [], left := left }, o.blocked)

/-- The peer reads in another way from now on. What is left in the pipe is read at once, or lost
with the peer. -/
def take (o : Outbox) (u : Uptake) : Outbox :=
  match u with
  | .reading => { o with uptake := u, left := none, delivered := o.left.toList ++ o.delivered }
  | .stalled => { o with uptake := u }
  | .closed => { o with uptake := u, left := none }

/-- Moves lines of waiting senders into the queue as far as there is room. -/
def refill (o : Outbox) : Outbox × List OutLine :=
  let room := capacity - o.queue.length
  ({ o with queue := o.queue ++ o.blocked.take room, blocked := o.blocked.drop room },
    o.blocked.take room)

/-- What the writer got done. -/
structure Progress where
  outbox : Outbox
  /-- Lines that got room in the queue. -/
  admitted : List OutLine := []
  /-- Lines whose senders were turned away. -/
  refused : List OutLine := []
  /-- Whether a write failed. -/
  failed : Bool := false

/-- Lets the writer work until it has to wait. -/
def flush (o : Outbox) : Progress :=
  if !o.isOpen then { outbox := o }
  else
    match o.uptake with
    | .reading =>
      let lines := o.writing.toList ++ o.queue ++ o.blocked
      { outbox := { o with writing := none, queue := [], blocked := [],
                           delivered := (lines.map (·.text)).reverse ++ o.delivered }
        admitted := o.blocked }
    | .stalled =>
      match o.writing, o.queue with
      | none, l :: queue =>
        let (o, admitted) := ({ o with writing := some l, queue := queue }).refill
        { outbox := o, admitted := admitted }
      | _, _ => { outbox := o }
    | .closed =>
      if o.writing.isNone ∧ o.queue = [] then { outbox := o }
      else
        let (o, refused) := o.shut
        { outbox := o, refused := refused, failed := true }

end Outbox

/-! ## Connections -/

/-- One session over a pair of streams. -/
structure Connection where
  root : Path
  dialog : Dialog := {}
  outbox : Outbox := {}
  decoder : Frame.Decoder := {}
  /-- Whether incoming bytes are still read. -/
  isReading : Bool := true

namespace Connection

/-- How many bytes the reader takes from the pipe at a time. -/
def readSize : Nat := 8192

/-- Takes in the bytes of one read; the answers that they deliver. A reader that meets an overflow
ends, without the messages of that read. -/
def read (c : Connection) (bytes : Bytes) : Connection × List (Nat × Response) :=
  if !c.isReading then (c, [])
  else
    match c.decoder.push bytes with
    | some (messages, decoder) =>
      let (dialog, delivered) := c.dialog.dispatchAll messages
      ({ c with decoder := decoder, dialog := dialog }, delivered)
    | none => ({ c with isReading := false }, [])

/-- Takes in the bytes of several reads. -/
def readAll : Connection → List Bytes → Connection × List (Nat × Response)
  | c, [] => (c, [])
  | c, b :: bs =>
    let (c, delivered) := c.read b
    let (c, rest) := readAll c bs
    (c, delivered ++ rest)

/-- Takes in what the peer fills the pipe with, time after time, and answers whether the peer got
rid of everything. It cannot fill a pipe that nobody reads from. -/
def drain : Connection → List Bytes → Connection × List (Nat × Response) × Bool
  | c, [] => (c, [], true)
  | c, b :: bs =>
    if !c.isReading then (c, [], false)
    else
      let (c, delivered) := c.readAll (b.chunks readSize)
      let (c, rest, written) := drain c bs
      (c, delivered ++ rest, written)

/-- The end of incoming bytes. -/
def endInput (c : Connection) : Connection :=
  if c.isReading then { c with isReading := false, dialog := { c.dialog with running := false } }
  else c

/-- Ends both streams; the lines whose senders are turned away. Requests stay pending. -/
def shutdown (c : Connection) : Connection × List OutLine :=
  let (outbox, refused) := c.outbox.shut
  ({ c with outbox := outbox, isReading := false, dialog := { c.dialog with running := false } },
    refused)

end Connection

end Refactor
