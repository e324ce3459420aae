import Refactor.Client.Basic
import Refactor.Json.Writer
import Refactor.Session.Basic

/-!
# A client and its peer

A peer that answers each request of a client from a list of replies prepared for
its command. The two together are a session: requests travel as lines, replies
as framed messages, and time passes only while everything waits.
-/

namespace Refactor

/-- What the peer does about a request. -/
structure Reply where
  /-- News to send before anything else. -/
  events : List String := []
  /-- The peer goes away. -/
  closes : Bool := false
  /-- There is no answer. -/
  silent : Bool := false
  success : Bool := true
  message : Option String := none
  body : Option Json := none

/-- A client and the peer of its connection in use. -/
structure Exchange where
  client : Client
  /-- Replies by command, as each connection finds them at its start. -/
  prepared : List (String × List Reply)
  /-- Replies by command from now on. -/
  replies : List (String × List Reply)
  /-- How many lines of the connection in use the peer has dealt with. -/
  seen : Nat := 0
  /-- Whether the peer is gone. -/
  gone : Bool := false
  /-- Requests that the peer has read, the latest first. -/
  requests : List Json := []

namespace Exchange

/-- The message that tells news. -/
def eventMessage (name : String) : Json :=
  .ofMembers [("seq", .nat 0), ("type", .str "event"), ("event", .str name)]

/-- The message that answers a request. -/
def responseMessage (seq : Nat) (r : Reply) : Json :=
  .ofMembers ([("seq", .nat 0), ("type", .str "response"), ("request_seq", .nat seq),
    ("success", .bool r.success)] ++ (r.message.toList.map fun m => ("message", .str m)) ++
    (r.body.toList.map fun b => ("body", b)))

/-- The next reply to a command; the last one is given again and again. -/
def nextReply (command : String) : List (String × List Reply) →
    Option Reply × List (String × List Reply)
  | [] => (none, [])
  | (k, rs) :: rest =>
    if k = command then
      match rs with
      | [] => (none, (k, []) :: rest)
      | [r] => (some r, (k, [r]) :: rest)
      | r :: rs => (some r, (k, rs) :: rest)
    else
      let (r, rest) := nextReply command rest
      (r, (k, rs) :: rest)

/-- Sends messages to the client. -/
def send (c : Client) (n : Nat) (messages : List Json) : Client :=
  messages.foldl (fun c m => (c.receive n (Frame.encode (m.compact ++ "\n"))).1) c

/-- The peer deals with one line. -/
def serve (n : Nat) (x : Exchange) (line : Text) : Exchange :=
  if x.gone then x
  else
    match Json.parse? line with
    | none => x
    | some request =>
      let x := { x with requests := request :: x.requests }
      match request.field? "command", request.field? "seq" with
      | some (.str command), some (.num (.int seq)) =>
        let (reply, replies) := nextReply command x.replies
        let x := { x with replies := replies }
        match reply with
        | none => x
        | some r =>
          if r.closes then
            { x with client := (x.client.endInput n).setUptake n .closed, gone := true }
          else
            let messages := r.events.map eventMessage ++
              if r.silent then [] else [responseMessage seq.toNat r]
            { x with client := send x.client n messages }
      | _, _ => x

/-- Lets client and peer work until both wait. -/
def settle (x : Exchange) : Exchange :=
  let x := { x with client := x.client.flush }
  match x.client.current with
  | none => { x with client := x.client.expire }
  | some n =>
    let lines := x.client.linesRead n
    let x := (lines.drop x.seen).foldl (serve n) { x with seen := lines.length }
    { x with client := x.client.expire }

/-- Lets time pass. -/
def wait (x : Exchange) (ms : Nat) : Exchange :=
  let x := x.settle
  ({ x with client := x.client.advance ms }).settle

/-- Asks and waits for the answer, or for the end of its time. -/
def request (x : Exchange) (command : String) (arguments : Option Json) :
    Attempt (Option Json) × Exchange :=
  let (ticket, client) := x.client.issue true command arguments
  let x := ({ x with client := client }).settle
  match x.client.outcome? ticket with
  | some r => (r, x)
  | none =>
    let x := x.wait x.client.settings.requestTimeoutMs.toNat
    ((x.client.outcome? ticket).getD (.error (.sessionClosed command)), x)

/-- Shows the server a file. Reading it leaves client and peer time to work. -/
def openFile (x : Exchange) (files : FileTree) (path : Path) : Attempt Unit × Exchange :=
  let x := x.settle
  let (client, r) := x.client.openFile files path
  (r, { x with client := client })

/-- The session that client and peer make, when new servers are launched by `launch`. -/
def session (launch : Path → Attempt Streams) : Session Exchange where
  isRunning x := (x.client.isRunning, x)
  isLoaded x := (x.client.isLoaded, x)
  start root x :=
    let (client, r) := x.client.start root (launch root)
    (r, { x with client := client, seen := 0, gone := true })
  request command arguments x := x.request command arguments
  openFile files path x := x.openFile files path
  sleep ms x := ((), x.wait (min ms longestSleep))
  now x := x.client.clock
  looks _ := 0

end Exchange

end Refactor
