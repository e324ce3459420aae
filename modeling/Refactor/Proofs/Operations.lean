import Refactor.Proofs.Moves

/-!
# What is done with a client, as moves

Everything that its users, its peers and time do to a client is a chain of moves. The chain
is written down for each operation, so that the history of the moves tells what the operations
asked and what the sessions took in.

* `Operation`, `Client.perform`: what is done with a client;
* `Client.moves`: its moves. A request is called, numbered and entered before its line is sent,
  and a session takes the messages one by one that some bytes complete;
* `Does`: the client that moves lead to, whatever else is going on;
* `does_perform`: the moves of an operation lead to what the operation does.
-/

namespace Refactor

namespace Connection

/-! ## Messages in bytes -/

/-- The messages that the bytes of one read complete. -/
def messagesOfRead (k : Connection) (bytes : Bytes) : List Json :=
  if !k.isReading then []
  else
    match k.decoder.push bytes with
    | some (messages, _) => messages
    | none => []

/-- The messages that the bytes of several reads complete. -/
def messagesOfReads : Connection → List Bytes → List Json
  | _, [] => []
  | k, b :: bs => k.messagesOfRead b ++ messagesOfReads (k.read b).1 bs

/-- The messages that are completed by what the peer fills the pipe with. -/
def messages : Connection → List Bytes → List Json
  | _, [] => []
  | k, b :: bs =>
    if !k.isReading then []
    else k.messagesOfReads (b.chunks readSize) ++ messages (k.readAll (b.chunks readSize)).1 bs

end Connection

theorem Dialog.dispatchAll_append (d : Dialog) (ms ms' : List Json) :
    d.dispatchAll (ms ++ ms') =
      (((d.dispatchAll ms).1.dispatchAll ms').1, (d.dispatchAll ms).2 ++ ((d.dispatchAll ms).1.dispatchAll ms').2) := by
  induction ms generalizing d with
  | nil => rfl
  | cons m ms ih =>
    rw [List.cons_append, dispatchAll, dispatchAll]
    dsimp only
    rw [ih, List.append_assoc]

namespace Connection

variable (k : Connection)

theorem dispatchAll_messagesOfRead (bytes : Bytes) :
    k.dialog.dispatchAll (k.messagesOfRead bytes) = ((k.read bytes).1.dialog, (k.read bytes).2) := by
  rw [messagesOfRead, read]
  split
  · rfl
  · cases k.decoder.push bytes <;> rfl

theorem dispatchAll_messagesOfReads (reads : List Bytes) :
    k.dialog.dispatchAll (k.messagesOfReads reads) = ((k.readAll reads).1.dialog, (k.readAll reads).2) := by
  induction reads generalizing k with
  | nil => rfl
  | cons b reads ih =>
    rw [messagesOfReads, Dialog.dispatchAll_append, dispatchAll_messagesOfRead, ih]
    rfl

/-- Bytes do what their messages do. -/
theorem dispatchAll_messages (fills : List Bytes) :
    k.dialog.dispatchAll (k.messages fills) = ((k.drain fills).1.dialog, (k.drain fills).2.1) := by
  induction fills generalizing k with
  | nil => rfl
  | cons b fills ih =>
    rw [messages, drain]
    split
    · rfl
    · rw [Dialog.dispatchAll_append, dispatchAll_messagesOfReads, ih]

end Connection

/-! ## Operations -/

/-- What is done with a client. -/
inductive Operation where
  | issue (isRequest : Bool) (command : String) (arguments : Option Json)
  | start (root : Path) (launch : Attempt Streams)
  | stop
  | restart (launch : Path → Attempt Streams)
  | openFile (files : FileTree) (path : Path)
  /-- The writer works. -/
  | flush
  /-- The peer of a session writes. -/
  | receive (n : Nat) (bytes : Bytes)
  | endInput (n : Nat)
  | setUptake (n : Nat) (u : Uptake)
  | advance (ms : Nat)

namespace Client

def perform (c : Client) : Operation → Client
  | .issue isRequest command arguments => (c.issue isRequest command arguments).2
  | .start root launch => (c.start root launch).1
  | .stop => c.stop
  | .restart launch => (c.restart launch).1
  | .openFile files path => (c.openFile files path).1
  | .flush => c.flush
  | .receive n bytes => (c.receive n bytes).1
  | .endInput n => c.endInput n
  | .setUptake n u => c.setUptake n u
  | .advance ms => c.advance ms

open Traffic

/-! The moves of each operation -/

def movesOfAccept (n : Nat) (l : OutLine) : List Move := .enqueue l.ticket :: if l.opens then [.load n] else []

def movesOfIssue (c : Client) (isRequest : Bool) (command : String) (arguments : Option Json) (opens : Bool := false) :
    List Move :=
  .call isRequest command ::
    match c.active? with
    | none => []
    | some (n, k) =>
      if !k.dialog.running then [.refuse c.nextTicket]
      else
        let line := ⟨c.nextTicket, (Request.mk k.dialog.allocate.1 command arguments).text, opens⟩
        let (outbox, handed) := k.outbox.push line
        [.number c.nextTicket, .enter c.nextTicket, .tend n { k with outbox := outbox }] ++
          match handed with
          | .queued => movesOfAccept n line
          | .blocked => []
          | .refused => [.fail c.nextTicket]

def movesOfFlush (c : Client) : List Move :=
  match c.active? with
  | none => []
  | some (n, k) =>
    let p := k.outbox.flush
    let dialog := if p.failed then { k.dialog with running := false } else k.dialog
    [.tend n { k with outbox := p.outbox, dialog := dialog }] ++ p.admitted.flatMap (movesOfAccept n) ++
      p.refused.map (.fail ·.ticket)

def movesOfStop (c : Client) : List Move :=
  match c.active? with
  | none => [.disconnect]
  | some (n, k) => [.tend n k.shutdown.1, .disconnect] ++ k.shutdown.2.map (.fail ·.ticket)

def movesOfInstall (c : Client) (root : Path) (streams : Streams) : List Move :=
  [.connect root streams] ++
    (c.connect root streams).movesOfIssue true "configure" (some (configuration c.settings))

def movesOfStart (c : Client) (root : Path) (launch : Attempt Streams) : List Move :=
  if c.isRunning then []
  else
    c.movesOfStop ++
      match launch with
      | .error _ => []
      | .ok streams => c.stop.movesOfInstall root streams

def movesOfRestart (c : Client) (launch : Path → Attempt Streams) : List Move :=
  match c.root? with
  | none => []
  | some root => c.movesOfStop ++ c.stop.movesOfStart root (launch root)

def movesOfOpenFile (c : Client) (files : FileTree) (path : Path) : List Move :=
  match files.readText path with
  | .error _ => []
  | .ok content =>
    match c.active? with
    | none => []
    | some (_, k) =>
      let arguments := .ofMembers [("file", .str (wirePath path)), ("fileContent", .str content),
        ("projectRootPath", .str (wirePath k.root))]
      c.movesOfIssue false "open" (some arguments) true

def movesOfReceive (c : Client) (n : Nat) (bytes : Bytes) : List Move :=
  match c.connections.lookup n with
  | some k =>
    let fills := bytes.chunks k.outbox.pipe
    if k.isReading then (k.messages fills).map (.hear n) ++ [.tend n (k.drain fills).1] else []
  | none => []

def movesOfAdvance (c : Client) (ms : Nat) : List Move :=
  let c := { c with clock := c.clock + ms }
  [.tick ms] ++ (c.tickets.filter c.isOver).map (.timeOut ·.id)

/-- The moves of an operation. -/
def moves (c : Client) : Operation → List Move
  | .issue isRequest command arguments => c.movesOfIssue isRequest command arguments
  | .start root launch => c.movesOfStart root launch
  | .stop => c.movesOfStop
  | .restart launch => c.movesOfRestart launch
  | .openFile files path => c.movesOfOpenFile files path
  | .flush => c.movesOfFlush
  | .receive n bytes => c.movesOfReceive n bytes
  | .endInput n => ((c.connections.lookup n).map fun k => .tend n k.endInput).toList
  | .setUptake n u => ((c.connections.lookup n).map fun k => .tend n { k with outbox := k.outbox.take u }).toList
  | .advance ms => c.movesOfAdvance ms

end Client

/-! ## What sessions do to the client -/

namespace Client

variable {c : Client} {n : Nat} {k : Connection}

theorem dialog?_of_lookup (h : c.connections.lookup n = some k) : c.dialog? n = some k.dialog := by
  rw [dialog?, h, Option.map_some]

theorem dialog?_of_active (h : c.active? = some (n, k)) : c.dialog? n = some k.dialog := by
  rw [active?] at h
  split at h
  · rename_i m hm
    rw [Option.map_eq_some_iff] at h
    obtain ⟨k', hk', he⟩ := h
    cases he
    exact dialog?_of_lookup hk'
  · cases h

theorem tend_of_dialog {d : Dialog} (hd : c.dialog? n = some d) (k : Connection) :
    c.tend n k = c.update n { k with dialog := { k.dialog with nextSeq := d.nextSeq, pending := d.pending } } := by
  rw [tend, hd]

theorem tend_tickets (c : Client) (ts : List Ticket) (n : Nat) (k : Connection) :
    ({ c with tickets := ts } : Client).tend n k = { c.tend n k with tickets := ts } := by
  simp only [tend, dialog?]
  split <;> rfl

theorem update_updateDialog (c : Client) (n : Nat) (f : Dialog → Dialog) (k : Connection) :
    (c.updateDialog n f).update n k = c.update n k := by
  rw [update, update, updateDialog]
  congr 1
  rw [List.map_map]
  refine List.map_congr_left fun e _ => ?_
  rw [Function.comp_apply]
  split <;> simp_all

/-! Answers are delivered whatever becomes of the sessions. -/

theorem deliver_connections (c : Client) (l : List (Nat × Connection)) (ticket : Nat) (r : Response) :
    ({ c with connections := l } : Client).deliver ticket r = { c.deliver ticket r with connections := l } := by
  simp only [deliver]
  split
  · split <;> rfl
  · rfl

theorem deliverAll_connections (c : Client) (l : List (Nat × Connection)) (answers : List (Nat × Response)) :
    ({ c with connections := l } : Client).deliverAll answers = { c.deliverAll answers with connections := l } := by
  induction answers generalizing c with
  | nil => rfl
  | cons a answers ih =>
    show (({ c with connections := l } : Client).deliver a.1 a.2).deliverAll answers = _
    rw [deliver_connections, ih]
    rfl

theorem connections_deliverAll (c : Client) (answers : List (Nat × Response)) :
    (c.deliverAll answers).connections = c.connections := by
  have hconnections := congrArg Client.connections (deliverAll_connections c c.connections answers)
  exact hconnections

theorem deliverAll_append (c : Client) (answers more : List (Nat × Response)) :
    c.deliverAll (answers ++ more) = (c.deliverAll answers).deliverAll more :=
  List.foldl_append

theorem update_deliverAll (c : Client) (n : Nat) (k : Connection) (answers : List (Nat × Response)) :
    (c.deliverAll answers).update n k = (c.update n k).deliverAll answers := by
  rw [update, connections_deliverAll]
  exact (deliverAll_connections c _ answers).symm

theorem dialog?_hear {d : Dialog} (hd : c.dialog? n = some d) (message : Json) :
    (c.hear n message).dialog? n = some (d.dispatch message).1 := by
  rw [hear, hd, dialog?, connections_deliverAll]
  show (c.updateDialog n _).dialog? n = _
  rw [dialog?_updateDialog, if_pos rfl, hd, Option.map_some]

theorem update_hear {d : Dialog} (hd : c.dialog? n = some d) (message : Json) :
    (c.hear n message).update n k = (c.update n k).deliverAll (d.dispatch message).2.toList := by
  rw [hear, hd, update_deliverAll, update_updateDialog]

/-- A session takes messages, one after the other. -/
theorem hearAll {d : Dialog} (hd : c.dialog? n = some d) (messages : List Json) :
    (messages.foldl (·.hear n ·) c).dialog? n = some (d.dispatchAll messages).1 ∧
      (messages.foldl (·.hear n ·) c).update n k = (c.update n k).deliverAll (d.dispatchAll messages).2 := by
  induction messages generalizing c d with
  | nil => exact ⟨hd, rfl⟩
  | cons m messages ih =>
    obtain ⟨hdialog, hupdate⟩ := ih (dialog?_hear hd m)
    refine ⟨hdialog, ?_⟩
    rw [List.foldl_cons, hupdate, update_hear hd, ← deliverAll_append]
    rfl

end Client

namespace Traffic

/-! ## Chains of moves -/

/-- The client that moves lead to, whatever the calls on their way and the history. -/
def Does (c : Client) (moves : List Move) (c' : Client) : Prop :=
  ∀ s : Traffic, Sound s → s.client = c → (s.run moves).client = c'

variable {c c' c'' : Client} {n : Nat} {k : Connection} {ms ms' : List Move}

namespace Does

theorem nil : Does c [] c := fun _ _ h => h

theorem move {m : Move} (h : ∀ s : Traffic, s.client = c → (s.move m).client = c') : Does c [m] c' := fun s _ hs => h s hs

theorem append (h : Does c ms c') (h' : Does c' ms' c'') : Does c (ms ++ ms') c'' := fun s hsound hs => by
  rw [run_append]
  exact h' _ (hsound.run ms) (h s hsound hs)

/-- What is done for each of several things is done by some moves for each. -/
theorem flatMap {α : Type} {f : Client → α → Client} {g : α → List Move} (hg : ∀ c a, Does c (g a) (f c a))
    (l : List α) : Does c (l.flatMap g) (l.foldl f c) := by
  induction l generalizing c with
  | nil => exact nil
  | cons a l ih =>
    rw [List.flatMap_cons]
    exact (hg c a).append ih

/-- What is done for each of several things is done by a move for each. -/
theorem map {α : Type} {f : Client → α → Client} {g : α → Move}
    (hg : ∀ (s : Traffic) a, (s.move (g a)).client = f s.client a) (l : List α) : Does c (l.map g) (l.foldl f c) := by
  rw [List.map_eq_flatMap]
  exact flatMap (fun c a => move fun s hs => hs ▸ hg s a) l

theorem tend {d : Dialog} (hd : c.dialog? n = some d) (hseq : k.dialog.nextSeq = d.nextSeq)
    (hpending : k.dialog.pending = d.pending) : Does c [.tend n k] (c.update n k) :=
  move fun _ hs => by
    subst hs
    refine (Client.tend_of_dialog hd k).trans ?_
    rw [← hseq, ← hpending]

end Does

theorem does_fail (ls : List OutLine) :
    Does c (ls.map (.fail ·.ticket)) (ls.foldl (fun c l => c.turnedAway l.ticket) c) :=
  Does.map (fun _ _ => rfl) ls

theorem does_accept (n : Nat) (c : Client) (l : OutLine) : Does c (Client.movesOfAccept n l) (c.accept n l) := by
  have henqueue : Does c [.enqueue l.ticket] (c.enqueued l.ticket) := .move fun _ hs => hs ▸ rfl
  rw [Client.movesOfAccept, Client.accept]
  split
  · exact henqueue.append (.move fun _ hs => hs ▸ rfl)
  · exact henqueue

theorem does_flush (c : Client) : Does c c.movesOfFlush c.flush := by
  rw [Client.movesOfFlush, Client.flush]
  cases hactive : c.active? with
  | none => exact .nil
  | some e =>
    refine ((Does.tend (Client.dialog?_of_active hactive) ?_ ?_).append (Does.flatMap (does_accept e.1) _)).append
        (does_fail _) <;>
    · dsimp only
      split <;> rfl

theorem does_stop (c : Client) : Does c c.movesOfStop c.stop := by
  rw [Client.movesOfStop, Client.stop]
  cases hactive : c.active? with
  | none => exact .move fun _ hs => hs ▸ rfl
  | some e =>
    have hshut : Does c [.tend e.1 e.2.shutdown.1] (c.update e.1 e.2.shutdown.1) :=
      .tend (Client.dialog?_of_active hactive) rfl rfl
    exact (hshut.append (.move fun _ hs => hs ▸ rfl)).append (does_fail _)

theorem does_endInput (c : Client) (n : Nat) : Does c (c.moves (.endInput n)) (c.endInput n) := by
  rw [Client.moves, Client.endInput]
  cases hk : c.connections.lookup n with
  | none => exact .nil
  | some k =>
    refine .tend (Client.dialog?_of_lookup hk) ?_ ?_ <;>
    · rw [Connection.endInput]
      split <;> rfl

theorem does_setUptake (c : Client) (n : Nat) (u : Uptake) : Does c (c.moves (.setUptake n u)) (c.setUptake n u) := by
  rw [Client.moves, Client.setUptake]
  cases hk : c.connections.lookup n with
  | none => exact .nil
  | some k => exact .tend (Client.dialog?_of_lookup hk) rfl rfl

theorem client_hear (s : Traffic) (n : Nat) (message : Json) : (s.hear n message).client = s.client.hear n message := by
  rw [hear]
  split
  · rfl
  · rename_i hd
    rw [Client.hear, hd]

/-! ## Calls -/

section

variable {s : Traffic} {a : Call} {id : Nat}

theorem call_of_active {isRequest : Bool} {command : String} (h : s.client.active? = some (n, k)) :
    s.call isRequest command =
      ⟨{ s.client with nextTicket := s.client.nextTicket + 1 },
        ⟨s.client.nextTicket, n, command, isRequest, none⟩ :: s.calls, .called s.client.nextTicket isRequest :: s.history⟩ := by
  have hactive : ({ s.client with nextTicket := s.client.nextTicket + 1 } : Client).active? = some (n, k) := h
  simp only [call, hactive]

theorem refuse_of_find (h : s.calls.find? (·.id == id) = some a) (hseq : a.seq = none) :
    (s.refuse id).client = s.client.settle id (.error .notRunning) := by
  simp only [refuse, h, hseq, if_true]

theorem number_of_find {d : Dialog} (h : s.calls.find? (·.id == id) = some a) (hseq : a.seq = none)
    (hd : s.client.dialog? a.connection = some d) :
    s.number id =
      { client := s.client.updateDialog a.connection fun d => d.allocate.2
        calls := s.calls.map (Call.given id d.nextSeq)
        history := .numbered a.connection d.nextSeq id :: s.history } := by
  simp only [number, h, hseq, hd]
  rfl

theorem enter_of_find {seq : Nat} {d : Dialog} (h : s.calls.find? (·.id == id) = some a) (hseq : a.seq = some seq)
    (hd : s.client.dialog? a.connection = some d) :
    (s.enter id).client =
      let c := if a.isRequest then s.client.updateDialog a.connection (·.register seq id) else s.client
      { c with tickets := c.tickets ++ [⟨id, a.connection, seq, a.command, a.isRequest, none, none⟩] } := by
  simp only [enter, h, hseq, hd]

/-- The latest call goes all the way to its ticket. -/
theorem tend_enter_number {rest : List Call} (hcalls : s.calls = a :: rest) (hseq : a.seq = none)
    (hd : s.client.dialog? a.connection = some k.dialog) :
    ((s.number a.id).enter a.id).client.tend a.connection k =
      { s.client.update a.connection
          { k with
            dialog := if a.isRequest then k.dialog.allocate.2.register k.dialog.nextSeq a.id else k.dialog.allocate.2 } with
        tickets := s.client.tickets ++
          [⟨a.id, a.connection, k.dialog.nextSeq, a.command, a.isRequest, none, none⟩] } := by
  have hfind : s.calls.find? (·.id == a.id) = some a := by
    rw [hcalls]
    exact List.find?_cons_of_pos BEq.rfl
  have hnumber := number_of_find hfind hseq hd
  have hfind' : (s.number a.id).calls.find? (·.id == a.id) = some { a with seq := some k.dialog.nextSeq } := by
    rw [hnumber, hcalls, List.map_cons, Call.given, if_pos rfl]
    exact List.find?_cons_of_pos BEq.rfl
  have hd' : (s.number a.id).client.dialog? a.connection = some k.dialog.allocate.2 := by simp [hnumber, hd]
  rw [enter_of_find hfind' rfl hd', hnumber]
  let numbered := s.client.updateDialog a.connection fun d => d.allocate.2
  let t : Ticket := ⟨a.id, a.connection, k.dialog.nextSeq, a.command, a.isRequest, none, none⟩
  -- The session is replaced in the end, so that only its numbers and pending requests matter until then.
  by_cases hreq : a.isRequest = true
  · rw [if_pos hreq, if_pos hreq]
    let registered := numbered.updateDialog a.connection (·.register k.dialog.nextSeq a.id)
    have hdialog : registered.dialog? a.connection = some (k.dialog.allocate.2.register k.dialog.nextSeq a.id) := by
      simp [registered, numbered, hd]
    show ({ registered with tickets := s.client.tickets ++ [t] } : Client).tend a.connection k = _
    rw [Client.tend_tickets, Client.tend_of_dialog hdialog, Client.update_updateDialog, Client.update_updateDialog]
    rfl
  · rw [if_neg hreq, if_neg hreq]
    have hdialog : numbered.dialog? a.connection = some k.dialog.allocate.2 := by simp [numbered, hd]
    show ({ numbered with tickets := s.client.tickets ++ [t] } : Client).tend a.connection k = _
    rw [Client.tend_tickets, Client.tend_of_dialog hdialog, Client.update_updateDialog]
    rfl

/-- A call of a session gets its ticket. -/
theorem client_ticketed {isRequest : Bool} {command : String} (hactive : s.client.active? = some (n, k)) (outbox : Outbox) :
    (s.run [.call isRequest command, .number s.client.nextTicket, .enter s.client.nextTicket,
        .tend n { k with outbox := outbox }]).client =
      { s.client.update n
          { k with
            dialog := if isRequest then k.dialog.allocate.2.register k.dialog.nextSeq s.client.nextTicket
              else k.dialog.allocate.2
            outbox := outbox } with
        tickets := s.client.tickets ++ [⟨s.client.nextTicket, n, k.dialog.nextSeq, command, isRequest, none, none⟩]
        nextTicket := s.client.nextTicket + 1 } := by
  have hcalls := congrArg calls (@call_of_active n k s isRequest command hactive)
  have hclient := congrArg client (@call_of_active n k s isRequest command hactive)
  have hd : (s.call isRequest command).client.dialog? n = some k.dialog := by
    rw [hclient]
    exact Client.dialog?_of_active hactive
  refine (@tend_enter_number { k with outbox := outbox } _ _ _ hcalls rfl hd).trans ?_
  rw [hclient]
  rfl

end

theorem does_issue (c : Client) (isRequest : Bool) (command : String) (arguments : Option Json) (opens : Bool) :
    Does c (c.movesOfIssue isRequest command arguments opens) (c.issue isRequest command arguments opens).2 := by
  rintro s hs rfl
  have hactive : ({ s.client with nextTicket := s.client.nextTicket + 1 } : Client).active? = s.client.active? := rfl
  rw [Client.movesOfIssue, Client.issue]
  dsimp only
  rw [hactive]
  cases he : s.client.active? with
  | none =>
    show (s.call isRequest command).client = _
    simp only [call, hactive, he]
  | some e =>
    dsimp only
    split
    · show ((s.call isRequest command).refuse _).client = _
      rw [call_of_active he]
      exact refuse_of_find (List.find?_cons_of_pos BEq.rfl) rfl
    · -- The ticket is there before the line is handed in.
      cases (e.2.outbox.push
        ⟨s.client.nextTicket, (Request.mk e.2.dialog.allocate.1 command arguments).text, opens⟩).2 with
      | queued => exact does_accept _ _ _ _ ((((hs.move _).move _).move _).move _) (client_ticketed he _)
      | blocked => exact client_ticketed he _
      | refused => exact congrArg (·.turnedAway s.client.nextTicket) (client_ticketed he _)

/-! ## Sessions -/

theorem does_install (c : Client) (root : Path) (streams : Streams) :
    Does c (c.movesOfInstall root streams) (c.install root streams) := by
  have hconnect : Does c [.connect root streams] (c.connect root streams) := .move fun _ hs => hs ▸ rfl
  exact hconnect.append (does_issue _ _ _ _ _)

theorem does_start (c : Client) (root : Path) (launch : Attempt Streams) :
    Does c (c.movesOfStart root launch) (c.start root launch).1 := by
  unfold Client.movesOfStart Client.start
  split
  · exact .nil
  · cases launch with
    | error e => exact (does_stop c).append .nil
    | ok streams => exact (does_stop c).append (does_install _ _ _)

theorem does_restart (c : Client) (launch : Path → Attempt Streams) :
    Does c (c.movesOfRestart launch) (c.restart launch).1 := by
  rw [Client.movesOfRestart, Client.restart]
  cases c.root? with
  | none => exact .nil
  | some root => exact (does_stop c).append (does_start _ _ _)

theorem does_openFile (c : Client) (files : FileTree) (path : Path) :
    Does c (c.movesOfOpenFile files path) (c.openFile files path).1 := by
  rw [Client.movesOfOpenFile, Client.openFile]
  cases files.readText path with
  | error e => exact .nil
  | ok content =>
    cases c.active? with
    | none => exact .nil
    | some e =>
      dsimp only
      generalize Json.ofMembers _ = arguments
      have hissue := does_issue c false "open" (some arguments) true
      split <;> exact hissue

/-! ## Peers and time -/

theorem does_receive (c : Client) (n : Nat) (bytes : Bytes) : Does c (c.movesOfReceive n bytes) (c.receive n bytes).1 := by
  rw [Client.movesOfReceive, Client.receive]
  cases hk : c.connections.lookup n with
  | none => exact .nil
  | some k =>
    dsimp only
    split
    case isFalse => exact .nil
    generalize bytes.chunks k.outbox.pipe = fills
    have hheard : Does c ((k.messages fills).map (.hear n)) ((k.messages fills).foldl (fun c m => c.hear n m) c) :=
      .map (f := fun c m => c.hear n m) (g := .hear n) (fun s m => s.client_hear n m) _
    obtain ⟨hdialog, hupdate⟩ := @Client.hearAll c n (k.drain fills).1 _ (Client.dialog?_of_lookup hk) (k.messages fills)
    rw [Connection.dispatchAll_messages] at hdialog hupdate
    rw [← hupdate]
    exact hheard.append (.tend hdialog rfl rfl)

/-- The time of several requests is over. -/
theorem does_expire {s : Traffic} (hs : Sound s) (ts : List Ticket) (hmem : ∀ t ∈ ts, t ∈ s.client.tickets)
    (hids : (ts.map (·.id)).Nodup) :
    (s.run (ts.map (.timeOut ·.id))).client =
      ts.foldl (fun c t => (c.updateDialog t.connection (·.forget t.seq)).settle t.id
        (.error (.timeout t.command c.settings.requestTimeoutMs))) s.client := by
  induction ts generalizing s with
  | nil => rfl
  | cons t ts ih =>
    rw [List.map_cons, List.nodup_cons] at hids
    have hclient : (s.move (.timeOut t.id)).client = (s.client.updateDialog t.connection (·.forget t.seq)).settle t.id
        (.error (.timeout t.command s.client.settings.requestTimeoutMs)) := by
      show s.client.timeOut t.id = _
      rw [Client.timeOut, hs.find_ticket (hmem t List.mem_cons_self)]
    rw [List.foldl_cons, ← hclient]
    refine ih (hs.move _) (fun u hu => ?_) hids.2
    -- The other tickets have other ids, so that they are still there.
    rw [hclient]
    have hne : u.id ≠ t.id := fun he => hids.1 (he ▸ List.mem_map_of_mem hu)
    exact List.mem_filter.mpr ⟨hmem u (.tail _ hu), decide_eq_true hne⟩

theorem does_advance (c : Client) (ms : Nat) : Does c (c.movesOfAdvance ms) (c.advance ms) := by
  rintro s hs rfl
  have hticked := hs.move (.tick ms)
  refine does_expire hticked _ (fun t ht => List.mem_of_mem_filter ht) ?_
  exact hticked.nodup_ids.of_append_right.of_append_left.sublist (List.filter_sublist.map _)

/-- The moves of an operation lead to what the operation does. -/
theorem does_perform (c : Client) (o : Operation) : Does c (c.moves o) (c.perform o) := by
  cases o with
  | issue isRequest command arguments => exact does_issue c isRequest command arguments false
  | start root launch => exact does_start c root launch
  | stop => exact does_stop c
  | restart launch => exact does_restart c launch
  | openFile files path => exact does_openFile c files path
  | flush => exact does_flush c
  | receive n bytes => exact does_receive c n bytes
  | endInput n => exact does_endInput c n
  | setUptake n u => exact does_setUptake c n u
  | advance ms => exact does_advance c ms

end Traffic

end Refactor
