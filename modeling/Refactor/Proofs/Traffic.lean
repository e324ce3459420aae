import Refactor.Client.Basic

/-!
# The moves of a client

Requests, answers, timeouts and the coming and going of sessions meet in any order.
What each of them does at once is a move: a call gets a number before it is entered
among the pending ones, and only then its line is sent, so that other moves can come
between. A move can come at any time, whether or not its time has come.

* `Move`, `Traffic.move`: the moves, and what they leave in the history;
* `dialog?_update`, `dialog?_updateDialog`: sessions by their numbers.
-/

namespace Refactor

namespace Client

variable {c : Client} {n m : Nat}

/-- The dialog of a session. -/
def dialog? (c : Client) (n : Nat) : Option Dialog := (c.connections.lookup n).map (·.dialog)

/-- Takes a new connection into use. -/
def connect (c : Client) (root : Path) (streams : Streams) : Client :=
  { c with
    connections := (c.nextConnection, { root := root, outbox := { uptake := streams.uptake, pipe := streams.pipe } }) ::
      c.connections
    current := some c.nextConnection
    nextConnection := c.nextConnection + 1 }

/-- Takes one message of a session. -/
def hear (c : Client) (n : Nat) (message : Json) : Client :=
  match c.dialog? n with
  | some d => (c.updateDialog n fun d => (d.dispatch message).1).deliverAll (d.dispatch message).2.toList
  | none => c

/-- Whatever becomes of a session but for its numbers and its pending requests. -/
def tend (c : Client) (n : Nat) (k : Connection) : Client :=
  match c.dialog? n with
  | some d => c.update n { k with dialog := { k.dialog with nextSeq := d.nextSeq, pending := d.pending } }
  | none => c

/-- Gives up waiting for an answer. -/
def timeOut (c : Client) (ticket : Nat) : Client :=
  match c.tickets.find? (·.id == ticket) with
  | some t =>
    (c.updateDialog t.connection (·.forget t.seq)).settle ticket
      (.error (.timeout t.command c.settings.requestTimeoutMs))
  | none => c

/-! ## Sessions by number -/

theorem lookup_map_if {β : Type} (l : List (Nat × β)) (n m : Nat) (g : β → β) :
    (l.map fun e => if e.1 = n then (n, g e.2) else e).lookup m =
      if m = n then (l.lookup n).map g else l.lookup m := by
  induction l with
  | nil => simp
  | cons e l ih =>
    obtain ⟨i, x⟩ := e
    rw [List.map_cons]
    by_cases hi : i = n
    · rw [if_pos hi, List.lookup_cons, ih]
      by_cases hm : m = n
      · simp [hi, hm]
      · simp [hi, hm, List.lookup_cons, beq_eq_false_iff_ne.mpr hm]
    · rw [if_neg hi, List.lookup_cons, ih]
      by_cases hm : m = n
      · simp [hm, List.lookup_cons, beq_eq_false_iff_ne.mpr (Ne.symm hi)]
      · simp [hm, List.lookup_cons]

@[simp] theorem dialog?_update (c : Client) (n : Nat) (k : Connection) (m : Nat) :
    (c.update n k).dialog? m = if m = n then (c.dialog? n).map fun _ => k.dialog else c.dialog? m := by
  rw [dialog?, update, lookup_map_if c.connections n m fun _ => k]
  split
  · rw [dialog?, Option.map_map, Option.map_map]
    rfl
  · rfl

@[simp] theorem dialog?_updateDialog (c : Client) (n : Nat) (f : Dialog → Dialog) (m : Nat) :
    (c.updateDialog n f).dialog? m = if m = n then (c.dialog? n).map f else c.dialog? m := by
  rw [dialog?, updateDialog, lookup_map_if c.connections n m fun k => { k with dialog := f k.dialog }]
  split
  · rw [dialog?, Option.map_map, Option.map_map]
    rfl
  · rfl

/-- The numbers of all sessions, the latest first. -/
def keys (c : Client) : List Nat := c.connections.map (·.1)

@[simp] theorem keys_update (c : Client) (n : Nat) (k : Connection) : (c.update n k).keys = c.keys := by
  rw [keys, update, List.map_map, keys]
  refine List.map_congr_left fun e _ => ?_
  by_cases he : e.1 = n <;> simp [he]

@[simp] theorem keys_updateDialog (c : Client) (n : Nat) (f : Dialog → Dialog) : (c.updateDialog n f).keys = c.keys := by
  rw [keys, updateDialog, List.map_map, keys]
  refine List.map_congr_left fun e _ => ?_
  by_cases he : e.1 = n <;> simp [he]

theorem dialog?_eq_none_iff : c.dialog? n = none ↔ n ∉ c.keys := by
  rw [dialog?, Option.map_eq_none_iff, List.lookup_eq_none_iff, keys, List.mem_map]
  constructor
  · rintro h ⟨e, he, rfl⟩
    simpa using h e he
  · intro h e he
    rw [bne_iff_ne]
    rintro rfl
    exact h ⟨e, he, rfl⟩

theorem dialog?_updateDialog_eq_none {f : Dialog → Dialog} : (c.updateDialog n f).dialog? m = none ↔ c.dialog? m = none := by
  rw [dialog?_eq_none_iff, keys_updateDialog, dialog?_eq_none_iff]

theorem dialog?_updateDialog_eq_some {f : Dialog → Dialog} {d : Dialog} (h : (c.updateDialog n f).dialog? m = some d) :
    ∃ d₀, c.dialog? m = some d₀ ∧ d = if m = n then f d₀ else d₀ := by
  rw [dialog?_updateDialog] at h
  split at h
  · rename_i hm
    rw [← hm, Option.map_eq_some_iff] at h
    obtain ⟨d₀, hd₀, rfl⟩ := h
    exact ⟨d₀, hd₀, (if_pos hm).symm⟩
  · rename_i hm
    exact ⟨d, h, (if_neg hm).symm⟩

/-- A session is known by its number. -/
theorem lookup_of_mem {k : Connection} (hk : c.keys.Nodup) (h : (n, k) ∈ c.connections) :
    c.connections.lookup n = some k := by
  obtain ⟨l₁, l₂, hl⟩ := List.append_of_mem h
  rw [keys, hl, List.map_append, List.map_cons, List.nodup_append] at hk
  refine List.lookup_eq_some_iff.mpr ⟨l₁, l₂, hl, fun e he => ?_⟩
  rw [bne_iff_ne]
  exact Ne.symm (hk.2.2 e.1 (List.mem_map_of_mem he) n List.mem_cons_self)

theorem updateDialog_eq_self {f : Dialog → Dialog} (hk : c.keys.Nodup) (h : ∀ d, c.dialog? n = some d → f d = d) :
    c.updateDialog n f = c := by
  have hmap : c.connections.map (fun e => if e.1 = n then (n, { e.2 with dialog := f e.2.dialog }) else e) =
      c.connections := by
    refine (List.map_congr_left fun e he => ?_).trans (List.map_id _)
    obtain ⟨i, k⟩ := e
    split
    · rename_i hi
      subst hi
      have hd : c.dialog? i = some k.dialog := by rw [dialog?, lookup_of_mem hk he, Option.map_some]
      rw [h _ hd]
      rfl
    · rfl
  rw [updateDialog, hmap]

end Client

namespace Traffic

/-- A call that has no ticket yet. -/
structure Call where
  id : Nat
  connection : Nat
  command : String
  isRequest : Bool
  /-- Its number, once it has one. -/
  seq : Option Nat := none

/-- What is remembered of a move. -/
inductive Mark where
  | called (id : Nat) (isRequest : Bool)
  /-- A call got a number of a session. -/
  | numbered (n seq id : Nat)
  /-- A request became a pending one of a session. -/
  | registered (n seq id : Nat) (command : String)
  /-- A session took an answer. -/
  | heard (n : Nat) (r : Response)

/-- What happens at once. -/
inductive Move where
  | connect (root : Path) (streams : Streams)
  /-- The connection in use is given up. -/
  | disconnect
  | call (isRequest : Bool) (command : String)
  /-- A call finds its session ended. -/
  | refuse (id : Nat)
  | number (id : Nat)
  | enter (id : Nat)
  /-- The line of a ticket gets into the queue. -/
  | enqueue (id : Nat)
  /-- The line of a ticket cannot be sent. -/
  | fail (id : Nat)
  | timeOut (id : Nat)
  | hear (n : Nat) (message : Json)
  | load (n : Nat)
  | tend (n : Nat) (k : Connection)
  | tick (ms : Nat)

end Traffic

/-- A client, the calls on their way into it, and what happened so far, the latest first. -/
structure Traffic where
  client : Client
  calls : List Traffic.Call := []
  history : List Traffic.Mark := []

namespace Traffic

/-- A call of the connection in use. Without one it is settled at once. -/
def call (s : Traffic) (isRequest : Bool) (command : String) : Traffic :=
  let id := s.client.nextTicket
  let c := { s.client with nextTicket := id + 1 }
  match c.active? with
  | some (n, _) => ⟨c, ⟨id, n, command, isRequest, none⟩ :: s.calls, .called id isRequest :: s.history⟩
  | none => { s with client := c.settle id (.error .notRunning), history := .called id isRequest :: s.history }

/-- A call without a number finds its session ended. -/
def refuse (s : Traffic) (id : Nat) : Traffic :=
  match s.calls.find? (·.id == id) with
  | some a =>
    if a.seq = none then
      { s with client := s.client.settle id (.error .notRunning), calls := s.calls.filter (·.id ≠ id) }
    else s
  | none => s

/-- A call gets the next number of its session. -/
def number (s : Traffic) (id : Nat) : Traffic :=
  match s.calls.find? (·.id == id) with
  | some a =>
    match a.seq, s.client.dialog? a.connection with
    | none, some d =>
      { client := s.client.updateDialog a.connection fun d => d.allocate.2
        calls := s.calls.map fun b => if b.id = id then { b with seq := some d.nextSeq } else b
        history := .numbered a.connection d.nextSeq id :: s.history }
    | _, _ => s
  | none => s

/-- A call with a number gets its ticket; a request becomes a pending one. -/
def enter (s : Traffic) (id : Nat) : Traffic :=
  match s.calls.find? (·.id == id) with
  | some a =>
    match a.seq, s.client.dialog? a.connection with
    | some seq, some _ =>
      let c := if a.isRequest then s.client.updateDialog a.connection (·.register seq id) else s.client
      { client := { c with tickets := c.tickets ++ [⟨id, a.connection, seq, a.command, a.isRequest, none, none⟩] }
        calls := s.calls.filter (·.id ≠ id)
        history := if a.isRequest then .registered a.connection seq id a.command :: s.history else s.history }
    | _, _ => s
  | none => s

/-- What a message leaves in the history of a session. -/
def marksOf (n : Nat) (message : Json) : List Mark :=
  match Inbound.decode message with
  | .ok (.response r) => [.heard n r]
  | _ => []

/-- A session takes a message. -/
def hear (s : Traffic) (n : Nat) (message : Json) : Traffic :=
  match s.client.dialog? n with
  | some _ => { s with client := s.client.hear n message, history := marksOf n message ++ s.history }
  | none => s

def move (s : Traffic) : Move → Traffic
  | .connect root streams => { s with client := s.client.connect root streams }
  | .disconnect => { s with client := { s.client with current := none } }
  | .call isRequest command => s.call isRequest command
  | .refuse id => s.refuse id
  | .number id => s.number id
  | .enter id => s.enter id
  | .enqueue id => { s with client := s.client.enqueued id }
  | .fail id => { s with client := s.client.turnedAway id }
  | .timeOut id => { s with client := s.client.timeOut id }
  | .hear n message => s.hear n message
  | .load n => { s with client := s.client.load n }
  | .tend n k => { s with client := s.client.tend n k }
  | .tick ms => { s with client := { s.client with clock := s.client.clock + ms } }

/-- What moves lead to, one after the other. -/
def run (s : Traffic) (moves : List Move) : Traffic := moves.foldl move s

theorem run_append (s : Traffic) (moves moves' : List Move) : s.run (moves ++ moves') = (s.run moves).run moves' :=
  List.foldl_append

end Traffic

end Refactor
