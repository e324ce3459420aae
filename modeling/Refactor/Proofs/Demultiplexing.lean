import Refactor.Proofs.Lifecycle

/-!
# Messages of all kinds over one stream

Answers, news and messages of no known kind come over one stream, and files are opened meanwhile. Answers
only touch the pending requests, news and opened files only touch what is known about loading, and messages
that do not decode touch nothing.

* `Json.Record.reads_seq`, `Inbound.decode_obj_iff`: which objects decode;
* `Dialog.Input`, `Dialog.takeAll`: what a session goes through besides its own requests;
* `Dialog.takeAll_eq_matchAll`: pending requests and answers are known from the answers alone;
* `Dialog.loaded_takeAll`: the last piece of news or opened file decides about loading;
* `Dialog.takeAll_swap`, `Dialog.takeAll_filter`: an answer and news next to it can change places, and
  messages that do not decode can be left out;
* `Client.Takes`: clients take their sessions through such inputs.
-/

namespace Refactor

/-! ## Which objects decode -/

theorem isOk_map {ε α β : Type} (f : α → β) (x : Except ε α) : (x.map f).isOk = x.isOk := by cases x <;> rfl

namespace Json

/-- A natural number of 64 bits. -/
def IsCount (v : Json) : Prop := ∃ n : Nat, n < UInt64.size ∧ v = .nat n

def IsTruth (v : Json) : Prop := ∃ b, v = .bool b

def IsString (v : Json) : Prop := ∃ s, v = .str s

namespace Decoder

theorem isOk_unsigned (v : Json) : (unsigned 64 v).isOk = true ↔ v.IsCount := by
  constructor
  · intro h
    unfold unsigned at h
    split at h
    · rename_i i
      split at h
      · rename_i hi
        refine ⟨i.toNat, ?_, ?_⟩
        · have hlt : i < (UInt64.size : Nat) := hi.2
          omega
        · rw [Json.nat, Int.toNat_of_nonneg hi.1]
      · cases h
    · cases h
  · rintro ⟨n, hn, rfl⟩
    have hlt : (n : Int) < (UInt64.size : Nat) := Int.ofNat_lt.mpr hn
    rw [Json.nat, unsigned, if_pos ⟨Int.natCast_nonneg n, hlt⟩]
    rfl

theorem isOk_bool (v : Json) : (bool v).isOk = true ↔ v.IsTruth := by
  cases v <;> simp [bool, IsTruth, Except.isOk, Except.toBool]

theorem isOk_string (v : Json) : (string v).isOk = true ↔ v.IsString := by
  cases v <;> simp [string, stringAs, IsString, Except.isOk, Except.toBool]

theorem isOk_any (v : Json) : (any v).isOk = true := rfl

theorem isOk_option {α : Type} (d : Decoder α) (v : Json) :
    (option d v).isOk = true ↔ v = .null ∨ (d v).isOk = true := by
  unfold option
  split
  · simp [Except.isOk, Except.toBool]
  · rename_i hv
    rw [isOk_map, or_iff_right hv]

end Decoder

namespace Record

variable {α β : Type} {ms : Members}

/-- The record can be read from the members of an object. -/
def Reads (r : Record α) (ms : Members) : Prop := (r.ofMembers ms).isOk = true

theorem leastFault_eq_none {fs : List (String × DecodeError)} : leastFault fs = none ↔ fs = [] := by
  cases fs with
  | nil => simp [leastFault]
  | cons f fs =>
    rw [leastFault]
    split
    · split <;> simp
    · simp

theorem reads_iff {r : Record α} :
    r.Reads ms ↔ (r.named ms).faults = [] ∧ (r.named ms).missing = none ∧ (r.named ms).value.isSome = true := by
  rw [Reads, ofMembers, ← leastFault_eq_none]
  cases leastFault (r.named ms).faults <;> cases (r.named ms).missing <;> cases (r.named ms).value <;>
    simp [Except.isOk, Except.toBool]

/-- A record can be read if each of its fields can. -/
theorem reads_followedBy {f : Record (α → β)} {r : Record α} : (f.followedBy r).Reads ms ↔ f.Reads ms ∧ r.Reads ms := by
  simp only [reads_iff, followedBy, List.append_eq_nil_iff, Option.or_eq_none_iff]
  cases (f.named ms).value <;> cases (r.named ms).value <;> simp
  tauto

theorem reads_seq {f : Record (α → β)} {r : Record α} : (f <*> r).Reads ms ↔ f.Reads ms ∧ r.Reads ms := reads_followedBy

theorem reads_map {g : α → β} {r : Record α} : (g <$> r).Reads ms ↔ r.Reads ms :=
  reads_followedBy.trans (and_iff_right rfl)

theorem reads_required {name : String} {d : Decoder α} :
    (required name d).Reads ms ↔ ∃ v ∈ ms.lookup name, (d v).isOk = true := by
  simp only [reads_iff, required, field]
  cases ms.lookup name with
  | none => simp
  | some v => cases hd : d v <;> simp [hd, Except.isOk, Except.toBool]

theorem reads_defaulted {name : String} {d : Decoder α} {a : α} :
    (defaulted name d a).Reads ms ↔ ∀ v ∈ ms.lookup name, (d v).isOk = true := by
  simp only [reads_iff, defaulted, field]
  cases ms.lookup name with
  | none => simp
  | some v => cases hd : d v <;> simp [hd, Except.isOk, Except.toBool]

theorem reads_optional {name : String} {d : Decoder α} :
    (optional name d).Reads ms ↔ ∀ v ∈ ms.lookup name, v = .null ∨ (d v).isOk = true := by
  simp only [optional, reads_defaulted, Decoder.isOk_option]

end Record

end Json

namespace Inbound

open Json (Members)
open Json.Record

theorem kind_cases (v : Json) :
    (v = .str "response" ∧ kind v = .ok .response) ∨ (v = .str "event" ∧ kind v = .ok .event) ∨
      (v ≠ .str "response" ∧ v ≠ .str "event" ∧ ∃ e, kind v = .error e) := by
  cases v with
  | str s =>
    by_cases hr : s = "response"
    · exact .inl ⟨by rw [hr], by rw [hr]; rfl⟩
    · by_cases he : s = "event"
      · exact .inr (.inl ⟨by rw [he], by rw [he]; rfl⟩)
      · refine .inr (.inr ⟨by simpa using hr, by simpa using he, ?_⟩)
        simp only [kind, Json.Decoder.stringAs, if_neg hr, if_neg he]
        exact ⟨_, rfl⟩
  | _ => exact .inr (.inr ⟨nofun, nofun, _, rfl⟩)

/-- An object decodes exactly if it has a known type, the fields that this type has to have, and no field with
a value of another type. -/
theorem decode_obj_iff (ms : Members) :
    (decode (.obj ms)).isOk = true ↔
      (ms.lookup "type" = some (.str "response") ∧
        (∃ v ∈ ms.lookup "request_seq", v.IsCount) ∧ (∃ v ∈ ms.lookup "success", v.IsTruth) ∧
        (∀ v ∈ ms.lookup "seq", v.IsCount) ∧ (∀ v ∈ ms.lookup "command", v = .null ∨ v.IsString) ∧
        ∀ v ∈ ms.lookup "message", v = .null ∨ v.IsString) ∨
      (ms.lookup "type" = some (.str "event") ∧
        (∃ v ∈ ms.lookup "event", v.IsString) ∧ ∀ v ∈ ms.lookup "seq", v.IsCount) := by
  have hresponse : responseRecord.Reads ms ↔ (∃ v ∈ ms.lookup "request_seq", v.IsCount) ∧
      (∃ v ∈ ms.lookup "success", v.IsTruth) ∧ (∀ v ∈ ms.lookup "seq", v.IsCount) ∧
      (∀ v ∈ ms.lookup "command", v = .null ∨ v.IsString) ∧ ∀ v ∈ ms.lookup "message", v = .null ∨ v.IsString := by
    simp only [responseRecord, reads_seq, reads_map, reads_required, reads_defaulted, reads_optional,
      Json.Decoder.isOk_unsigned, Json.Decoder.isOk_bool, Json.Decoder.isOk_string, Json.Decoder.isOk_any, or_true,
      implies_true, and_true]
    tauto
  have hevent : eventRecord.Reads ms ↔ (∃ v ∈ ms.lookup "event", v.IsString) ∧ ∀ v ∈ ms.lookup "seq", v.IsCount := by
    simp only [eventRecord, reads_seq, reads_map, reads_required, reads_defaulted, reads_optional,
      Json.Decoder.isOk_unsigned, Json.Decoder.isOk_string, Json.Decoder.isOk_any, or_true, implies_true, and_true]
    tauto
  rw [← hresponse, ← hevent, decode]
  cases ms.lookup "type" with
  | none => simp [Except.isOk, Except.toBool]
  | some tag =>
    rcases kind_cases tag with ⟨rfl, hk⟩ | ⟨rfl, hk⟩ | ⟨hr, he, e, hk⟩
    · simp [hk, isOk_map, Json.Record.Reads]
    · simp [hk, isOk_map, Json.Record.Reads]
    · simp [hk, hr, he, Except.isOk, Except.toBool]

end Inbound

namespace Dialog

/-! ## What a session goes through -/

/-- What a session learns about its project. -/
inductive News where
  | event (e : Event)
  /-- A file was shown to the server. -/
  | opened

/-- Whether the project counts as loaded from then on, if that is decided. -/
def News.loaded? : News → Option Bool
  | .event e =>
    if e.name = "projectLoadingStart" then some false
    else if e.name = "projectLoadingFinish" ∨ e.name = "projectsUpdatedInBackground" then some true
    else none
  | .opened => some true

/-- What a session goes through besides its own requests. -/
inductive Input where
  /-- A message comes in. -/
  | message (m : Json)
  /-- A file is to be shown to the server: the line takes a number. -/
  | opening
  /-- That line is in the queue. -/
  | opened

namespace Input

/-- The answer that comes in. -/
def response? : Input → Option Response
  | .message m =>
    match Inbound.decode m with
    | .ok (.response r) => some r
    | _ => none
  | _ => none

/-- The news that comes in. -/
def news? : Input → Option News
  | .message m =>
    match Inbound.decode m with
    | .ok (.event e) => some (.event e)
    | _ => none
  | .opening => none
  | .opened => some .opened

/-- All but messages that do not decode. -/
def decodes : Input → Bool
  | .message m => (Inbound.decode m).isOk
  | _ => true

end Input

/-- Takes an input: the session from then on, and the answer that it delivers. -/
def take (d : Dialog) : Input → Dialog × Option (Nat × Response)
  | .message m => d.dispatch m
  | .opening => (d.allocate.2, none)
  | .opened => ({ d with loaded := true }, none)

/-- Takes inputs in order, with the answers that they deliver. -/
def takeAll : Dialog → List Input → Dialog × List (Nat × Response)
  | d, [] => (d, [])
  | d, i :: is =>
    let (d, delivered) := d.take i
    let (d, rest) := takeAll d is
    (d, delivered.toList ++ rest)

/-- Answers matched with pending requests, one after the other: the requests that stay pending, and the answers with
their tickets. -/
def matchAll : List (Nat × Nat) → List Response → List (Nat × Nat) × List (Nat × Response)
  | pending, [] => (pending, [])
  | pending, r :: rs =>
    let (left, rest) := matchAll (pending.filter fun p => p.1 ≠ r.requestSeq) rs
    (left, ((pending.lookup r.requestSeq).map fun ticket => (ticket, r)).toList ++ rest)

theorem takeAll_cons (d : Dialog) (i : Input) (is : List Input) :
    d.takeAll (i :: is) = (((d.take i).1.takeAll is).1, (d.take i).2.toList ++ ((d.take i).1.takeAll is).2) := rfl

theorem takeAll_append (d : Dialog) (is js : List Input) :
    d.takeAll (is ++ js) =
      (((d.takeAll is).1.takeAll js).1, (d.takeAll is).2 ++ ((d.takeAll is).1.takeAll js).2) := by
  induction is generalizing d with
  | nil => rfl
  | cons i is ih => rw [List.cons_append, takeAll_cons, ih, takeAll_cons, List.append_assoc]

theorem takeAll_messages (d : Dialog) (ms : List Json) : d.takeAll (ms.map .message) = d.dispatchAll ms := by
  induction ms generalizing d with
  | nil => rfl
  | cons m ms ih =>
    rw [List.map_cons, takeAll_cons, ih]
    rfl

/-! ## One input -/

variable {i j : Input} {r : Response} {news : News}

theorem hear_eq (d : Dialog) (e : Event) :
    d.hear e = { d with loaded := (News.event e).loaded?.getD d.loaded } := by
  rw [hear, News.loaded?, ServerEvent.ofName]
  by_cases hs : e.name = "projectLoadingStart"
  · simp [hs, ServerEvent.loaded?]
  · by_cases hf : e.name = "projectLoadingFinish"
    · simp [hf, ServerEvent.loaded?]
    · by_cases hu : e.name = "projectsUpdatedInBackground"
      · simp [hu, ServerEvent.loaded?]
      · simp [hs, hf, hu, ServerEvent.loaded?]

/-- An input is an answer, news, or neither, and then it does no more than take a number. -/
theorem take_cases (i : Input) :
    (∃ r, i.response? = some r ∧ i.news? = none ∧ i.decodes = true ∧
      ∀ d : Dialog, d.take i = (d.forget r.requestSeq, (d.pending.lookup r.requestSeq).map fun ticket => (ticket, r))) ∨
    (∃ news, i.response? = none ∧ i.news? = some news ∧ i.decodes = true ∧
      ∀ d : Dialog, d.take i = ({ d with loaded := news.loaded?.getD d.loaded }, none)) ∨
    (i.response? = none ∧ i.news? = none ∧ i.decodes = true ∧ ∀ d : Dialog, d.take i = (d.allocate.2, none)) ∨
    (i.response? = none ∧ i.news? = none ∧ i.decodes = false ∧ ∀ d : Dialog, d.take i = (d, none)) := by
  cases i with
  | message m =>
    cases hm : Inbound.decode m with
    | ok v =>
      cases v with
      | response r =>
        exact .inl ⟨r, by simp [Input.response?, hm], by simp [Input.news?, hm], by simp [Input.decodes, hm]; rfl,
          fun d => dispatch_response hm d⟩
      | event e =>
        refine .inr (.inl ⟨.event e, by simp [Input.response?, hm], by simp [Input.news?, hm],
          by simp [Input.decodes, hm]; rfl, fun d => ?_⟩)
        rw [take, dispatch, hm, ← hear_eq]
    | error e =>
      refine .inr (.inr (.inr ⟨by simp [Input.response?, hm], by simp [Input.news?, hm],
        by simp [Input.decodes, hm]; rfl, fun d => ?_⟩))
      rw [take, dispatch, hm]
  | opening => exact .inr (.inr (.inl ⟨rfl, rfl, rfl, fun _ => rfl⟩))
  | opened => exact .inr (.inl ⟨.opened, rfl, rfl, rfl, fun _ => rfl⟩)

theorem take_of_response (h : i.response? = some r) (d : Dialog) :
    d.take i = (d.forget r.requestSeq, (d.pending.lookup r.requestSeq).map fun ticket => (ticket, r)) := by
  obtain ⟨r', hr, -, -, htake⟩ | ⟨-, hr, -⟩ | ⟨hr, -⟩ | ⟨hr, -⟩ := take_cases i
  · rw [hr, Option.some_inj] at h
    rw [← h, htake]
  all_goals
    rw [hr] at h
    cases h

theorem take_of_news (h : i.news? = some news) (d : Dialog) :
    d.take i = ({ d with loaded := news.loaded?.getD d.loaded }, none) := by
  obtain ⟨-, -, hn, -⟩ | ⟨news', -, hn, -, htake⟩ | ⟨-, hn, -⟩ | ⟨-, hn, -⟩ := take_cases i
  case inr.inl =>
    rw [hn, Option.some_inj] at h
    rw [← h, htake]
  all_goals
    rw [hn] at h
    cases h

theorem take_of_no_response (h : i.response? = none) (d : Dialog) :
    (d.take i).1.pending = d.pending ∧ (d.take i).2 = none := by
  obtain ⟨r, hr, -⟩ | ⟨news, -, -, -, htake⟩ | ⟨-, -, -, htake⟩ | ⟨-, -, -, htake⟩ := take_cases i
  · rw [hr] at h
    cases h
  all_goals
    rw [htake]
    exact ⟨rfl, rfl⟩

theorem loaded_take (d : Dialog) (i : Input) : (d.take i).1.loaded = (i.news?.bind News.loaded?).getD d.loaded := by
  obtain ⟨r, -, hn, -, htake⟩ | ⟨news, -, hn, -, htake⟩ | ⟨-, hn, -, htake⟩ | ⟨-, hn, -, htake⟩ := take_cases i <;>
    rw [htake, hn] <;> rfl

theorem take_of_not_decodes (h : i.decodes = false) (d : Dialog) : d.take i = (d, none) := by
  obtain ⟨-, -, -, hd, -⟩ | ⟨-, -, -, hd, -⟩ | ⟨-, -, hd, -⟩ | ⟨-, -, -, htake⟩ := take_cases i
  case inr.inr.inr => exact htake d
  all_goals
    rw [hd] at h
    cases h

/-! ## All inputs -/

/-- Pending requests and delivered answers come from the answers among the inputs alone. -/
theorem takeAll_eq_matchAll (d : Dialog) (is : List Input) :
    ((d.takeAll is).1.pending, (d.takeAll is).2) = matchAll d.pending (is.filterMap Input.response?) := by
  induction is generalizing d with
  | nil => rfl
  | cons i is ih =>
    rw [takeAll_cons]
    cases hr : i.response? with
    | none =>
      obtain ⟨hpending, hnone⟩ := take_of_no_response hr d
      rw [List.filterMap_cons_none hr, ← hpending, ← ih, hnone]
      rfl
    | some r =>
      have hforget : (d.forget r.requestSeq).pending = d.pending.filter fun p => p.1 ≠ r.requestSeq := rfl
      rw [List.filterMap_cons_some hr, matchAll, take_of_response hr, ← hforget, ← ih]

/-- The last piece of news that decides whether the project counts as loaded does so for good. -/
theorem loaded_takeAll (d : Dialog) (is : List Input) :
    (d.takeAll is).1.loaded = (((is.filterMap Input.news?).filterMap News.loaded?).getLast?).getD d.loaded := by
  rw [List.filterMap_filterMap]
  induction is generalizing d with
  | nil => rfl
  | cons i is ih =>
    rw [takeAll_cons, ih, loaded_take]
    -- The first input only counts if none after it decides.
    cases hl : i.news?.bind News.loaded? with
    | none => simp only [List.filterMap_cons, hl, Option.getD_none]
    | some b => simp only [List.filterMap_cons, hl, List.getLast?_cons, Option.getD_some]

/-- An answer and news do not get in each other's way. -/
theorem takeAll_swap (hi : i.response? = some r) (hj : j.news? = some news) (d : Dialog) (is js : List Input) :
    d.takeAll (is ++ i :: j :: js) = d.takeAll (is ++ j :: i :: js) := by
  rw [takeAll_append, takeAll_append]
  simp only [takeAll_cons, take_of_response hi, take_of_news hj]
  rfl

theorem takeAll_filter (d : Dialog) (is : List Input) : d.takeAll (is.filter Input.decodes) = d.takeAll is := by
  induction is generalizing d with
  | nil => rfl
  | cons i is ih =>
    cases hi : i.decodes with
    | true => rw [List.filter_cons_of_pos hi, takeAll_cons, takeAll_cons, ih]
    | false =>
      rw [List.filter_cons_of_neg (Bool.not_eq_true _ ▸ hi), ih, takeAll_cons, take_of_not_decodes hi]
      rfl

end Dialog

namespace Client

open Dialog (Input)

variable {c c' : Client} {n : Nat} {k : Connection} {d : Dialog}

/-! ## Clients take their sessions through inputs -/

/-- The inputs of a line that gets into the queue. -/
def inputsOfAccept (l : OutLine) : List Input := if l.opens then [.opened] else []

/-- The inputs of a line that is handed in to show the server a file. -/
def inputsOfOpen (o : Outbox) : List Input :=
  .opening :: if o.queue.length < Outbox.capacity ∧ o.blocked = [] then [.opened] else []

/-- The inputs that a session goes through while its peer writes, files are shown to the server, which succeeds, and its
lines are written. -/
inductive Takes (n : Nat) : Client → List Input → Client → Prop where
  | done (c : Client) : Takes n c [] c
  | receive {c c' : Client} {k : Connection} {is : List Input} (hk : c.connections.lookup n = some k) (bytes : Bytes)
      (h : Takes n (c.receive n bytes).1 is c') :
      Takes n c ((k.messages (bytes.chunks k.outbox.pipe)).map .message ++ is) c'
  | openFile {c c' : Client} {k : Connection} {is : List Input} (hk : c.active? = some (n, k)) (files : FileTree)
      (path : Path) (hok : (c.openFile files path).2 = .ok ()) (h : Takes n (c.openFile files path).1 is c') :
      Takes n c (inputsOfOpen k.outbox ++ is) c'
  | flush {c c' : Client} {k : Connection} {is : List Input} (hk : c.active? = some (n, k))
      (hwritten : k.outbox.flush.failed = false) (h : Takes n c.flush is c') :
      Takes n c (k.outbox.flush.admitted.flatMap inputsOfAccept ++ is) c'

theorem connections_enqueued (c : Client) (ticket : Nat) : (c.enqueued ticket).connections = c.connections := by
  rw [enqueued]
  split
  · split
    · rfl
    · split <;> rfl
  · rfl

theorem dialog?_accept (hd : c.dialog? n = some d) (l : OutLine) :
    (c.accept n l).dialog? n = some (d.takeAll (inputsOfAccept l)).1 := by
  have henqueued : (c.enqueued l.ticket).dialog? n = some d := by rw [dialog?, connections_enqueued, ← dialog?, hd]
  rw [accept, inputsOfAccept]
  split
  · rw [load, dialog?_updateDialog, if_pos rfl, henqueued]
    rfl
  · exact henqueued

theorem dialog?_acceptAll (hd : c.dialog? n = some d) (ls : List OutLine) :
    (ls.foldl (accept n) c).dialog? n = some (d.takeAll (ls.flatMap inputsOfAccept)).1 := by
  induction ls generalizing c d with
  | nil => exact hd
  | cons l ls ih => rw [List.foldl_cons, List.flatMap_cons, Dialog.takeAll_append, ih (dialog?_accept hd l)]

/-- Bytes take their session through the messages that they complete, and the answers are delivered. -/
theorem receive_eq (hk : c.connections.lookup n = some k) (hr : k.isReading = true) (bytes : Bytes) :
    (c.receive n bytes).1 = (c.update n (k.drain (bytes.chunks k.outbox.pipe)).1).deliverAll
      (k.dialog.takeAll ((k.messages (bytes.chunks k.outbox.pipe)).map .message)).2 := by
  rw [Dialog.takeAll_messages, Connection.dispatchAll_messages, receive, hk]
  simp only [hr, if_true]

theorem messages_of_not_reading (h : k.isReading = false) (fills : List Bytes) : k.messages fills = [] := by
  cases fills with
  | nil => rfl
  | cons b fills => simp [Connection.messages, h]

theorem dialog?_receive (hk : c.connections.lookup n = some k) (bytes : Bytes) :
    (c.receive n bytes).1.dialog? n =
      some (k.dialog.takeAll ((k.messages (bytes.chunks k.outbox.pipe)).map .message)).1 := by
  cases hr : k.isReading with
  | true =>
    rw [receive_eq hk hr, dialog?, connections_deliverAll, ← dialog?, dialog?_update, if_pos rfl, dialog?_of_lookup hk,
      Dialog.takeAll_messages, Connection.dispatchAll_messages]
    rfl
  | false =>
    rw [receive, hk, messages_of_not_reading hr]
    simp only [hr, Bool.false_eq_true, if_false]
    exact dialog?_of_lookup hk

theorem outcome_turnedAway {ticket : Nat} (h : ∃ t ∈ c.tickets, t.id = ticket) :
    ∃ e, (c.turnedAway ticket).outcome? ticket = some (.error e) := by
  obtain ⟨t, ht, hid⟩ := h
  rw [turnedAway]
  cases hf : c.tickets.find? (·.id == ticket) with
  | none => exact absurd (beq_iff_eq.mpr hid) (List.find?_eq_none.mp hf t ht)
  | some t' => exact ⟨_, by simp [outcome?, settle]; rfl⟩

/-- A line that shows the server a file fails, or it is in the queue or waits for room in it. -/
theorem issue_opens (hk : c.active? = some (n, k)) (command : String) (arguments : Option Json) :
    (∃ e, (c.issue false command arguments true).2.outcome? (c.issue false command arguments true).1 =
        some (.error e)) ∨
      (c.issue false command arguments true).2.dialog? n = some (k.dialog.takeAll (inputsOfOpen k.outbox)).1 := by
  have hactive : ({ c with nextTicket := c.nextTicket + 1 } : Client).active? = some (n, k) := hk
  have hupdate : ∀ k' : Connection, ((c.update n k').dialog? n) = some k'.dialog := fun k' => by
    rw [dialog?_update, if_pos rfl, dialog?_of_active hk, Option.map_some]
  rw [issue, inputsOfOpen]
  simp only [hactive, Outbox.push]
  split
  · exact .inl ⟨.notRunning, by simp [outcome?, settle]⟩
  · by_cases hopen : k.outbox.isOpen = true
    · by_cases hroom : k.outbox.queue.length < Outbox.capacity ∧ k.outbox.blocked = []
      · -- The number is taken before the line is handed in, and the latch is set after it.
        refine .inr ?_
        simp only [hopen, hroom, Bool.not_true, Bool.false_eq_true, if_false, and_self, if_true]
        refine (dialog?_accept (d := k.dialog.allocate.2) ?_ _).trans rfl
        exact hupdate _
      · refine .inr ?_
        simp only [hopen, hroom, Bool.not_true, Bool.false_eq_true, if_false]
        exact hupdate _
    · -- The line is turned away, which settles its ticket with an error.
      refine .inl ?_
      simp only [hopen, Bool.not_false, if_true]
      exact outcome_turnedAway ⟨_, List.mem_append_right _ List.mem_cons_self, rfl⟩

theorem dialog?_openFile (hk : c.active? = some (n, k)) (files : FileTree) (path : Path)
    (hok : (c.openFile files path).2 = .ok ()) :
    (c.openFile files path).1.dialog? n = some (k.dialog.takeAll (inputsOfOpen k.outbox)).1 := by
  rw [openFile] at hok ⊢
  cases hread : files.readText path with
  | error e =>
    rw [hread] at hok
    cases hok
  | ok content =>
    simp only [hread, hk] at hok ⊢
    generalize hargs : some (Json.ofMembers _) = arguments at hok ⊢
    obtain ⟨e, he⟩ | hd := issue_opens hk "open" arguments
    · simp only [he] at hok
      cases hok
    · split <;> exact hd

theorem refused_of_written {o : Outbox} (h : o.flush.failed = false) : o.flush.refused = [] := by
  revert h
  fun_cases Outbox.flush o with
  | case6 =>
    intro h
    cases h
  | _ => exact fun _ => rfl

theorem dialog?_flush (hk : c.active? = some (n, k)) (hwritten : k.outbox.flush.failed = false) :
    c.flush.dialog? n = some (k.dialog.takeAll (k.outbox.flush.admitted.flatMap inputsOfAccept)).1 := by
  rw [flush, hk]
  simp only [refused_of_written hwritten, hwritten, List.foldl_nil, Bool.false_eq_true, if_false]
  refine dialog?_acceptAll ?_ _
  rw [dialog?_update, if_pos rfl, dialog?_of_active hk]
  rfl

/-- Whatever a client does meanwhile, the session goes through its inputs. -/
theorem Takes.dialog? {is : List Input} (h : Takes n c is c') (hd : c.dialog? n = some d) :
    c'.dialog? n = some (d.takeAll is).1 := by
  induction h generalizing d with
  | done c => exact hd
  | receive hk bytes _ ih =>
    obtain rfl := Option.some.inj (hd.symm.trans (dialog?_of_lookup hk))
    rw [Dialog.takeAll_append, ih (dialog?_receive hk bytes)]
  | openFile hk files path hok _ ih =>
    obtain rfl := Option.some.inj (hd.symm.trans (dialog?_of_active hk))
    rw [Dialog.takeAll_append, ih (dialog?_openFile hk files path hok)]
  | flush hk hwritten _ ih =>
    obtain rfl := Option.some.inj (hd.symm.trans (dialog?_of_active hk))
    rw [Dialog.takeAll_append, ih (dialog?_flush hk hwritten)]

end Client

/-! ## Without interference -/

namespace Dialog

/-- What inputs of all kinds come to in a session. -/
structure Demultiplexes (d : Dialog) (is : List Input) : Prop where
  /-- The last piece of news that decides whether the project counts as loaded does so. -/
  loaded : (d.takeAll is).1.loaded = (((is.filterMap Input.news?).filterMap News.loaded?).getLast?).getD d.loaded
  /-- Pending requests and delivered answers depend on the answers that come in. -/
  answers : ∀ (d' : Dialog) (js : List Input), d'.pending = d.pending →
    js.filterMap Input.response? = is.filterMap Input.response? →
    (d'.takeAll js).1.pending = (d.takeAll is).1.pending ∧ (d'.takeAll js).2 = (d.takeAll is).2
  /-- Whether the project counts as loaded depends on the news. -/
  news : ∀ (d' : Dialog) (js : List Input), d'.loaded = d.loaded →
    js.filterMap Input.news? = is.filterMap Input.news? → (d'.takeAll js).1.loaded = (d.takeAll is).1.loaded
  /-- An answer and news next to it can change places. -/
  swap : ∀ i j (js ks : List Input), i.response?.isSome = true → j.news?.isSome = true →
    (is = js ++ i :: j :: ks → d.takeAll (js ++ j :: i :: ks) = d.takeAll is) ∧
      (is = js ++ j :: i :: ks → d.takeAll (js ++ i :: j :: ks) = d.takeAll is)
  /-- Messages that do not decode can be left out. -/
  filter : d.takeAll (is.filter Input.decodes) = d.takeAll is
  /-- These inputs are what sessions of clients go through. -/
  session : ∀ c c' n, Client.Takes n c is c' → c.dialog? n = some d → c'.dialog? n = some (d.takeAll is).1
  /-- The answers are delivered to the tickets of the client. -/
  delivered : ∀ (c : Client) n k bytes, c.connections.lookup n = some k → k.dialog = d → k.isReading = true →
    is = (k.messages (bytes.chunks k.outbox.pipe)).map .message →
    (c.receive n bytes).1 = (c.update n (k.drain (bytes.chunks k.outbox.pipe)).1).deliverAll (d.takeAll is).2

end Dialog

/-- Answers, news and messages that do not decode share a stream without interfering. A message that is an object
decodes as an answer if it has the type, a number of a request and the outcome, as news if it has the type and a name,
and only if its other fields have values of their types. -/
theorem messages_demultiplexed :
    (∀ (d : Dialog) (is : List Dialog.Input), d.Demultiplexes is) ∧
      ∀ ms, (Dialog.Input.message (.obj ms)).decodes = true ↔
        (ms.lookup "type" = some (.str "response") ∧
          (∃ v ∈ ms.lookup "request_seq", v.IsCount) ∧ (∃ v ∈ ms.lookup "success", v.IsTruth) ∧
          (∀ v ∈ ms.lookup "seq", v.IsCount) ∧ (∀ v ∈ ms.lookup "command", v = .null ∨ v.IsString) ∧
          ∀ v ∈ ms.lookup "message", v = .null ∨ v.IsString) ∨
        (ms.lookup "type" = some (.str "event") ∧
          (∃ v ∈ ms.lookup "event", v.IsString) ∧ ∀ v ∈ ms.lookup "seq", v.IsCount) := by
  refine ⟨fun d is => ?_, Inbound.decode_obj_iff⟩
  refine
    { loaded := d.loaded_takeAll is
      answers := fun d' js hpending hresponses => ?_
      news := fun d' js hloaded hnews => ?_
      swap := fun i j js ks hi hj => ?_
      filter := d.takeAll_filter is
      session := fun c c' n h hd => h.dialog? hd
      delivered := fun c n k bytes hk hd hr his => ?_ }
  · have hmatch := d'.takeAll_eq_matchAll js
    rw [hpending, hresponses, ← d.takeAll_eq_matchAll is] at hmatch
    exact Prod.mk.inj hmatch
  · rw [Dialog.loaded_takeAll, Dialog.loaded_takeAll, hloaded, hnews]
  · obtain ⟨r, hr⟩ := Option.isSome_iff_exists.mp hi
    obtain ⟨news, hn⟩ := Option.isSome_iff_exists.mp hj
    constructor
    · rintro rfl
      exact (Dialog.takeAll_swap hr hn d js ks).symm
    · rintro rfl
      exact Dialog.takeAll_swap hr hn d js ks
  · rw [his, ← hd]
    exact Client.receive_eq hk hr bytes

/-- Loading starts, a request is answered, an answer comes without the number of its request, and a file is opened. -/
theorem messages_demultiplexed_opened :
    let d : Dialog := ⟨true, true, 2, [(1, 0)]⟩
    let started : Dialog.Input := .message (.obj [("event", .str "projectLoadingStart"), ("type", .str "event")])
    let answered : Dialog.Input :=
      .message (.obj [("request_seq", .nat 1), ("success", .bool true), ("type", .str "response")])
    let stray : Dialog.Input := .message (.obj [("success", .bool true), ("type", .str "response")])
    (d.takeAll [started, answered, stray]).1.loaded = false ∧
      (d.takeAll [started, answered, stray, .opening, .opened]).1.loaded = true ∧
      d.takeAll [answered, started, stray] = d.takeAll [started, answered, stray] ∧
      d.takeAll [started, answered] = d.takeAll [started, answered, stray] := by
  intro d started answered stray
  have h := messages_demultiplexed.1 d [started, answered, stray]
  have hopened := messages_demultiplexed.1 d [started, answered, stray, .opening, .opened]
  exact ⟨h.loaded, hopened.loaded, (h.swap answered started [] [stray] rfl rfl).2 rfl, h.filter⟩

end Refactor
