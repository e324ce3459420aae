import Refactor.Proofs.Operations

/-!
# Requests are settled once, and by their own answers

After any moves, in particular after anything that is done with a client, each request is settled
at most once, and an answer settles it only if it is the first one with the number of the request
that the session of the request took since then.

* `Settlement`: what the history and the client tell of each other;
* `Sound.settlement`: it holds after any moves;
* `settled_suffix_run`: what is settled stays so.
-/

namespace Refactor

namespace Client

/-- The moves of operations, one after the other. -/
def movesOfAll : Client → List Operation → List Traffic.Move
  | _, [] => []
  | c, o :: os => c.moves o ++ movesOfAll (c.perform o) os

/-! ## What is settled stays so -/

theorem settled_suffix_settle (c : Client) (ticket : Nat) (result : Attempt (Option Json)) :
    c.settled <:+ (c.settle ticket result).settled :=
  List.suffix_cons _ _

theorem settled_suffix_deliver (c : Client) (ticket : Nat) (r : Response) : c.settled <:+ (c.deliver ticket r).settled := by
  rw [deliver]
  split
  · split
    · exact settled_suffix_settle ..
    · exact List.suffix_refl _
  · exact List.suffix_refl _

theorem settled_suffix_enqueued (c : Client) (ticket : Nat) : c.settled <:+ (c.enqueued ticket).settled := by
  rw [enqueued]
  split
  · split
    · exact settled_suffix_settle ..
    · split
      · exact settled_suffix_settle ..
      · exact List.suffix_refl _
  · exact List.suffix_refl _

theorem settled_suffix_turnedAway (c : Client) (ticket : Nat) : c.settled <:+ (c.turnedAway ticket).settled := by
  rw [turnedAway]
  split
  · exact settled_suffix_settle ..
  · exact List.suffix_refl _

theorem settled_suffix_timeOut (c : Client) (ticket : Nat) : c.settled <:+ (c.timeOut ticket).settled := by
  rw [timeOut]
  split
  · exact settled_suffix_settle ..
  · exact List.suffix_refl _

theorem settled_suffix_hear (c : Client) (n : Nat) (message : Json) : c.settled <:+ (c.hear n message).settled := by
  rw [hear]
  split
  · rename_i d _
    cases (d.dispatch message).2 with
    | none => exact List.suffix_refl _
    | some a => exact settled_suffix_deliver (c.updateDialog n _) a.1 a.2
  · exact List.suffix_refl _

end Client

namespace Traffic

variable {s : Traffic}

theorem settled_suffix_move (s : Traffic) (m : Move) : s.client.settled <:+ (s.move m).client.settled := by
  cases m with
  | connect root streams => exact List.suffix_refl _
  | disconnect => exact List.suffix_refl _
  | call isRequest command =>
    rw [move, call]
    dsimp only
    split
    · exact List.suffix_refl _
    · exact List.suffix_cons _ _
  | refuse id =>
    rw [move, refuse]
    split
    · split
      · exact List.suffix_cons _ _
      · exact List.suffix_refl _
    · exact List.suffix_refl _
  | number id =>
    rw [move, number]
    split
    · split <;> exact List.suffix_refl _
    · exact List.suffix_refl _
  | enter id =>
    rw [move, enter]
    split
    · split
      · dsimp only
        split <;> exact List.suffix_refl _
      · exact List.suffix_refl _
    · exact List.suffix_refl _
  | enqueue id => exact s.client.settled_suffix_enqueued id
  | fail id => exact s.client.settled_suffix_turnedAway id
  | timeOut id => exact s.client.settled_suffix_timeOut id
  | hear n message =>
    rw [move, client_hear]
    exact s.client.settled_suffix_hear n message
  | load n => exact List.suffix_refl _
  | tend n k =>
    rw [move, Client.tend]
    split <;> exact List.suffix_refl _
  | tick ms => exact List.suffix_refl _

theorem settled_suffix_run (s : Traffic) (moves : List Move) : s.client.settled <:+ (s.run moves).client.settled := by
  induction moves generalizing s with
  | nil => exact List.suffix_refl _
  | cons m moves ih => exact (s.settled_suffix_move m).trans (ih _)

/-! ## What the history tells -/

/-- What the history and the client tell of each other. -/
structure Settlement (s : Traffic) : Prop where
  /-- Every call is on its way, or has a ticket, or is settled, and that once. -/
  once : (s.calls.map (·.id) ++ (s.client.tickets.map (·.id) ++ s.client.settled.map (·.1))).Perm
    (s.history.filterMap Mark.ticket?)
  /-- No two calls have the same ticket. -/
  calls : (s.history.filterMap Mark.ticket?).Nodup
  /-- A request is not settled before it is registered, unless there is no session. -/
  asked : ∀ id result, .called id true ∈ s.history → (id, result) ∈ s.client.settled →
    result = .error .notRunning ∨ ∃ n seq command, .registered n seq id command ∈ s.history
  /-- A registered request is settled by the end of its time, by a line that could not be sent, or by the first answer
  with its number that its session took since then. -/
  matched : ∀ later n seq id command earlier result, s.history = later ++ .registered n seq id command :: earlier →
    (id, result) ∈ s.client.settled → Explained s.client.settings later n seq command result
  /-- A session takes nothing that settles a request of another one. -/
  own : ∀ n message id result, (id, result) ∈ (s.hear n message).client.settled → (id, result) ∉ s.client.settled →
    ∃ r command, Inbound.decode message = .ok (.response r) ∧ .registered n r.requestSeq id command ∈ s.history ∧
      result = Client.resultOf command r
  /-- The numbers of a session are 1, 2, 3 and so on. -/
  numbers : ∀ n, ∃ count, (s.history.filterMap (Mark.number? n)).reverse = List.range' 1 count
  /-- A request is registered under the number that it got. -/
  registered : ∀ n seq id command, .registered n seq id command ∈ s.history → .numbered n seq id ∈ s.history
  /-- The pending requests of a session are those that were registered and have no answer, whose time is not over and
  whose lines could be sent. -/
  pending : ∀ n k, s.client.connections.lookup n = some k → (k.dialog.pending.map (·.1)).Nodup ∧
    ∀ seq, seq ∈ k.dialog.pending.map (·.1) ↔ ∃ later id command earlier,
      s.history = later ++ .registered n seq id command :: earlier ∧ firstAnswer? n seq later = none ∧
        (id, .error (.timeout command s.client.settings.requestTimeoutMs)) ∉ s.client.settled ∧
          (id, .error (.sessionClosed command)) ∉ s.client.settled

namespace Sound

section

variable (h : Sound s)
include h

theorem eq_of_settled {id : Nat} {r r' : Attempt (Option Json)} (hr : (id, r) ∈ s.client.settled)
    (hr' : (id, r') ∈ s.client.settled) : r = r' :=
  congrArg Prod.snd (List.inj_on_of_nodup_map h.nodup_ids.of_append_right.of_append_right hr hr' rfl)

theorem call_not_settled {a : Call} (ha : a ∈ s.calls) (result : Attempt (Option Json)) :
    (a.id, result) ∉ s.client.settled := fun hr =>
  List.disjoint_of_nodup_append h.nodup_ids (List.mem_map_of_mem ha)
    (List.mem_append_right _ (List.mem_map_of_mem hr))

theorem explained {later earlier : List Mark} {n seq id : Nat} {command : String} {result : Attempt (Option Json)}
    (hs : s.history = later ++ .registered n seq id command :: earlier) (hr : (id, result) ∈ s.client.settled) :
    Explained s.client.settings later n seq command result := by
  rcases h.fate _ _ _ _ _ _ hs with ⟨t, ht, rfl, -⟩ | ⟨result', hr', he⟩
  · exact absurd hr (h.ticket_not_settled ht result)
  · rwa [h.eq_of_settled hr hr']

theorem registered_of_settled {id : Nat} {result : Attempt (Option Json)} (hid : .called id true ∈ s.history)
    (hr : (id, result) ∈ s.client.settled) :
    result = .error .notRunning ∨ ∃ n seq command, .registered n seq id command ∈ s.history := by
  rcases h.asked id hid with ⟨a, ha, rfl, -⟩ | hr' | hm
  · exact absurd hr (h.call_not_settled ha result)
  · exact .inl (h.eq_of_settled hr hr')
  · exact .inr hm

theorem settled_hear {n id : Nat} {message : Json} {result : Attempt (Option Json)}
    (hr : (id, result) ∈ (s.hear n message).client.settled) (hold : (id, result) ∉ s.client.settled) :
    ∃ r command, Inbound.decode message = .ok (.response r) ∧ .registered n r.requestSeq id command ∈ s.history ∧
      result = Client.resultOf command r := by
  rw [client_hear, Client.hear] at hr
  split at hr
  case h_2 => exact absurd hr hold
  rename_i d hd
  by_cases hm : ∃ r, Inbound.decode message = .ok (.response r)
  · obtain ⟨r, hm⟩ := hm
    simp only [Dialog.dispatch_response hm] at hr
    cases hl : d.pending.lookup r.requestSeq with
    | none =>
      rw [hl] at hr
      exact absurd hr hold
    | some ticket =>
      -- The answer goes to the ticket that is pending under its number.
      obtain ⟨t, ht, rfl, rfl, hseq, hreq, -⟩ := h.ticket_of_pending hd hl
      have hfind : (s.client.updateDialog t.connection (·.forget r.requestSeq)).tickets.find? (·.id == t.id) = some t :=
        h.find_ticket ht
      rw [hl] at hr
      change (id, result) ∈ ((s.client.updateDialog t.connection (·.forget r.requestSeq)).deliver t.id r).settled at hr
      rw [Client.deliver, hfind] at hr
      dsimp only at hr
      split at hr
      · rcases List.mem_cons.mp hr with hr | hr
        · cases hr
          exact ⟨r, t.command, hm, hseq ▸ h.registered t ht hreq, rfl⟩
        · exact absurd hr hold
      · exact absurd hr hold
  · rw [(Dialog.dispatch_other (fun r hr => hm ⟨r, hr⟩) d).2.2] at hr
    exact absurd hr hold

theorem numbers_eq_range (n : Nat) : ∃ count, (s.history.filterMap (Mark.number? n)).reverse = List.range' 1 count := by
  cases hd : s.client.dialog? n with
  | some d => exact ⟨d.nextSeq - 1, by rw [(h.numbers n d hd).2, List.reverse_reverse]⟩
  | none =>
    refine ⟨0, ?_⟩
    rw [List.range'_zero, List.reverse_eq_nil_iff, List.filterMap_eq_nil_iff]
    intro mark hm
    cases mark with
    | numbered m seq id =>
      refine if_neg fun he => ?_
      exact h.placed _ hm n (congrArg some he) hd
    | called _ _ => rfl
    | registered _ _ _ _ => rfl
    | heard _ _ => rfl

theorem pending_iff {n seq : Nat} {d : Dialog} (hd : s.client.dialog? n = some d) :
    seq ∈ d.pending.map (·.1) ↔ ∃ later id command earlier,
      s.history = later ++ .registered n seq id command :: earlier ∧ firstAnswer? n seq later = none ∧
        (id, .error (.timeout command s.client.settings.requestTimeoutMs)) ∉ s.client.settled ∧
          (id, .error (.sessionClosed command)) ∉ s.client.settled := by
  obtain ⟨-, hmem⟩ := h.pending n d hd
  constructor
  · intro hseq
    obtain ⟨⟨_, id⟩, hid, rfl⟩ := List.mem_map.mp hseq
    obtain ⟨t, ht, rfl, rfl, rfl, hreq, hearly⟩ := (hmem _ _).mp hid
    obtain ⟨later, earlier, hs⟩ := List.append_of_mem (h.registered t ht hreq)
    obtain ⟨-, -, -, -, hfirst⟩ := h.fate_of_ticket ht hs
    exact ⟨later, t.id, t.command, earlier, hs, hfirst.symm.trans hearly, h.ticket_not_settled ht _,
      h.ticket_not_settled ht _⟩
  · rintro ⟨later, id, command, earlier, hs, hfirst, htime, hsend⟩
    rcases h.fate _ _ _ _ _ _ hs with ⟨t, ht, hid, hreq, hn, hseq, -, hearly⟩ | ⟨result, hr, he⟩
    · exact List.mem_map.mpr ⟨(seq, id), (hmem _ _).mpr ⟨t, ht, hid, hn, hseq, hreq, hearly.trans hfirst⟩, rfl⟩
    · -- What settled it is one of the two failures or an answer, and there is none of them.
      rcases he with rfl | rfl | ⟨r, hr', -⟩
      · exact absurd hr htime
      · exact absurd hr hsend
      · rw [hfirst] at hr'
        cases hr'

/-- What holds after any moves settles requests once and by their own answers. -/
theorem settlement : Settlement s where
  once := by
    rw [h.called]
    exact h.ids.trans (List.reverse_perm _).symm
  calls := by
    rw [h.called, List.nodup_reverse]
    exact List.nodup_range
  asked := fun _ _ => h.registered_of_settled
  matched := fun _ _ _ _ _ _ _ => h.explained
  own := fun _ _ _ _ => h.settled_hear
  numbers := h.numbers_eq_range
  registered := h.owned
  pending := fun n k hk =>
    ⟨(h.pending n k.dialog (Client.dialog?_of_lookup hk)).1, fun _ => h.pending_iff (Client.dialog?_of_lookup hk)⟩

end

end Sound

theorem does_performAll (c : Client) (os : List Operation) : Does c (c.movesOfAll os) (os.foldl Client.perform c) := by
  induction os generalizing c with
  | nil => exact .nil
  | cons o os ih => exact (does_perform c o).append (ih _)

end Traffic

open Traffic in
/-- Whatever is done with a client is a run of moves. Along any moves what is settled stays so, and after any moves each
request is settled at most once, by the first answer with its number in its own session if by an answer. -/
theorem requests_settled_once (settings : ServerSettings) :
    (∀ os, (run ⟨{ settings := settings }, [], []⟩ (Client.movesOfAll { settings := settings } os)).client =
      os.foldl Client.perform { settings := settings }) ∧
    (∀ moves more, (run ⟨{ settings := settings }, [], []⟩ moves).client.settled <:+
      (run ⟨{ settings := settings }, [], []⟩ (moves ++ more)).client.settled) ∧
    ∀ moves, Settlement (run ⟨{ settings := settings }, [], []⟩ moves) := by
  have hfresh := Sound.fresh settings
  refine ⟨fun os => does_performAll _ os _ hfresh rfl, fun moves more => ?_, fun moves => (hfresh.run moves).settlement⟩
  rw [run_append]
  exact settled_suffix_run _ more

end Refactor
