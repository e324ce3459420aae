import Mathlib.Data.List.Nodup
import Refactor.Proofs.Traffic

/-!
# Tickets and the history

What is remembered of the moves so far tells what has become of every call: a request
that was registered waits for its line to be sent and for the first answer with its
number, and when it is settled this is by that answer, by the end of its time, or
because its line could not be sent.

* `Sound`: what holds after any moves. The pending requests of a session are the tickets
  that wait for an answer (`Waits`), and the fate of a request follows from the marks
  since it was registered (`Fate`);
* `eq_of_numbered`: a number of a session belongs to one call;
* `settle`, `settle_answered`: settling a ticket, pending or not, keeps all that;
* `answer`, `heard_unknown`: so does an answer, awaited or not.
-/

namespace Refactor

namespace Traffic

namespace Mark

/-- The ticket of a call. -/
def ticket? : Mark → Option Nat
  | called id _ => some id
  | _ => none

/-- A number that a session gave out. -/
def number? (n : Nat) : Mark → Option Nat
  | numbered m seq _ => if m = n then some seq else none
  | _ => none

/-- An answer with a number that a session took. -/
def answer? (n seq : Nat) : Mark → Option Response
  | heard m r => if m = n ∧ r.requestSeq = seq then some r else none
  | _ => none

/-- The session of a mark. -/
def session? : Mark → Option Nat
  | called _ _ => none
  | numbered n _ _ | registered n _ _ _ | heard n _ => some n

end Mark

/-! ## First answers -/

/-- The first answer with a number that a session took, among the latest marks. -/
def firstAnswer? (n seq : Nat) (later : List Mark) : Option Response := (later.filterMap (Mark.answer? n seq)).getLast?

section

variable {n seq id : Nat} {command : String} {later : List Mark} {mark : Mark} {r : Response}

theorem firstAnswer?_cons_of_none (h : mark.answer? n seq = none) :
    firstAnswer? n seq (mark :: later) = firstAnswer? n seq later := by
  rw [firstAnswer?, List.filterMap_cons_none h, firstAnswer?]

theorem firstAnswer?_cons_of_some (h : firstAnswer? n seq later = some r) :
    firstAnswer? n seq (mark :: later) = some r := by
  cases hm : mark.answer? n seq with
  | none => rw [firstAnswer?_cons_of_none hm, h]
  | some r' =>
    rw [firstAnswer?] at h ⊢
    rw [List.filterMap_cons_some hm, List.getLast?_cons, h]
    rfl

theorem firstAnswer?_heard (h : firstAnswer? n r.requestSeq later = none) :
    firstAnswer? n r.requestSeq (.heard n r :: later) = some r := by
  have hm : (Mark.heard n r).answer? n r.requestSeq = some r := by simp [Mark.answer?]
  rw [firstAnswer?, List.getLast?_eq_none_iff] at h
  rw [firstAnswer?, List.filterMap_cons_some hm, h]
  rfl

/-- What a registered request can come to, after the marks since then: the end of its time, a line that could not be
sent, or the first answer. -/
def Explained (settings : ServerSettings) (later : List Mark) (n seq : Nat) (command : String)
    (result : Attempt (Option Json)) : Prop :=
  result = .error (.timeout command settings.requestTimeoutMs) ∨ result = .error (.sessionClosed command) ∨
    ∃ r, firstAnswer? n seq later = some r ∧ result = Client.resultOf command r

theorem Explained.cons {settings : ServerSettings} {result : Attempt (Option Json)}
    (h : Explained settings later n seq command result) (mark : Mark) :
    Explained settings (mark :: later) n seq command result :=
  h.imp_right fun h => h.imp_right fun ⟨r, hr, he⟩ => ⟨r, firstAnswer?_cons_of_some hr, he⟩

/-- A request that was registered before the latest marks is a ticket with the answer so far, or is settled. -/
def Fate (s : Traffic) (later : List Mark) (n seq id : Nat) (command : String) : Prop :=
  (∃ t ∈ s.client.tickets, t.id = id ∧ t.isRequest = true ∧ t.connection = n ∧ t.seq = seq ∧ t.command = command ∧
    t.early = firstAnswer? n seq later) ∨
  ∃ result, (id, result) ∈ s.client.settled ∧ Explained s.client.settings later n seq command result

theorem Fate.cons {s : Traffic} (h : s.Fate later n seq id command) (hm : mark.answer? n seq = none) :
    s.Fate (mark :: later) n seq id command := by
  rcases h with h | ⟨result, hr, he⟩
  · rw [← firstAnswer?_cons_of_none hm] at h
    exact .inl h
  · exact .inr ⟨result, hr, he.cons mark⟩

/-- The latest mark comes after all others. -/
theorem split_cons {mark' : Mark} {history earlier : List Mark} (h : mark :: history = later ++ mark' :: earlier)
    (hne : mark ≠ mark') : ∃ rest, later = mark :: rest ∧ history = rest ++ mark' :: earlier := by
  rcases List.cons_eq_append_iff.mp h with ⟨-, hfirst⟩ | ⟨rest, hlater, hrest⟩
  · exact absurd (List.cons.inj hfirst).1.symm hne
  · exact ⟨rest, hlater, hrest⟩

end

/-! ## What holds after any moves -/

/-- Among the tickets is a request with a number of a session that has no answer yet. -/
def Waits (tickets : List Ticket) (n seq id : Nat) : Prop :=
  ∃ t ∈ tickets, t.id = id ∧ t.connection = n ∧ t.seq = seq ∧ t.isRequest = true ∧ t.early = none

theorem waits_filter (ts : List Ticket) (id' n seq id : Nat) :
    Waits (ts.filter (·.id ≠ id')) n seq id ↔ Waits ts n seq id ∧ id ≠ id' := by
  constructor
  · rintro ⟨t, ht, rfl, hrest⟩
    obtain ⟨ht, hne⟩ := List.mem_filter.mp ht
    exact ⟨⟨t, ht, rfl, hrest⟩, of_decide_eq_true hne⟩
  · rintro ⟨⟨t, ht, rfl, hrest⟩, hne⟩
    exact ⟨t, List.mem_filter.mpr ⟨ht, decide_eq_true hne⟩, rfl, hrest⟩

/-- What holds of a client, the calls on their way and the history after any moves. -/
structure Sound (s : Traffic) : Prop where
  keys : s.client.keys = (List.range s.client.nextConnection).reverse
  /-- Every call is on its way, or has a ticket, or is settled, and that once. -/
  ids : (s.calls.map (·.id) ++ (s.client.tickets.map (·.id) ++ s.client.settled.map (·.1))).Perm
    (List.range s.client.nextTicket)
  called : s.history.filterMap Mark.ticket? = (List.range s.client.nextTicket).reverse
  asked : ∀ id, .called id true ∈ s.history → (∃ a ∈ s.calls, a.id = id ∧ a.isRequest = true) ∨
    (id, .error .notRunning) ∈ s.client.settled ∨ ∃ n seq command, .registered n seq id command ∈ s.history
  placed : ∀ mark ∈ s.history, ∀ n, mark.session? = some n → s.client.dialog? n ≠ none
  numbers : ∀ n d, s.client.dialog? n = some d →
    1 ≤ d.nextSeq ∧ s.history.filterMap (Mark.number? n) = (List.range' 1 (d.nextSeq - 1)).reverse
  numbered : ∀ a ∈ s.calls, ∀ seq, a.seq = some seq → .numbered a.connection seq a.id ∈ s.history
  carried : ∀ t ∈ s.client.tickets, .numbered t.connection t.seq t.id ∈ s.history
  owned : ∀ n seq id command, .registered n seq id command ∈ s.history → .numbered n seq id ∈ s.history
  registered : ∀ t ∈ s.client.tickets, t.isRequest = true → .registered t.connection t.seq t.id t.command ∈ s.history
  pending : ∀ n d, s.client.dialog? n = some d → (d.pending.map (·.1)).Nodup ∧
    ∀ seq id, (seq, id) ∈ d.pending ↔ Waits s.client.tickets n seq id
  fate : ∀ later n seq id command earlier, s.history = later ++ .registered n seq id command :: earlier →
    s.Fate later n seq id command

end Traffic

theorem eq_of_filterMap_nodup {α β : Type} {f : α → Option β} {l : List α} (h : (l.filterMap f).Nodup) {a b : α} {x : β}
    (ha : a ∈ l) (hb : b ∈ l) (hfa : f a = some x) (hfb : f b = some x) : a = b := by
  obtain ⟨l₁, l₂, rfl⟩ := List.append_of_mem ha
  rw [List.filterMap_append, List.filterMap_cons_some hfa, List.nodup_middle, List.nodup_cons,
    ← List.filterMap_append] at h
  rw [List.mem_append, List.mem_cons] at hb
  rcases hb with hb | rfl | hb
  · exact absurd (List.mem_filterMap.mpr ⟨b, List.mem_append_left _ hb, hfb⟩) h.1
  · rfl
  · exact absurd (List.mem_filterMap.mpr ⟨b, List.mem_append_right _ hb, hfb⟩) h.1

/-- One of several things that are told apart by their numbers, and the others. -/
theorem perm_cons_filter_ne {α : Type} {f : α → Nat} {l : List α} {a : α} (h : (l.map f).Nodup) (ha : a ∈ l) :
    (f a :: (l.filter fun b => f b ≠ f a).map f).Perm (l.map f) := by
  have hfilter : (l.filter fun b => f b ≠ f a).map f = (l.map f).erase (f a) := by
    rw [h.erase_eq_filter, List.filter_map]
    congr 1
    refine List.filter_congr fun b _ => ?_
    rw [Bool.eq_iff_iff]
    simp
  rw [hfilter]
  exact (List.perm_cons_erase (List.mem_map_of_mem ha)).symm

namespace Traffic.Sound

variable {s : Traffic}

section

variable (h : Sound s)
include h

theorem nodup_keys : s.client.keys.Nodup := by
  rw [h.keys, List.nodup_reverse]
  exact List.nodup_range

theorem nodup_ids : (s.calls.map (·.id) ++ (s.client.tickets.map (·.id) ++ s.client.settled.map (·.1))).Nodup :=
  h.ids.nodup_iff.mpr List.nodup_range

theorem eq_of_call_id {a b : Call} (ha : a ∈ s.calls) (hb : b ∈ s.calls) (he : a.id = b.id) : a = b :=
  List.inj_on_of_nodup_map h.nodup_ids.of_append_left ha hb he

theorem eq_of_ticket_id {t u : Ticket} (ht : t ∈ s.client.tickets) (hu : u ∈ s.client.tickets) (he : t.id = u.id) :
    t = u :=
  List.inj_on_of_nodup_map h.nodup_ids.of_append_right.of_append_left ht hu he

theorem ticket_ne_call {t : Ticket} {a : Call} (ht : t ∈ s.client.tickets) (ha : a ∈ s.calls) : t.id ≠ a.id := by
  have hdisjoint := List.disjoint_of_nodup_append h.nodup_ids (List.mem_map_of_mem ha)
  intro he
  exact hdisjoint (he ▸ List.mem_append_left _ (List.mem_map_of_mem ht))

theorem ticket_not_settled {t : Ticket} (ht : t ∈ s.client.tickets) (result : Attempt (Option Json)) :
    (t.id, result) ∉ s.client.settled := fun hr =>
  List.disjoint_of_nodup_append h.nodup_ids.of_append_right (List.mem_map_of_mem ht) (List.mem_map_of_mem hr)

theorem find_ticket {t : Ticket} (ht : t ∈ s.client.tickets) : s.client.tickets.find? (·.id == t.id) = some t := by
  cases hf : s.client.tickets.find? (·.id == t.id) with
  | none => exact absurd BEq.rfl (List.find?_eq_none.mp hf t ht)
  | some u => rw [h.eq_of_ticket_id (List.mem_of_find?_eq_some hf) ht (by simpa using List.find?_some hf)]

/-- A number of a session belongs to one call. -/
theorem eq_of_numbered {n seq i j : Nat} (hi : .numbered n seq i ∈ s.history) (hj : .numbered n seq j ∈ s.history) :
    i = j := by
  obtain ⟨d, hd⟩ := Option.ne_none_iff_exists'.mp (h.placed _ hi n rfl)
  have hnodup : (s.history.filterMap (Mark.number? n)).Nodup := by
    rw [(h.numbers n d hd).2, List.nodup_reverse]
    exact List.nodup_range'
  have hsame := @eq_of_filterMap_nodup _ _ _ _ hnodup _ _ seq hi hj (by simp [Mark.number?]) (by simp [Mark.number?])
  exact (Mark.numbered.inj hsame).2.2

theorem eq_of_seq {t u : Ticket} (ht : t ∈ s.client.tickets) (hu : u ∈ s.client.tickets)
    (hn : t.connection = u.connection) (hseq : t.seq = u.seq) : t = u := by
  have hnumber := h.carried u hu
  rw [← hn, ← hseq] at hnumber
  exact h.eq_of_ticket_id ht hu (h.eq_of_numbered (h.carried t ht) hnumber)

/-- A number under which a request is pending leads to its ticket. -/
theorem ticket_of_pending {n seq id : Nat} {d : Dialog} (hd : s.client.dialog? n = some d)
    (hl : d.pending.lookup seq = some id) : ∃ t ∈ s.client.tickets, t.id = id ∧ t.connection = n ∧ t.seq = seq ∧
      t.isRequest = true ∧ t.early = none := by
  obtain ⟨l₁, l₂, hsplit, -⟩ := List.lookup_eq_some_iff.mp hl
  refine ((h.pending n d hd).2 seq id).mp ?_
  rw [hsplit]
  exact List.mem_append_right _ List.mem_cons_self

/-- A request that is not settled is the ticket that it was registered with. -/
theorem fate_of_ticket {t : Ticket} (ht : t ∈ s.client.tickets) {later earlier : List Mark} {n seq : Nat}
    {command : String} (hs : s.history = later ++ .registered n seq t.id command :: earlier) :
    t.isRequest = true ∧ t.connection = n ∧ t.seq = seq ∧ t.command = command ∧ t.early = firstAnswer? n seq later := by
  rcases h.fate _ _ _ _ _ _ hs with ⟨u, hu, hid, hrest⟩ | ⟨result, hr, -⟩
  · rwa [h.eq_of_ticket_id hu ht hid] at hrest
  · exact absurd hr (h.ticket_not_settled ht result)

/-! Parts of `Sound` under one more mark or a changed dialog -/

theorem asked_cons {mark : Mark} {id : Nat} (hid : .called id true ∈ mark :: s.history)
    (hm : mark ≠ .called id true) : (∃ a ∈ s.calls, a.id = id ∧ a.isRequest = true) ∨
      (id, .error .notRunning) ∈ s.client.settled ∨
        ∃ n seq command, .registered n seq id command ∈ mark :: s.history := by
  rcases List.mem_cons.mp hid with hid | hid
  · exact absurd hid.symm hm
  · exact (h.asked id hid).imp_right (.imp_right fun ⟨n, seq, command, hr⟩ => ⟨n, seq, command, .tail _ hr⟩)

theorem owned_cons {mark : Mark} (hm : ∀ n seq id command, mark ≠ .registered n seq id command) (n seq id : Nat)
    (command : String) (hr : .registered n seq id command ∈ mark :: s.history) :
    .numbered n seq id ∈ mark :: s.history := by
  rcases List.mem_cons.mp hr with hr | hr
  · exact absurd hr.symm (hm n seq id command)
  · exact .tail _ (h.owned n seq id command hr)

theorem placed_updateDialog (n : Nat) (f : Dialog → Dialog) {mark : Mark} (hm : mark ∈ s.history) {m : Nat}
    (hs : mark.session? = some m) : (s.client.updateDialog n f).dialog? m ≠ none :=
  mt Client.dialog?_updateDialog_eq_none.mp (h.placed mark hm m hs)

theorem numbers_updateDialog {n : Nat} {f : Dialog → Dialog} (hf : ∀ d, (f d).nextSeq = d.nextSeq) {m : Nat} {d : Dialog}
    (hd : (s.client.updateDialog n f).dialog? m = some d) :
    1 ≤ d.nextSeq ∧ s.history.filterMap (Mark.number? m) = (List.range' 1 (d.nextSeq - 1)).reverse := by
  obtain ⟨d₀, hd₀, rfl⟩ := Client.dialog?_updateDialog_eq_some hd
  have := h.numbers m d₀ hd₀
  split
  · rwa [hf]
  · exact this

end

/-! ## Settling -/

/-- The pending requests without the number of a ticket are those that wait but for the ticket. -/
theorem pending_forget (h : Sound s) {t : Ticket} (ht : t ∈ s.client.tickets) {n : Nat} {d : Dialog}
    (hd : (s.client.updateDialog t.connection (·.forget t.seq)).dialog? n = some d) :
    (d.pending.map (·.1)).Nodup ∧
      ∀ seq id, (seq, id) ∈ d.pending ↔ Waits s.client.tickets n seq id ∧ id ≠ t.id := by
  obtain ⟨d₀, hd₀, rfl⟩ := Client.dialog?_updateDialog_eq_some hd
  obtain ⟨hkeys, hmem⟩ := h.pending n d₀ hd₀
  by_cases hn : n = t.connection
  · rw [if_pos hn, Dialog.forget]
    refine ⟨hkeys.sublist (List.filter_sublist.map _), fun seq id => ?_⟩
    rw [List.mem_filter, hmem, decide_eq_true_iff]
    refine and_congr_right ?_
    rintro ⟨u, hu, rfl, hun, rfl, -⟩
    -- Tickets of one session are told apart by their numbers as well.
    refine not_congr ⟨fun he => ?_, fun he => ?_⟩
    · rw [h.eq_of_seq hu ht (hun.trans hn) he]
    · rw [h.eq_of_ticket_id hu ht he]
  · rw [if_neg hn]
    refine ⟨hkeys, fun seq id => ?_⟩
    rw [hmem, iff_self_and]
    rintro ⟨u, hu, rfl, hun, -⟩ he
    exact hn (hun.symm.trans (congrArg _ (h.eq_of_ticket_id hu ht he)))

/-- Settling a ticket and forgetting its number. -/
theorem settle (h : Sound s) {t : Ticket} (ht : t ∈ s.client.tickets) {result : Attempt (Option Json)}
    (hr : t.isRequest = true → ∀ later earlier,
      s.history = later ++ .registered t.connection t.seq t.id t.command :: earlier →
        Explained s.client.settings later t.connection t.seq t.command result) :
    Sound { s with client := (s.client.updateDialog t.connection (·.forget t.seq)).settle t.id result } where
  keys := (Client.keys_updateDialog s.client t.connection (·.forget t.seq)).trans h.keys
  ids := by
    refine (List.Perm.append_left _ ?_).trans h.ids
    have htickets := perm_cons_filter_ne h.nodup_ids.of_append_right.of_append_left ht
    exact List.perm_middle.trans (htickets.append_right _)
  called := h.called
  asked := fun id hid => (h.asked id hid).imp_right (.imp_left (.tail _))
  placed := fun _ hm _ hs => h.placed_updateDialog t.connection (·.forget t.seq) hm hs
  numbers := fun _ _ => @numbers_updateDialog s h t.connection (·.forget t.seq) (fun _ => rfl) _ _
  numbered := h.numbered
  carried := fun u hu => h.carried u (List.mem_of_mem_filter hu)
  owned := h.owned
  registered := fun u hu => h.registered u (List.mem_of_mem_filter hu)
  pending := fun n d hd => by
    obtain ⟨hkeys, hmem⟩ := h.pending_forget ht hd
    exact ⟨hkeys, fun seq id => (hmem seq id).trans (waits_filter s.client.tickets t.id n seq id).symm⟩
  fate := fun later n seq id command earlier hs => by
    rcases h.fate later n seq id command earlier hs with ⟨u, hu, rfl, hfields⟩ | ⟨res, hres, hex⟩
    · by_cases he : u.id = t.id
      · obtain rfl := h.eq_of_ticket_id hu ht he
        obtain ⟨hreq, rfl, rfl, rfl, -⟩ := hfields
        exact .inr ⟨result, List.mem_cons_self, hr hreq later earlier hs⟩
      · exact .inl ⟨u, List.mem_filter.mpr ⟨hu, by simpa using he⟩, rfl, hfields⟩
    · exact .inr ⟨res, .tail _ hres, hex⟩

theorem updateDialog_forget (h : Sound s) {n seq : Nat} (hw : ∀ id, ¬ Waits s.client.tickets n seq id) :
    s.client.updateDialog n (·.forget seq) = s.client := by
  refine Client.updateDialog_eq_self h.nodup_keys fun d hd => ?_
  have hfilter : d.pending.filter (fun p => p.1 ≠ seq) = d.pending := by
    rw [List.filter_eq_self]
    rintro ⟨seq', id⟩ hp
    rw [decide_eq_true_iff]
    rintro rfl
    exact hw id (((h.pending n d hd).2 _ _).mp hp)
  rw [Dialog.forget, hfilter]

/-- Settling a ticket that is not pending. -/
theorem settle_answered (h : Sound s) {t : Ticket} (ht : t ∈ s.client.tickets) {result : Attempt (Option Json)}
    (hw : t.isRequest = true → t.early ≠ none)
    (hr : t.isRequest = true → ∀ later earlier,
      s.history = later ++ .registered t.connection t.seq t.id t.command :: earlier →
        Explained s.client.settings later t.connection t.seq t.command result) :
    Sound { s with client := s.client.settle t.id result } := by
  have hsound := h.settle ht hr
  rwa [h.updateDialog_forget] at hsound
  rintro id ⟨u, hu, -, hn, hseq, hreq, hearly⟩
  obtain rfl := h.eq_of_seq hu ht hn hseq
  exact hw hreq hearly

/-! ## Answers -/

/-- An answer that nobody waits for. -/
theorem heard_unknown (h : Sound s) {n : Nat} {r : Response} (hd : s.client.dialog? n ≠ none)
    (hw : ∀ id, ¬ Waits s.client.tickets n r.requestSeq id) : Sound { s with history := .heard n r :: s.history } :=
  { h with
    asked := fun _ hid => h.asked_cons hid nofun
    placed := List.forall_mem_cons.mpr ⟨fun _ hs => Option.some.inj hs ▸ hd, h.placed⟩
    numbered := fun a ha seq hseq => .tail _ (h.numbered a ha seq hseq)
    carried := fun t ht => .tail _ (h.carried t ht)
    owned := h.owned_cons nofun
    registered := fun t ht hreq => .tail _ (h.registered t ht hreq)
    fate := fun later m seq id command earlier hs => by
      obtain ⟨rest, rfl, hrest⟩ := split_cons hs nofun
      have hfate := h.fate rest m seq id command earlier hrest
      cases hanswer : (Mark.heard n r).answer? m seq with
      | none => exact hfate.cons hanswer
      | some r' =>
        obtain ⟨⟨rfl, rfl⟩, rfl⟩ : (n = m ∧ r.requestSeq = seq) ∧ r = r' := by simpa [Mark.answer?] using hanswer
        rcases hfate with ⟨t, ht, hid, hreq, hn, hseq, hcmd, hearly⟩ | ⟨res, hres, hex⟩
        · cases hfirst : firstAnswer? n r.requestSeq rest with
          | none => exact absurd ⟨t, ht, hid, hn, hseq, hreq, hearly.trans hfirst⟩ (hw id)
          | some r' =>
            exact .inl ⟨t, ht, hid, hreq, hn, hseq, hcmd, by rw [hearly, hfirst, firstAnswer?_cons_of_some hfirst]⟩
        · exact .inr ⟨res, hres, hex.cons _⟩ }

end Traffic.Sound

/-- A ticket with an early answer, if it is the one with the number `id`. -/
def Ticket.answered (id : Nat) (r : Response) (t : Ticket) : Ticket := if t.id = id then { t with early := some r } else t

namespace Ticket

variable (id : Nat) (r : Response) (t : Ticket)

@[simp] theorem id_answered : (t.answered id r).id = t.id := by rw [answered]; split <;> rfl

@[simp] theorem connection_answered : (t.answered id r).connection = t.connection := by rw [answered]; split <;> rfl

@[simp] theorem seq_answered : (t.answered id r).seq = t.seq := by rw [answered]; split <;> rfl

@[simp] theorem command_answered : (t.answered id r).command = t.command := by rw [answered]; split <;> rfl

@[simp] theorem isRequest_answered : (t.answered id r).isRequest = t.isRequest := by rw [answered]; split <;> rfl

theorem early_answered : (t.answered id r).early = if t.id = id then some r else t.early := by rw [answered]; split <;> rfl

theorem map_id_answered (ts : List Ticket) : (ts.map (answered id r)).map (·.id) = ts.map (·.id) := by
  rw [List.map_map]
  exact List.map_congr_left fun t _ => id_answered id r t

theorem filter_answered (ts : List Ticket) : (ts.map (answered id r)).filter (·.id ≠ id) = ts.filter (·.id ≠ id) := by
  have hp : (fun t : Ticket => decide (t.id ≠ id)) ∘ answered id r = fun t => decide (t.id ≠ id) := by
    funext t
    simp
  rw [List.filter_map, hp]
  refine (List.map_congr_left fun t ht => ?_).trans (List.map_id _)
  exact if_neg (by simpa using (List.mem_filter.mp ht).2)

end Ticket

namespace Traffic.Sound

variable {s : Traffic}

theorem waits_answered (ts : List Ticket) (id' : Nat) (r : Response) (n seq id : Nat) :
    Waits (ts.map (Ticket.answered id' r)) n seq id ↔ Waits ts n seq id ∧ id ≠ id' := by
  constructor
  · rintro ⟨u, hu, hid, hn, hseq, hreq, he⟩
    obtain ⟨t, ht, rfl⟩ := List.mem_map.mp hu
    rw [Ticket.id_answered] at hid
    rw [Ticket.connection_answered] at hn
    rw [Ticket.seq_answered] at hseq
    rw [Ticket.isRequest_answered] at hreq
    rw [Ticket.early_answered] at he
    split at he
    · cases he
    · rename_i hne
      exact ⟨⟨t, ht, hid, hn, hseq, hreq, he⟩, hid ▸ hne⟩
  · rintro ⟨⟨t, ht, rfl, hrest⟩, hne⟩
    refine ⟨_, List.mem_map_of_mem ht, ?_⟩
    simpa [Ticket.early_answered, hne] using hrest

/-- An answer to a request that waits for it. -/
theorem answer (h : Sound s) {r : Response} {t : Ticket} (ht : t ∈ s.client.tickets) (hearly : t.early = none)
    (hseq : t.seq = r.requestSeq) (hd : s.client.dialog? t.connection ≠ none) :
    Sound
      { client := { s.client.updateDialog t.connection (·.forget t.seq) with
          tickets := s.client.tickets.map (Ticket.answered t.id r) }
        calls := s.calls
        history := .heard t.connection r :: s.history } where
  keys := (Client.keys_updateDialog s.client t.connection (·.forget t.seq)).trans h.keys
  ids := by
    dsimp only
    rw [Ticket.map_id_answered]
    exact h.ids
  called := h.called
  asked := fun _ hid => h.asked_cons hid nofun
  placed := List.forall_mem_cons.mpr
    ⟨fun _ hs => Option.some.inj hs ▸ mt (@Client.dialog?_updateDialog_eq_none _ _ _ (·.forget t.seq)).mp hd,
      fun _ hm _ hs => h.placed_updateDialog t.connection (·.forget t.seq) hm hs⟩
  numbers := fun _ _ => @numbers_updateDialog s h t.connection (·.forget t.seq) (fun _ => rfl) _ _
  numbered := fun a ha seq hseq => .tail _ (h.numbered a ha seq hseq)
  carried := List.forall_mem_map.mpr fun u hu => by simpa using h.carried u hu
  owned := h.owned_cons nofun
  registered := List.forall_mem_map.mpr fun u hu => by simpa using h.registered u hu
  pending := fun n d hd => by
    obtain ⟨hkeys, hmem⟩ := h.pending_forget ht hd
    exact ⟨hkeys, fun seq id => (hmem seq id).trans (waits_answered s.client.tickets t.id r n seq id).symm⟩
  fate := fun later n seq id command earlier hs => by
    obtain ⟨rest, rfl, hrest⟩ := split_cons hs nofun
    rcases h.fate rest n seq id command earlier hrest with ⟨u, hu, rfl, hureq, rfl, rfl, rfl, hfirst⟩ | ⟨res, hres, hex⟩
    · refine .inl ⟨_, List.mem_map_of_mem hu, by simp, by simpa using hureq, by simp, by simp, by simp, ?_⟩
      rw [Ticket.early_answered]
      by_cases hut : u.id = t.id
      · -- The ticket that waited had no answer before.
        obtain rfl := h.eq_of_ticket_id hu ht hut
        rw [hearly, hseq] at hfirst
        rw [if_pos rfl, hseq, firstAnswer?_heard hfirst.symm]
      · rw [if_neg hut, firstAnswer?_cons_of_none, hfirst]
        refine if_neg fun hsame => hut (congrArg _ ?_)
        exact h.eq_of_seq hu ht hsame.1.symm (hsame.2.symm.trans hseq.symm)
    · exact .inr ⟨res, hres, hex.cons _⟩

end Traffic.Sound

end Refactor
