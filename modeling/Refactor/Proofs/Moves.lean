import Refactor.Proofs.Tickets

/-!
# Moves keep the history sound

Each move is shown to keep what is known of tickets and history, whatever the moves
before it were.

* `call`, `refuse`, `number`, `enter_request`, `enter_notification`: a call on its way;
* `connect`: a session gets a number that nothing was heard of before;
* `alike`: streams and times do not matter;
* `enqueue`, `fail`, `timeOut`, `hear`: the ways in which a ticket is settled;
* `Sound.run`: hence all of it holds after any moves.
-/

namespace Refactor

namespace Traffic

/-- A call with a number, if it is the one with the ticket `id`. -/
def Call.given (id seq : Nat) (a : Call) : Call := if a.id = id then { a with seq := some seq } else a

namespace Call

variable (id seq : Nat) (a : Call)

@[simp] theorem id_given : (a.given id seq).id = a.id := by rw [given]; split <;> rfl

@[simp] theorem connection_given : (a.given id seq).connection = a.connection := by rw [given]; split <;> rfl

@[simp] theorem isRequest_given : (a.given id seq).isRequest = a.isRequest := by rw [given]; split <;> rfl

theorem seq_given : (a.given id seq).seq = if a.id = id then some seq else a.seq := by rw [given]; split <;> rfl

end Call

namespace Sound

variable {s : Traffic}

/-! ## Calls -/

/-- A new call. -/
theorem call (h : Sound s) (n : Nat) (isRequest : Bool) (command : String) :
    Sound
      { client := { s.client with nextTicket := s.client.nextTicket + 1 }
        calls := ⟨s.client.nextTicket, n, command, isRequest, none⟩ :: s.calls
        history := .called s.client.nextTicket isRequest :: s.history } :=
  { h with
    ids := by
      dsimp only
      rw [List.range_succ]
      exact (h.ids.cons _).trans (List.perm_append_singleton _ _).symm
    called := by
      have hmark : (Mark.called s.client.nextTicket isRequest).ticket? = some s.client.nextTicket := rfl
      dsimp only
      rw [List.filterMap_cons_some hmark, h.called, List.range_succ, List.reverse_concat]
    asked := fun id hid => by
      rcases List.mem_cons.mp hid with hid | hid
      · cases hid
        exact .inl ⟨_, List.mem_cons_self, rfl, rfl⟩
      rcases h.asked id hid with ⟨b, hb, hrest⟩ | hid | ⟨m, seq, cmd, hm⟩
      · exact .inl ⟨b, .tail _ hb, hrest⟩
      · exact .inr (.inl hid)
      · exact .inr (.inr ⟨m, seq, cmd, .tail _ hm⟩)
    placed := List.forall_mem_cons.mpr ⟨nofun, h.placed⟩
    numbered := List.forall_mem_cons.mpr ⟨nofun, fun b hb seq hseq => .tail _ (h.numbered b hb seq hseq)⟩
    carried := fun t ht => .tail _ (h.carried t ht)
    owned := h.owned_cons nofun
    registered := fun t ht hreq => .tail _ (h.registered t ht hreq)
    fate := fun later m seq id cmd earlier hs => by
      obtain ⟨rest, rfl, hrest⟩ := split_cons hs nofun
      exact (h.fate rest m seq id cmd earlier hrest).cons rfl }

theorem ids_of_call (h : Sound s) {a : Call} (ha : a ∈ s.calls) :
    ((s.calls.filter (·.id ≠ a.id)).map (·.id) ++ a.id :: (s.client.tickets.map (·.id) ++ s.client.settled.map (·.1))).Perm
      (List.range s.client.nextTicket) := by
  refine .trans ?_ h.ids
  exact List.perm_middle.trans ((perm_cons_filter_ne h.nodup_ids.of_append_left ha).append_right _)

/-- A call finds its session ended. -/
theorem refuse (h : Sound s) {a : Call} (ha : a ∈ s.calls) :
    Sound { s with client := s.client.settle a.id (.error .notRunning), calls := s.calls.filter (·.id ≠ a.id) } := by
  -- No ticket has its id, so no ticket is dropped.
  have htickets : s.client.tickets.filter (·.id ≠ a.id) = s.client.tickets :=
    List.filter_eq_self.mpr fun t ht => decide_eq_true (h.ticket_ne_call ht ha)
  rw [Client.settle, htickets]
  exact { h with
    ids := (List.perm_middle.append_left _).trans (h.ids_of_call ha)
    asked := fun id hid => by
      rcases h.asked id hid with ⟨b, hb, rfl, hreq⟩ | hid | hid
      · by_cases he : b.id = a.id
        · exact .inr (.inl (he ▸ List.mem_cons_self))
        · exact .inl ⟨b, List.mem_filter.mpr ⟨hb, decide_eq_true he⟩, rfl, hreq⟩
      · exact .inr (.inl (.tail _ hid))
      · exact .inr (.inr hid)
    numbered := fun b hb => h.numbered b (List.mem_of_mem_filter hb)
    fate := fun later n seq id command earlier hs =>
      (h.fate later n seq id command earlier hs).imp_right fun ⟨result, hr, he⟩ => ⟨result, .tail _ hr, he⟩ }

/-- A call gets a number. -/
theorem number (h : Sound s) {a : Call} (ha : a ∈ s.calls) {d : Dialog} (hd : s.client.dialog? a.connection = some d) :
    Sound
      { client := s.client.updateDialog a.connection fun d => d.allocate.2
        calls := s.calls.map (Call.given a.id d.nextSeq)
        history := .numbered a.connection d.nextSeq a.id :: s.history } where
  keys := (Client.keys_updateDialog ..).trans h.keys
  ids := by
    have hids : (s.calls.map (Call.given a.id d.nextSeq)).map (·.id) = s.calls.map (·.id) := by
      rw [List.map_map]
      exact List.map_congr_left fun b _ => Call.id_given a.id d.nextSeq b
    dsimp only
    rw [hids]
    exact h.ids
  called := h.called
  asked := fun _ hid =>
    (h.asked_cons hid nofun).imp_left fun ⟨b, hb, he, hreq⟩ => ⟨_, List.mem_map_of_mem hb, by simp [he], by simp [hreq]⟩
  placed := List.forall_mem_cons.mpr
    ⟨fun _ hs => Option.some.inj hs ▸ mt Client.dialog?_updateDialog_eq_none.mp (by simp [hd]),
      fun _ hm _ => h.placed_updateDialog _ _ hm⟩
  numbers := fun n d' hd' => by
    obtain ⟨d₀, hd₀, rfl⟩ := Client.dialog?_updateDialog_eq_some hd'
    obtain ⟨hpos, hnumbers⟩ := h.numbers n d₀ hd₀
    by_cases hn : n = a.connection
    · obtain rfl : d = d₀ := by
        rw [hn, hd] at hd₀
        exact Option.some.inj hd₀
      have hmark : (Mark.numbered a.connection d.nextSeq a.id).number? n = some d.nextSeq := if_pos hn.symm
      have hconcat : List.range' 1 d.nextSeq = List.range' 1 (d.nextSeq - 1) ++ [d.nextSeq] := by
        obtain ⟨j, hj⟩ := Nat.exists_eq_add_of_le' hpos
        rw [hj, List.range'_1_concat, Nat.add_sub_cancel, Nat.add_comm]
      rw [if_pos hn, List.filterMap_cons_some hmark, hnumbers]
      refine ⟨Nat.le_add_left _ _, ?_⟩
      show _ = (List.range' 1 d.nextSeq).reverse
      rw [hconcat, List.reverse_concat]
    · have hmark : (Mark.numbered a.connection d.nextSeq a.id).number? n = none := if_neg (Ne.symm hn)
      rw [if_neg hn, List.filterMap_cons_none hmark]
      exact ⟨hpos, hnumbers⟩
  numbered := List.forall_mem_map.mpr fun b hb seq hseq => by
    rw [Call.seq_given] at hseq
    split at hseq
    · rename_i hid
      obtain rfl := h.eq_of_call_id hb ha hid
      cases hseq
      simp
    · simpa using .inr (h.numbered b hb seq hseq)
  carried := fun t ht => .tail _ (h.carried t ht)
  owned := h.owned_cons nofun
  registered := fun t ht hreq => .tail _ (h.registered t ht hreq)
  pending := fun n d' hd' => by
    obtain ⟨d₀, hd₀, rfl⟩ := Client.dialog?_updateDialog_eq_some hd'
    have := h.pending n d₀ hd₀
    split <;> exact this
  fate := fun later n seq id command earlier hs => by
    obtain ⟨rest, rfl, hrest⟩ := split_cons hs nofun
    exact (h.fate rest n seq id command earlier hrest).cons rfl

/-- The ticket that a call with a number gets. -/
def ticketOf (a : Call) (seq : Nat) : Ticket := ⟨a.id, a.connection, seq, a.command, a.isRequest, none, none⟩

theorem waits_append (ts : List Ticket) (a : Call) (seq n q id : Nat) : Waits (ts ++ [ticketOf a seq]) n q id ↔
    Waits ts n q id ∨ a.id = id ∧ a.connection = n ∧ seq = q ∧ a.isRequest = true := by
  simp [Waits, or_and_right, exists_or, ticketOf]

theorem ids_enter (h : Sound s) {a : Call} (ha : a ∈ s.calls) (seq : Nat) :
    ((s.calls.filter (·.id ≠ a.id)).map (·.id) ++
      ((s.client.tickets ++ [ticketOf a seq]).map (·.id) ++ s.client.settled.map (·.1))).Perm
      (List.range s.client.nextTicket) := by
  refine .trans (List.Perm.append_left _ ?_) (h.ids_of_call ha)
  rw [List.map_append, List.append_assoc]
  exact List.perm_middle

theorem carried_enter (h : Sound s) {a : Call} (ha : a ∈ s.calls) {seq : Nat} (hseq : a.seq = some seq) :
    ∀ t ∈ s.client.tickets ++ [ticketOf a seq], .numbered t.connection t.seq t.id ∈ s.history :=
  List.forall_mem_append.mpr ⟨h.carried, List.forall_mem_singleton.mpr (h.numbered a ha seq hseq)⟩

/-- A notification gets its ticket. -/
theorem enter_notification (h : Sound s) {a : Call} (ha : a ∈ s.calls) {seq : Nat} (hseq : a.seq = some seq)
    (hreq : a.isRequest = false) :
    Sound
      { client := { s.client with tickets := s.client.tickets ++ [ticketOf a seq] }
        calls := s.calls.filter (·.id ≠ a.id)
        history := s.history } :=
  { h with
    ids := h.ids_enter ha seq
    asked := fun id hid => by
      refine (h.asked id hid).imp_left ?_
      rintro ⟨b, hb, rfl, hb'⟩
      refine ⟨b, List.mem_filter.mpr ⟨hb, decide_eq_true fun he => ?_⟩, rfl, hb'⟩
      rw [h.eq_of_call_id hb ha he, hreq] at hb'
      cases hb'
    numbered := fun b hb => h.numbered b (List.mem_of_mem_filter hb)
    carried := h.carried_enter ha hseq
    registered := List.forall_mem_append.mpr
      ⟨h.registered, List.forall_mem_singleton.mpr fun hreq' => absurd (hreq.symm.trans hreq') Bool.false_ne_true⟩
    pending := fun n d hd => by
      obtain ⟨hkeys, hmem⟩ := h.pending n d hd
      refine ⟨hkeys, fun q id => ?_⟩
      dsimp only
      rw [waits_append, hmem, hreq]
      simp
    fate := fun later n seq id command earlier hs =>
      (h.fate later n seq id command earlier hs).imp_left fun ⟨t, ht, hrest⟩ => ⟨t, List.mem_append_left _ ht, hrest⟩ }

/-- A request gets its ticket and becomes a pending one. -/
theorem enter_request (h : Sound s) {a : Call} (ha : a ∈ s.calls) {seq : Nat} (hseq : a.seq = some seq)
    (hd : s.client.dialog? a.connection ≠ none) (hreq : a.isRequest = true) :
    Sound
      { client := { s.client.updateDialog a.connection (·.register seq a.id) with
          tickets := s.client.tickets ++ [ticketOf a seq] }
        calls := s.calls.filter (·.id ≠ a.id)
        history := .registered a.connection seq a.id a.command :: s.history } where
  keys := (Client.keys_updateDialog s.client a.connection (·.register seq a.id)).trans h.keys
  ids := h.ids_enter ha seq
  called := h.called
  asked := fun id hid => by
    rcases h.asked_cons hid nofun with ⟨b, hb, rfl, hb'⟩ | hid | hm
    · by_cases he : b.id = a.id
      · exact .inr (.inr ⟨a.connection, seq, a.command, he ▸ List.mem_cons_self⟩)
      · exact .inl ⟨b, List.mem_filter.mpr ⟨hb, decide_eq_true he⟩, rfl, hb'⟩
    · exact .inr (.inl hid)
    · exact .inr (.inr hm)
  placed := List.forall_mem_cons.mpr
    ⟨fun _ hs => Option.some.inj hs ▸ mt (@Client.dialog?_updateDialog_eq_none _ _ _ (·.register seq a.id)).mp hd,
      fun _ hm _ hs => h.placed_updateDialog a.connection (·.register seq a.id) hm hs⟩
  numbers := fun _ _ => @numbers_updateDialog s h a.connection (·.register seq a.id) (fun _ => rfl) _ _
  numbered := fun b hb q hq => .tail _ (h.numbered b (List.mem_of_mem_filter hb) q hq)
  carried := fun t ht => .tail _ (h.carried_enter ha hseq t ht)
  owned := fun n q id command hm => by
    refine .tail _ ?_
    rcases List.mem_cons.mp hm with hm | hm
    · cases hm
      exact h.numbered a ha seq hseq
    · exact h.owned n q id command hm
  registered := List.forall_mem_append.mpr
    ⟨fun t ht hreq => .tail _ (h.registered t ht hreq), List.forall_mem_singleton.mpr fun _ => List.mem_cons_self⟩
  pending := fun n d (hd : (s.client.updateDialog a.connection (·.register seq a.id)).dialog? n = some d) => by
    obtain ⟨d₀, hd₀, rfl⟩ := Client.dialog?_updateDialog_eq_some hd
    obtain ⟨hkeys, hmem⟩ := h.pending n d₀ hd₀
    dsimp only
    by_cases hn : n = a.connection
    · subst hn
      rw [if_pos rfl, Dialog.register]
      refine ⟨List.nodup_cons.mpr ⟨fun hold => ?_, hkeys⟩, fun q id => ?_⟩
      · -- The number of a pending request belongs to a ticket, and this one to the call.
        obtain ⟨⟨q, id⟩, hq, rfl⟩ := List.mem_map.mp hold
        obtain ⟨t, ht, rfl, hn, rfl, -⟩ := (hmem _ _).mp hq
        have hnumber := h.carried t ht
        rw [hn] at hnumber
        exact h.ticket_ne_call ht ha (h.eq_of_numbered hnumber (h.numbered a ha _ hseq))
      · rw [waits_append, ← hmem, List.mem_cons, Prod.mk.injEq, or_comm, hreq]
        simp only [eq_comm, true_and, and_comm]
    · rw [if_neg hn]
      refine ⟨hkeys, fun q id => ?_⟩
      rw [waits_append, hmem]
      simp [Ne.symm hn]
  fate := fun later n q id command earlier hs => by
    rcases List.cons_eq_append_iff.mp hs with ⟨rfl, hfirst⟩ | ⟨rest, rfl, hrest⟩
    · cases hfirst
      exact .inl ⟨_, List.mem_append_right _ List.mem_cons_self, rfl, hreq, rfl, rfl, rfl, rfl⟩
    · have hfate : s.Fate (.registered a.connection seq a.id a.command :: rest) n q id command :=
        (h.fate rest n q id command earlier hrest).cons rfl
      exact hfate.imp_left fun ⟨t, ht, hfields⟩ => ⟨t, List.mem_append_left _ ht, hfields⟩

/-! ## Sessions -/

/-- A session gets a number that nothing was heard of before. -/
theorem connect (h : Sound s) (root : Path) (streams : Streams) :
    Sound { s with client := s.client.connect root streams } := by
  have hnew : s.client.dialog? s.client.nextConnection = none := by
    rw [Client.dialog?_eq_none_iff, h.keys]
    simp
  have hdialog : ∀ n, (s.client.connect root streams).dialog? n =
      if n = s.client.nextConnection then some {} else s.client.dialog? n := by
    intro n
    rw [Client.dialog?, Client.connect, List.lookup_cons]
    by_cases hn : n = s.client.nextConnection
    · simp [hn]
    · simp [hn, beq_eq_false_iff_ne.mpr hn, Client.dialog?]
  have hunheard : ∀ mark ∈ s.history, mark.session? ≠ some s.client.nextConnection :=
    fun mark hm hs => h.placed mark hm _ hs hnew
  exact { h with
    keys := by
      show s.client.nextConnection :: s.client.keys = (List.range (s.client.nextConnection + 1)).reverse
      rw [h.keys, List.range_succ, List.reverse_concat]
    placed := fun mark hm n hs => by
      show (s.client.connect root streams).dialog? n ≠ none
      rw [hdialog]
      split
      · simp
      · exact h.placed mark hm n hs
    numbers := fun n d (hd : (s.client.connect root streams).dialog? n = some d) => by
      rw [hdialog] at hd
      split at hd
      · rename_i hn
        cases hd
        refine ⟨Nat.le_refl 1, List.filterMap_eq_nil_iff.mpr fun mark hm => ?_⟩
        cases mark with
        | numbered m seq id => exact if_neg fun he => hunheard _ hm (congrArg some (he.trans hn))
        | called _ _ => rfl
        | registered _ _ _ _ => rfl
        | heard _ _ => rfl
      · exact h.numbers n d hd
    pending := fun n d (hd : (s.client.connect root streams).dialog? n = some d) => by
      rw [hdialog] at hd
      split at hd
      · rename_i hn
        cases hd
        refine ⟨List.nodup_nil, fun seq id => ⟨fun hm => absurd hm List.not_mem_nil, ?_⟩⟩
        rintro ⟨t, ht, -, hn', -⟩
        exact absurd (congrArg some (hn'.trans hn)) (hunheard _ (h.carried t ht))
      · exact h.pending n d hd }

end Sound

end Traffic

/-- A ticket without its time. -/
def Ticket.untimed (t : Ticket) : Ticket := { t with queuedAt := none }

theorem Ticket.untimed_eq_iff {t u : Ticket} : t.untimed = u.untimed ↔ t.id = u.id ∧ t.connection = u.connection ∧
    t.seq = u.seq ∧ t.command = u.command ∧ t.isRequest = u.isRequest ∧ t.early = u.early := by
  simp [untimed]

/-- Clients that differ only in their streams and in times. -/
structure Client.Alike (c c' : Client) : Prop where
  settings : c'.settings = c.settings
  keys : c'.keys = c.keys
  nextConnection : c'.nextConnection = c.nextConnection
  nextTicket : c'.nextTicket = c.nextTicket
  settled : c'.settled = c.settled
  dialog : ∀ n, (c'.dialog? n).map (fun d => (d.nextSeq, d.pending)) = (c.dialog? n).map fun d => (d.nextSeq, d.pending)
  tickets : c'.tickets.map Ticket.untimed = c.tickets.map Ticket.untimed

theorem Client.Alike.waits {c c' : Client} (h : c.Alike c') {n seq id : Nat} (hw : Traffic.Waits c.tickets n seq id) :
    Traffic.Waits c'.tickets n seq id := by
  obtain ⟨t, ht, hid, hn, hseq, hreq, hearly⟩ := hw
  obtain ⟨u, hu, he⟩ := List.mem_map.mp (h.tickets ▸ List.mem_map_of_mem ht)
  obtain ⟨hid', hn', hseq', -, hreq', hearly'⟩ := Ticket.untimed_eq_iff.mp he
  exact ⟨u, hu, hid'.trans hid, hn'.trans hn, hseq'.trans hseq, hreq'.trans hreq, hearly'.trans hearly⟩

theorem Client.Alike.symm {c c' : Client} (h : c.Alike c') : c'.Alike c :=
  ⟨h.settings.symm, h.keys.symm, h.nextConnection.symm, h.nextTicket.symm, h.settled.symm, fun n => (h.dialog n).symm,
    h.tickets.symm⟩

theorem Client.alike_updateDialog {c : Client} {n : Nat} {f : Dialog → Dialog}
    (h : ∀ d, c.dialog? n = some d → (f d).nextSeq = d.nextSeq ∧ (f d).pending = d.pending) :
    c.Alike (c.updateDialog n f) := by
  refine ⟨rfl, keys_updateDialog .., rfl, rfl, rfl, fun m => ?_, rfl⟩
  rw [dialog?_updateDialog]
  split
  · rename_i hm
    rw [hm, Option.map_map]
    refine Option.map_congr fun d hd => ?_
    obtain ⟨hseq, hpending⟩ := h d hd
    rw [Function.comp_apply, hseq, hpending]
  · rfl

namespace Traffic.Sound

variable {s : Traffic}

theorem alike (h : Sound s) {c : Client} (ha : s.client.Alike c) : Sound { s with client := c } := by
  have hticket : ∀ t ∈ c.tickets, ∃ u ∈ s.client.tickets, u.untimed = t.untimed := fun t ht =>
    List.mem_map.mp (ha.tickets ▸ List.mem_map_of_mem ht)
  have hdialog : ∀ n d, c.dialog? n = some d →
      ∃ d₀, s.client.dialog? n = some d₀ ∧ d₀.nextSeq = d.nextSeq ∧ d₀.pending = d.pending := fun n d hd => by
    have hbook := ha.dialog n
    rw [hd, Option.map_some, eq_comm, Option.map_eq_some_iff] at hbook
    obtain ⟨d₀, hd₀, he⟩ := hbook
    exact ⟨d₀, hd₀, congrArg Prod.fst he, congrArg Prod.snd he⟩
  exact {
    keys := by
      dsimp only
      rw [ha.keys, ha.nextConnection, h.keys]
    ids := by
      have hids : c.tickets.map (·.id) = s.client.tickets.map (·.id) := by
        have := congrArg (List.map Ticket.id) ha.tickets
        rwa [List.map_map, List.map_map] at this
      dsimp only
      rw [hids, ha.settled, ha.nextTicket]
      exact h.ids
    called := ha.nextTicket.symm ▸ h.called
    asked := ha.settled.symm ▸ h.asked
    placed := fun mark hm n hs he => by
      have hbook := ha.dialog n
      rw [he, Option.map_none, eq_comm, Option.map_eq_none_iff] at hbook
      exact h.placed mark hm n hs hbook
    numbers := fun n d hd => by
      obtain ⟨d₀, hd₀, hseq, -⟩ := hdialog n d hd
      exact hseq ▸ h.numbers n d₀ hd₀
    numbered := h.numbered
    carried := fun t ht => by
      obtain ⟨u, hu, he⟩ := hticket t ht
      obtain ⟨hid, hn, hseq, -⟩ := Ticket.untimed_eq_iff.mp he
      rw [← hid, ← hn, ← hseq]
      exact h.carried u hu
    owned := h.owned
    registered := fun t ht hreq => by
      obtain ⟨u, hu, he⟩ := hticket t ht
      obtain ⟨hid, hn, hseq, hcmd, hreq', -⟩ := Ticket.untimed_eq_iff.mp he
      rw [← hid, ← hn, ← hseq, ← hcmd]
      exact h.registered u hu (hreq'.trans hreq)
    pending := fun n d hd => by
      obtain ⟨d₀, hd₀, -, hp⟩ := hdialog n d hd
      obtain ⟨hkeys, hmem⟩ := h.pending n d₀ hd₀
      rw [hp] at hkeys hmem
      exact ⟨hkeys, fun seq id => (hmem seq id).trans ⟨ha.waits, ha.symm.waits⟩⟩
    fate := fun later n seq id command earlier hs => by
      rcases h.fate later n seq id command earlier hs with ⟨u, hu, rfl, hreq, rfl, rfl, rfl, hearly⟩ | ⟨res, hres, hex⟩
      · obtain ⟨t, ht, he⟩ := List.mem_map.mp (ha.tickets ▸ List.mem_map_of_mem hu)
        obtain ⟨hid, hn, hseq, hcmd, hreq', hearly'⟩ := Ticket.untimed_eq_iff.mp he
        exact .inl ⟨t, ht, hid, hreq'.trans hreq, hn, hseq, hcmd, hearly'.trans hearly⟩
      · exact .inr ⟨res, ha.settled ▸ hres, ha.settings ▸ hex⟩ }

theorem tend (h : Sound s) (n : Nat) (k : Connection) : Sound { s with client := s.client.tend n k } := by
  rw [Client.tend]
  split
  · rename_i d hd
    refine h.alike ⟨rfl, Client.keys_update .., rfl, rfl, rfl, fun m => ?_, rfl⟩
    rw [Client.dialog?_update]
    split
    · rename_i hm
      rw [hm, hd]
      rfl
    · rfl
  · exact h

/-! ## Tickets -/

/-- The line of a ticket gets into the queue. -/
theorem enqueue (h : Sound s) (id : Nat) : Sound { s with client := s.client.enqueued id } := by
  rw [Client.enqueued]
  split
  · rename_i t hf
    have ht := List.mem_of_find?_eq_some hf
    obtain rfl : t.id = id := by simpa using List.find?_some hf
    split
    · rename_i hreq
      have hreq : t.isRequest = false := by simpa using hreq
      exact h.settle_answered ht (by simp [hreq]) (by simp [hreq])
    split
    · rename_i r hearly
      refine h.settle_answered ht (by simp [hearly]) fun _ later earlier hs => .inr (.inr ⟨r, ?_, rfl⟩)
      obtain ⟨-, -, -, -, hfirst⟩ := h.fate_of_ticket ht hs
      rw [← hfirst, hearly]
    · refine h.alike ⟨rfl, rfl, rfl, rfl, rfl, fun _ => rfl, ?_⟩
      rw [List.map_map]
      refine List.map_congr_left fun u _ => ?_
      rw [Function.comp_apply]
      split <;> rfl
  · exact h

/-- The line of a ticket cannot be sent. -/
theorem fail (h : Sound s) (id : Nat) : Sound { s with client := s.client.turnedAway id } := by
  rw [Client.turnedAway]
  split
  · rename_i t hf
    obtain rfl : t.id = id := by simpa using List.find?_some hf
    exact h.settle (List.mem_of_find?_eq_some hf) fun _ _ _ _ => .inr (.inl rfl)
  · exact h

theorem timeOut (h : Sound s) (id : Nat) : Sound { s with client := s.client.timeOut id } := by
  rw [Client.timeOut]
  split
  · rename_i t hf
    obtain rfl : t.id = id := by simpa using List.find?_some hf
    exact h.settle (List.mem_of_find?_eq_some hf) fun _ _ _ _ => .inl rfl
  · exact h

/-- An answer, whether or not anybody waits for it. -/
theorem hear_response (h : Sound s) {n : Nat} {d : Dialog} (hd : s.client.dialog? n = some d) (r : Response) :
    Sound
      { client := (s.client.updateDialog n (·.forget r.requestSeq)).deliverAll
          ((d.pending.lookup r.requestSeq).map fun ticket => (ticket, r)).toList
        calls := s.calls
        history := .heard n r :: s.history } := by
  cases hl : d.pending.lookup r.requestSeq with
  | none =>
    have hw : ∀ id, ¬ Waits s.client.tickets n r.requestSeq id := fun id hw => by
      simpa using List.lookup_eq_none_iff.mp hl _ (((h.pending n d hd).2 _ id).mpr hw)
    rw [h.updateDialog_forget hw]
    exact h.heard_unknown (by simp [hd]) hw
  | some id =>
    obtain ⟨t, ht, rfl, rfl, hseq, -, hearly⟩ := h.ticket_of_pending hd hl
    have hanswer := h.answer ht hearly hseq (by simp [hd])
    rw [hseq] at hanswer
    show Sound ⟨(s.client.updateDialog t.connection (·.forget r.requestSeq)).deliver t.id r, s.calls, _⟩
    have hfind : (s.client.updateDialog t.connection (·.forget r.requestSeq)).tickets.find? (·.id == t.id) = some t :=
      h.find_ticket ht
    rw [Client.deliver, hfind]
    dsimp only
    cases hq : t.queuedAt with
    | none => exact hanswer
    | some since =>
      -- The ticket takes its answer, and is settled with it.
      have hmem : t.answered t.id r ∈ s.client.tickets.map (Ticket.answered t.id r) := List.mem_map_of_mem ht
      have hearly' : (t.answered t.id r).early = some r := by rw [Ticket.early_answered, if_pos rfl]
      have hsettled := hanswer.settle_answered hmem (by simp [hearly']) fun _ later earlier hs =>
        .inr (.inr ⟨r, (hanswer.fate_of_ticket hmem hs).2.2.2.2.symm.trans hearly', rfl⟩)
      rw [Client.settle, Ticket.id_answered, Ticket.command_answered] at hsettled
      dsimp only at hsettled
      rw [Ticket.filter_answered] at hsettled
      exact hsettled

end Traffic.Sound

theorem Dialog.dispatch_response {message : Json} {r : Response} (h : Inbound.decode message = .ok (.response r))
    (d : Dialog) :
    d.dispatch message = (d.forget r.requestSeq, (d.pending.lookup r.requestSeq).map fun ticket => (ticket, r)) := by
  simp only [dispatch, h, answer]
  cases d.pending.lookup r.requestSeq <;> rfl

/-- A message that is no answer leaves the pending requests alone. -/
theorem Dialog.dispatch_other {message : Json} (h : ∀ r, Inbound.decode message ≠ .ok (.response r)) (d : Dialog) :
    (d.dispatch message).1.nextSeq = d.nextSeq ∧ (d.dispatch message).1.pending = d.pending ∧
      (d.dispatch message).2 = none := by
  rw [dispatch]
  split
  · rename_i r hr
    exact absurd hr (h r)
  · refine ⟨?_, ?_, rfl⟩ <;>
    · rw [hear]
      split <;> rfl
  · exact ⟨rfl, rfl, rfl⟩

namespace Traffic.Sound

variable {s : Traffic}

theorem hear (h : Sound s) (n : Nat) (message : Json) : Sound (s.hear n message) := by
  rw [Traffic.hear]
  split
  case h_2 => exact h
  rename_i d hd
  rw [Client.hear, hd, marksOf]
  dsimp only
  split
  · rename_i r hr
    simp only [Dialog.dispatch_response hr]
    exact h.hear_response hd r
  · rename_i hm
    rw [(Dialog.dispatch_other hm d).2.2]
    show Sound ⟨s.client.updateDialog n fun d => (d.dispatch message).1, s.calls, s.history⟩
    exact h.alike (Client.alike_updateDialog fun d _ =>
      ⟨(Dialog.dispatch_other hm d).1, (Dialog.dispatch_other hm d).2.1⟩)

/-! ## All moves -/

theorem move (h : Sound s) (m : Move) : Sound (s.move m) := by
  cases m with
  | connect root streams => exact h.connect root streams
  | disconnect => exact h.alike ⟨rfl, rfl, rfl, rfl, rfl, fun _ => rfl, rfl⟩
  | call isRequest command =>
    rw [Traffic.move, Traffic.call]
    dsimp only
    split
    · exact h.call _ isRequest command
    · -- Without a session the call is refused as soon as it is made.
      have hrefused := (h.call 0 isRequest command).refuse List.mem_cons_self
      have hcalls : s.calls.filter (fun a => decide (a.id ≠ s.client.nextTicket)) = s.calls := by
        refine List.filter_eq_self.mpr fun a ha => decide_eq_true fun he => ?_
        have hlt := h.ids.mem_iff.mp (List.mem_append_left _ (List.mem_map_of_mem ha))
        rw [List.mem_range, he] at hlt
        exact Nat.lt_irrefl _ hlt
      rw [List.filter_cons_of_neg (by simp), hcalls] at hrefused
      exact hrefused
  | refuse id =>
    rw [Traffic.move, Traffic.refuse]
    split
    · rename_i a hf
      obtain rfl : a.id = id := by simpa using List.find?_some hf
      split
      · exact h.refuse (List.mem_of_find?_eq_some hf)
      · exact h
    · exact h
  | number id =>
    rw [Traffic.move, Traffic.number]
    split
    · rename_i a hf
      obtain rfl : a.id = id := by simpa using List.find?_some hf
      split
      · rename_i d _ hd
        exact h.number (List.mem_of_find?_eq_some hf) hd
      · exact h
    · exact h
  | enter id =>
    rw [Traffic.move, Traffic.enter]
    split
    · rename_i a hf
      obtain rfl : a.id = id := by simpa using List.find?_some hf
      split
      · rename_i seq d hseq hd
        by_cases hreq : a.isRequest = true
        · rw [if_pos hreq, if_pos hreq]
          exact h.enter_request (List.mem_of_find?_eq_some hf) hseq (by simp [hd]) hreq
        · rw [if_neg hreq, if_neg hreq]
          exact h.enter_notification (List.mem_of_find?_eq_some hf) hseq (by simpa using hreq)
      · exact h
    · exact h
  | enqueue id => exact h.enqueue id
  | fail id => exact h.fail id
  | timeOut id => exact h.timeOut id
  | hear n message => exact h.hear n message
  | load n => exact h.alike (Client.alike_updateDialog fun _ _ => ⟨rfl, rfl⟩)
  | tend n k => exact h.tend n k
  | tick ms => exact h.alike ⟨rfl, rfl, rfl, rfl, rfl, fun _ => rfl, rfl⟩

theorem fresh (settings : ServerSettings) : Sound ⟨{ settings := settings }, [], []⟩ where
  keys := rfl
  ids := .refl _
  called := rfl
  asked := nofun
  placed := nofun
  numbers := nofun
  numbered := nofun
  carried := nofun
  owned := nofun
  registered := nofun
  pending := nofun
  fate := fun later _ _ _ _ _ h => by cases later <;> cases h

theorem run (h : Sound s) (moves : List Move) : Sound (s.run moves) := by
  induction moves generalizing s with
  | nil => exact h
  | cons m moves ih => exact ih (h.move m)

end Traffic.Sound

end Refactor
