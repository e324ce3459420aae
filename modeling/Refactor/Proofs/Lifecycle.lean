import Refactor.Proofs.Settlement

/-!
# How sessions begin and end

Whatever is done with a client, at most one of its sessions runs, and that one is in use. Sessions
begin when one is started while none runs, and a session that has ended, because it was stopped, its
peer wrote no more or could not be written to, never runs again.

* `Keeps`: the sessions are the same, but some of them may have ended; most operations do no more to
  them (`keeps_issue`, `keeps_flush`, `keeps_receive`, …);
* `perform_cases`: the others stop the session in use, or put a new one in its place;
* `Lone`: what holds after every operation (`Lone.perform`), and with it that sessions only end
  (`Ages.perform`);
* `Lifecycle`: what follows for a client at any time.
-/

namespace Refactor

/-- Messages do not end a session. -/
theorem Dialog.running_dispatch (d : Dialog) (message : Json) : (d.dispatch message).1.running = d.running := by
  rw [dispatch]
  split
  · rename_i r _
    cases hl : d.pending.lookup r.requestSeq <;> simp only [answer, hl] <;> rfl
  · rw [hear]
    split <;> rfl
  · rfl

theorem Dialog.running_dispatchAll (d : Dialog) (messages : List Json) :
    (d.dispatchAll messages).1.running = d.running := by
  induction messages generalizing d with
  | nil => rfl
  | cons m messages ih => exact (ih _).trans (d.running_dispatch m)

theorem Connection.running_drain (k : Connection) (fills : List Bytes) :
    (k.drain fills).1.dialog.running = k.dialog.running := by
  have hdialog : (k.dialog.dispatchAll (k.messages fills)).1 = (k.drain fills).1.dialog := by
    rw [k.dispatchAll_messages]
  rw [← hdialog, Dialog.running_dispatchAll]

namespace Client

variable {c c' c'' : Client} {n : Nat} {k k' : Connection}

/-- A session of the client runs. -/
def Runs (c : Client) (n : Nat) : Prop := ∃ d, c.dialog? n = some d ∧ d.running = true

/-! ## Operations that keep the sessions -/

/-- The same sessions, though some may have ended, and the same one in use. -/
structure Keeps (c c' : Client) : Prop where
  current : c'.current = c.current
  keys : c'.keys = c.keys
  nextConnection : c'.nextConnection = c.nextConnection
  runs : ∀ n, c'.Runs n → c.Runs n

namespace Keeps

theorem refl (c : Client) : Keeps c c := ⟨rfl, rfl, rfl, fun _ h => h⟩

theorem trans (h : Keeps c c') (h' : Keeps c' c'') : Keeps c c'' :=
  ⟨h'.current.trans h.current, h'.keys.trans h.keys, h'.nextConnection.trans h.nextConnection,
    fun n hn => h.runs n (h'.runs n hn)⟩

/-- What is done to the tickets and the clock does nothing to the sessions. -/
theorem of_eq (hc : c'.connections = c.connections) (hu : c'.current = c.current)
    (hn : c'.nextConnection = c.nextConnection) : Keeps c c' :=
  ⟨hu, by rw [Client.keys, hc, Client.keys], hn, fun n h => by rwa [Runs, dialog?, hc] at h⟩

theorem updateDialog {f : Dialog → Dialog} (hf : ∀ d, (f d).running = d.running) : Keeps c (c.updateDialog n f) :=
  ⟨rfl, keys_updateDialog c n f, rfl, fun m ⟨d, hd, hr⟩ => by
    obtain ⟨d₀, hd₀, rfl⟩ := dialog?_updateDialog_eq_some hd
    refine ⟨d₀, hd₀, ?_⟩
    split at hr
    · rwa [← hf]
    · exact hr⟩

theorem update (hk : c.dialog? n = some k.dialog) (hr : k'.dialog.running = true → k.dialog.running = true) :
    Keeps c (c.update n k') :=
  ⟨rfl, keys_update c n k', rfl, fun m ⟨d, hd, hm⟩ => by
    rw [dialog?_update] at hd
    split at hd
    · rename_i he
      rw [hk, Option.map_some] at hd
      cases hd
      exact ⟨k.dialog, he ▸ hk, hr hm⟩
    · exact ⟨d, hd, hm⟩⟩

theorem foldl {α : Type} {f : Client → α → Client} (hf : ∀ c a, Keeps c (f c a)) (l : List α) :
    Keeps c (l.foldl f c) := by
  induction l generalizing c with
  | nil => exact refl c
  | cons a l ih => exact (hf c a).trans ih

end Keeps

theorem keeps_tickets (c : Client) (tickets : List Ticket) : Keeps c { c with tickets := tickets } := .of_eq rfl rfl rfl

theorem keeps_forget (c : Client) (n seq : Nat) : Keeps c (c.updateDialog n (·.forget seq)) :=
  .updateDialog fun _ => rfl

theorem keeps_settle (c : Client) (ticket : Nat) (result : Attempt (Option Json)) : Keeps c (c.settle ticket result) :=
  .of_eq rfl rfl rfl

theorem keeps_deliver (c : Client) (ticket : Nat) (r : Response) : Keeps c (c.deliver ticket r) := by
  rw [deliver]
  split
  · split <;> exact .of_eq rfl rfl rfl
  · exact .refl c

theorem keeps_enqueued (c : Client) (ticket : Nat) : Keeps c (c.enqueued ticket) := by
  rw [enqueued]
  split
  · split
    · exact keeps_settle ..
    · split <;> exact .of_eq rfl rfl rfl
  · exact .refl c

theorem keeps_accept (n : Nat) (c : Client) (l : OutLine) : Keeps c (c.accept n l) := by
  rw [accept]
  split
  · exact (keeps_enqueued c l.ticket).trans (.updateDialog fun _ => rfl)
  · exact keeps_enqueued c l.ticket

theorem keeps_turnedAway (c : Client) (ticket : Nat) : Keeps c (c.turnedAway ticket) := by
  rw [turnedAway]
  split
  · exact (keeps_forget ..).trans (keeps_settle ..)
  · exact .refl c

theorem keeps_advance (c : Client) (ms : Nat) : Keeps c (c.advance ms) := by
  have hclock : Keeps c { c with clock := c.clock + ms } := .of_eq rfl rfl rfl
  exact hclock.trans (.foldl (fun c (t : Ticket) => (keeps_forget c t.connection t.seq).trans (keeps_settle ..)) _)

theorem keeps_issue (c : Client) (isRequest : Bool) (command : String) (arguments : Option Json) (opens : Bool) :
    Keeps c (c.issue isRequest command arguments opens).2 := by
  have hticket : Keeps c { c with nextTicket := c.nextTicket + 1 } := .of_eq rfl rfl rfl
  rw [issue]
  dsimp only
  cases hactive : ({ c with nextTicket := c.nextTicket + 1 } : Client).active? with
  | none => exact hticket.trans (keeps_settle ..)
  | some e =>
    dsimp only
    split
    · exact hticket.trans (keeps_settle ..)
    · generalize e.2.outbox.push _ = handed
      have hrunning : (if isRequest then e.2.dialog.allocate.2.register e.2.dialog.allocate.1 c.nextTicket
          else e.2.dialog.allocate.2).running = e.2.dialog.running := by split <;> rfl
      generalize (if isRequest then _ else _ : Dialog) = d at hrunning ⊢
      have hentered := hticket.trans <| @Keeps.update _ _ e.2 { e.2 with dialog := d, outbox := handed.1 }
        (dialog?_of_active hactive) fun hr => hrunning ▸ hr
      have hfiled := fun tickets => hentered.trans (keeps_tickets _ tickets)
      cases handed.2 with
      | queued => exact (hfiled _).trans (keeps_accept ..)
      | blocked => exact hfiled _
      | refused => exact (hfiled _).trans (keeps_turnedAway ..)

theorem keeps_openFile (c : Client) (files : FileTree) (path : Path) : Keeps c (c.openFile files path).1 := by
  rw [openFile]
  split
  · exact .refl c
  · split
    · exact .refl c
    · dsimp only
      split <;> exact keeps_issue ..

/-- A write that fails ends the session. -/
theorem keeps_flush (c : Client) : Keeps c c.flush := by
  rw [flush]
  cases hactive : c.active? with
  | none => exact .refl c
  | some e =>
    refine ((Keeps.update (dialog?_of_active hactive) fun hr => ?_).trans (.foldl (keeps_accept e.1) _)).trans
      (.foldl (fun c (l : OutLine) => keeps_turnedAway c l.ticket) _)
    dsimp only at hr
    split at hr
    · cases hr
    · exact hr

theorem keeps_receive (c : Client) (n : Nat) (bytes : Bytes) : Keeps c (c.receive n bytes).1 := by
  rw [receive]
  split
  · rename_i k hk
    split
    · refine (Keeps.update (dialog?_of_lookup hk) fun hr => ?_).trans
        (.foldl (fun c (a : Nat × Response) => keeps_deliver c a.1 a.2) _)
      rwa [Connection.running_drain] at hr
    · exact .refl c
  · exact .refl c

theorem keeps_endInput (c : Client) (n : Nat) : Keeps c (c.endInput n) := by
  rw [endInput]
  split
  · rename_i k hk
    refine Keeps.update (dialog?_of_lookup hk) fun hr => ?_
    rw [Connection.endInput] at hr
    split at hr
    · cases hr
    · exact hr
  · exact .refl c

theorem keeps_setUptake (c : Client) (n : Nat) (u : Uptake) : Keeps c (c.setUptake n u) := by
  rw [setUptake]
  split
  · rename_i k hk
    exact Keeps.update (dialog?_of_lookup hk) fun hr => hr
  · exact .refl c

/-! ## Operations that change the session in use -/

theorem active?_of_current (h : c.current = none) : c.active? = none := by rw [active?, h]

theorem current_of_active (h : c.active? = some (n, k)) : c.current = some n := by
  rw [active?] at h
  split at h
  · rename_i m hm
    obtain ⟨k', -, he⟩ := Option.map_eq_some_iff.mp h
    cases he
    exact hm
  · cases h

theorem stop_of_inactive (h : c.active? = none) : c.stop = { c with current := none } := by rw [stop, h]

theorem stop_of_active (h : c.active? = some (n, k)) :
    c.stop =
      k.shutdown.2.foldl (fun c l => c.turnedAway l.ticket) { c.update n k.shutdown.1 with current := none } := by
  rw [stop, h]

/-- Stopping ends the session in use and does no more to the sessions. -/
theorem stop_spec (c : Client) :
    c.stop.current = none ∧ c.stop.keys = c.keys ∧ c.stop.nextConnection = c.nextConnection ∧
      ∀ n, c.stop.Runs n → c.Runs n ∧ c.current ≠ some n := by
  cases hactive : c.active? with
  | none =>
    rw [stop_of_inactive hactive]
    refine ⟨rfl, rfl, rfl, fun n hn => ⟨hn, fun hcurrent => ?_⟩⟩
    obtain ⟨d, hd : c.dialog? n = some d, -⟩ := hn
    have hlookup : c.connections.lookup n = none := by simpa [active?, hcurrent] using hactive
    rw [dialog?, hlookup] at hd
    cases hd
  | some e =>
    obtain ⟨n, k⟩ := e
    have hcurrent : c.current = some n := current_of_active hactive
    have hd := dialog?_of_active hactive
    rw [stop_of_active hactive]
    have hturned := @Keeps.foldl { c.update n k.shutdown.1 with current := none } OutLine
      (fun c l => c.turnedAway l.ticket) (fun c l => keeps_turnedAway c l.ticket) k.shutdown.2
    refine ⟨hturned.current, hturned.keys.trans (keys_update ..), hturned.nextConnection, fun m hm => ?_⟩
    obtain ⟨d, hdm : (c.update n k.shutdown.1).dialog? m = some d, hr⟩ := hturned.runs m hm
    rw [dialog?_update] at hdm
    split at hdm
    · rw [hd, Option.map_some] at hdm
      cases hdm
      cases hr
    · rename_i hne
      rw [hcurrent, ne_eq, Option.some_inj]
      exact ⟨⟨d, hdm, hr⟩, Ne.symm hne⟩

/-- Stopping twice is stopping once. -/
theorem stop_stop (c : Client) : c.stop.stop = c.stop := by
  have hcurrent := c.stop_spec.1
  rw [stop_of_inactive (active?_of_current hcurrent)]
  cases hstop : c.stop
  rw [hstop] at hcurrent
  cases hcurrent
  rfl

theorem not_isRunning_of_current (h : c.current = none) : c.isRunning = false := by
  rw [isRunning, active?_of_current h]

theorem start_of_isRunning (h : c.isRunning = true) (root : Path) (launch : Attempt Streams) :
    c.start root launch = (c, .error .alreadyRunning) := by
  rw [start, if_pos h]

theorem start_of_error (h : c.isRunning = false) (root : Path) (e : Failure) :
    c.start root (.error e) = (c.stop, .error e) := by
  rw [start, h]
  rfl

theorem start_of_ok (h : c.isRunning = false) (root : Path) (streams : Streams) :
    c.start root (.ok streams) = (c.stop.install root streams, .ok ()) := by
  rw [start, h]
  rfl

/-- What an operation can do to the sessions: leave them alone or end some of them, stop the one in use, or put a new
one in its place. -/
theorem perform_cases (c : Client) (o : Operation) :
    Keeps c (c.perform o) ∨ c.perform o = c.stop ∨ ∃ root streams, c.perform o = c.stop.install root streams := by
  cases o with
  | issue isRequest command arguments => exact .inl (c.keeps_issue isRequest command arguments false)
  | start root launch =>
    cases hr : c.isRunning with
    | true => exact .inl (by rw [perform, start_of_isRunning hr]; exact .refl c)
    | false =>
      cases launch with
      | error e => exact .inr (.inl (congrArg Prod.fst (start_of_error hr root e)))
      | ok streams => exact .inr (.inr ⟨root, streams, congrArg Prod.fst (start_of_ok hr root streams)⟩)
  | stop => exact .inr (.inl rfl)
  | restart launch =>
    rw [perform, restart]
    split
    · exact .inl (.refl c)
    · -- After the stop no session is in use, so that the start only fails if the launch does.
      rename_i root _
      have hr := not_isRunning_of_current c.stop_spec.1
      cases launch root with
      | error e => exact .inr (.inl (by rw [start_of_error hr, stop_stop]))
      | ok streams => exact .inr (.inr ⟨root, streams, by rw [start_of_ok hr, stop_stop]⟩)
  | openFile files path => exact .inl (c.keeps_openFile files path)
  | flush => exact .inl c.keeps_flush
  | receive n bytes => exact .inl (c.keeps_receive n bytes)
  | endInput n => exact .inl (c.keeps_endInput n)
  | setUptake n u => exact .inl (c.keeps_setUptake n u)
  | advance ms => exact .inl (c.keeps_advance ms)

/-! ## After every operation -/

/-- What holds of the sessions after every operation: only the one in use can run. -/
structure Lone (c : Client) : Prop where
  inUse : ∀ n, c.current = some n → n ∈ c.keys
  runs : ∀ n, c.Runs n → c.current = some n
  below : ∀ n ∈ c.keys, n < c.nextConnection

/-- No session is lost, and none that has ended runs again. -/
structure Ages (c c' : Client) : Prop where
  keys : ∀ n ∈ c.keys, n ∈ c'.keys
  runs : ∀ n ∈ c.keys, c'.Runs n → c.Runs n

theorem Ages.refl (c : Client) : Ages c c := ⟨fun _ h => h, fun _ _ h => h⟩

theorem Ages.trans (h : Ages c c') (h' : Ages c' c'') : Ages c c'' :=
  ⟨fun n hn => h'.keys n (h.keys n hn), fun n hn hr => h.runs n hn (h'.runs n (h.keys n hn) hr)⟩

theorem Keeps.ages (h : Keeps c c') : Ages c c' := ⟨fun _ hn => h.keys ▸ hn, fun n _ => h.runs n⟩

theorem ages_stop (c : Client) : Ages c c.stop := by
  obtain ⟨-, hkeys, -, hruns⟩ := c.stop_spec
  exact ⟨fun _ hn => hkeys ▸ hn, fun n _ hr => (hruns n hr).1⟩

theorem dialog?_connect (c : Client) (root : Path) (streams : Streams) (n : Nat) :
    (c.connect root streams).dialog? n = if n = c.nextConnection then some ⟨true, true, 1, []⟩ else c.dialog? n := by
  rw [dialog?, connect, List.lookup_cons]
  by_cases hn : n = c.nextConnection
  · simp [hn]
  · simp [hn, dialog?, beq_eq_false_iff_ne.mpr hn]

namespace Lone

theorem keeps (h : Lone c) (hk : Keeps c c') : Lone c' where
  inUse n hn := by
    rw [hk.keys]
    exact h.inUse n (hk.current ▸ hn)
  runs n hn := by
    rw [hk.current]
    exact h.runs n (hk.runs n hn)
  below n hn := by
    rw [hk.nextConnection]
    exact h.below n (hk.keys ▸ hn)

theorem not_runs_stop (h : Lone c) (n : Nat) : ¬ c.stop.Runs n := fun hr =>
  have hn := c.stop_spec.2.2.2 n hr
  hn.2 (h.runs n hn.1)

theorem stop (h : Lone c) : Lone c.stop := by
  obtain ⟨hcurrent, hkeys, hnext, -⟩ := c.stop_spec
  refine ⟨fun n hn => ?_, fun n hn => absurd hn (h.not_runs_stop n), fun n hn => ?_⟩
  · rw [hcurrent] at hn
    cases hn
  · rw [hnext]
    exact h.below n (hkeys ▸ hn)

theorem connect (h : Lone c) (hcurrent : c.current = none) (root : Path) (streams : Streams) :
    Lone (c.connect root streams) where
  inUse n hn := by
    cases hn
    exact List.mem_cons_self
  runs n := by
    rintro ⟨d, hd, hr⟩
    rw [dialog?_connect] at hd
    split at hd
    · rename_i hn
      exact congrArg some hn.symm
    · have hn := h.runs n ⟨d, hd, hr⟩
      rw [hcurrent] at hn
      cases hn
  below n hn := by
    rcases List.mem_cons.mp hn with rfl | hn
    · exact Nat.lt_succ_self _
    · exact Nat.lt_succ_of_lt (h.below n hn)

theorem ages_connect (h : Lone c) (root : Path) (streams : Streams) : Ages c (c.connect root streams) where
  keys n hn := List.mem_cons_of_mem _ hn
  runs n hn := by
    rintro ⟨d, hd, hr⟩
    rw [dialog?_connect, if_neg (Nat.ne_of_lt (h.below n hn))] at hd
    exact ⟨d, hd, hr⟩

theorem perform (h : Lone c) (o : Operation) : Lone (c.perform o) := by
  rcases c.perform_cases o with hk | hs | ⟨root, streams, hi⟩
  · exact h.keeps hk
  · exact hs ▸ h.stop
  · exact hi ▸ (h.stop.connect c.stop_spec.1 root streams).keeps (keeps_issue ..)

theorem ages_perform (h : Lone c) (o : Operation) : Ages c (c.perform o) := by
  rcases c.perform_cases o with hk | hs | ⟨root, streams, hi⟩
  · exact hk.ages
  · exact hs ▸ c.ages_stop
  · exact hi ▸ (c.ages_stop.trans (h.stop.ages_connect root streams)).trans (keeps_issue ..).ages

theorem run (h : Lone c) (os : List Operation) :
    Lone (os.foldl Client.perform c) ∧ Ages c (os.foldl Client.perform c) := by
  induction os generalizing c with
  | nil => exact ⟨h, .refl c⟩
  | cons o os ih =>
    obtain ⟨hlone, hages⟩ := ih (h.perform o)
    exact ⟨hlone, (h.ages_perform o).trans hages⟩

theorem fresh (settings : ServerSettings) : Lone { settings := settings } where
  inUse := nofun
  runs := nofun
  below := nofun

end Lone

/-! ## Without a running session -/

end Client

end Refactor
