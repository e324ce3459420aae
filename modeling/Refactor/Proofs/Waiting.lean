import Mathlib.Algebra.Order.Floor.Div
import Refactor.Proofs.Recording
import Refactor.Session.Script

/-!
# How long a wait lasts

A wait for the project starts the session if need be and then looks at it again and again, with sleeps in
between of which the last one ends when the time is over. It ends for every session whose sleeps take the
time they are asked for, however long the start took and whatever the looks find.

* `Session.Punctual`: what is assumed of the clock;
* `Polled`: looks in a row with no bound on their number, which is the loop that `poll` may cut off;
* `polled_poll`: `poll` is not cut off if it may look once more than there are milliseconds left;
* `Look.Next`, `Look.time_le_of_isChain`, `Look.length_le_of_isChain`: the times of looks in a row, and how
  many there can be;
* `StartFails`, `Watch`: the two ways in which a wait can go; `wait_bounded` says that it goes in one of them.
-/

namespace Refactor

variable {σ : Type}

/-- Looks take no time, sleeps up to some length take the time that they are asked for, and the clock does
not go back while the session is checked and started. -/
structure Session.Punctual (S : Session σ) (longest : Nat) : Prop where
  isRunning : ∀ x, S.now x ≤ S.now (S.isRunning x).2
  start : ∀ root x, S.now x ≤ S.now (S.start root x).2
  isLoaded : ∀ x, S.now (S.isLoaded x).2 = S.now x
  sleep : ∀ ms, ms ≤ longest → ∀ x, S.now (S.sleep ms x).2 = S.now x + ms

/-- A look at the project: when it was made, from the start of the wait on, and what it found. -/
structure Look where
  time : Nat
  loaded : Bool
deriving DecidableEq, Repr

namespace Look

/-- `b` is the look after `a`: nothing was found before the time was over, and the sleep in between ends when
it is over at the latest. -/
structure Next (interval timeout : Nat) (a b : Look) : Prop where
  unloaded : a.loaded = false
  early : a.time < timeout
  time_eq : b.time = a.time + min interval (timeout - a.time)

/-- What the session is asked in looks one after the other. -/
def turns : List Look → List Turn
  | [] => []
  | [a] => [.isLoaded a.loaded]
  | a :: b :: looks => .isLoaded a.loaded :: .sleep (b.time - a.time) :: turns (b :: looks)

/-! ## Looks in a row -/

variable {interval timeout : Nat} {a : Look} {looks : List Look}

theorem time_le_of_isChain (h : (a :: looks).IsChain (Next interval timeout)) :
    ∀ b ∈ a :: looks, b.time ≤ max a.time timeout := by
  induction looks generalizing a with
  | nil =>
    intro b hb
    rw [List.mem_singleton] at hb
    rw [hb]
    exact Nat.le_max_left _ _
  | cons c looks ih =>
    intro b hb
    obtain ⟨hnext, hrest⟩ := List.isChain_cons_cons.mp h
    have htime := hnext.time_eq
    have hearly := hnext.early
    rcases List.mem_cons.mp hb with rfl | hb
    · exact Nat.le_max_left _ _
    · have hle := ih hrest b hb
      omega

/-- One interval less takes one look less. -/
theorem ceilDiv_sub_succ_le {n : Nat} (hinterval : 0 < interval) (hn : 0 < n) :
    (n - min interval n) ⌈/⌉ interval + 1 ≤ n ⌈/⌉ interval := by
  rw [Nat.ceilDiv_eq_add_pred_div, Nat.ceilDiv_eq_add_pred_div]
  rcases Nat.le_total interval n with hle | hle
  · rw [Nat.min_eq_left hle, ← Nat.add_div_right _ hinterval]
    apply Nat.div_le_div_right
    omega
  · rw [Nat.min_eq_right hle, Nat.sub_self, Nat.div_eq_of_lt (by omega : 0 + interval - 1 < interval)]
    exact Nat.div_pos (by omega) hinterval

/-- Apart from the first one, there are no more looks than intervals begun before the time is over. -/
theorem length_le_of_isChain (hinterval : 0 < interval) (h : (a :: looks).IsChain (Next interval timeout)) :
    looks.length ≤ (timeout - a.time) ⌈/⌉ interval := by
  induction looks generalizing a with
  | nil => exact Nat.zero_le _
  | cons b looks ih =>
    obtain ⟨hnext, hrest⟩ := List.isChain_cons_cons.mp h
    have htime := hnext.time_eq
    have hleft : 0 < timeout - a.time := Nat.sub_pos_of_lt hnext.early
    have hless := ceilDiv_sub_succ_le hinterval hleft
    rw [show timeout - a.time - min interval (timeout - a.time) = timeout - b.time by omega] at hless
    have hlength := ih hrest
    rw [List.length_cons]
    omega

end Look

namespace Readiness

/-- Looks from one state to another and what they come to, however many there are. -/
inductive Polled (S : Session σ) (interval timeout began : Nat) :
    σ → List Look → Except NotReady Unit → σ → Prop where
  | loaded {x : σ} (h : (S.isLoaded x).1 = true) :
    Polled S interval timeout began x [⟨S.now x - began, true⟩] (.ok ()) (S.isLoaded x).2
  | late {x : σ} (h : (S.isLoaded x).1 = false) (hlate : timeout ≤ S.now (S.isLoaded x).2 - began) :
    Polled S interval timeout began x [⟨S.now x - began, false⟩] (.error (.stillIndexing timeout)) (S.isLoaded x).2
  | again {x z : σ} {looks : List Look} {result : Except NotReady Unit} (h : (S.isLoaded x).1 = false)
    (hearly : S.now (S.isLoaded x).2 - began < timeout)
    (hrest : Polled S interval timeout began
      (S.sleep (min interval (timeout - (S.now (S.isLoaded x).2 - began))) (S.isLoaded x).2).2 looks result z) :
    Polled S interval timeout began x (⟨S.now x - began, false⟩ :: looks) result z

/-! ## One look -/

section Steps

variable (S : Session σ) (interval timeout began fuel : Nat) (x : σ)

/-- What a look comes to, with the looks after it. -/
theorem poll_succ :
    poll S interval timeout began (fuel + 1) x =
      if (S.isLoaded x).1 = true then (.ok (), (S.isLoaded x).2)
      else if timeout ≤ S.now (S.isLoaded x).2 - began then (.error (.stillIndexing timeout), (S.isLoaded x).2)
      else poll S interval timeout began fuel
        (S.sleep (min interval (timeout - (S.now (S.isLoaded x).2 - began))) (S.isLoaded x).2).2 := by
  rw [poll, bind_apply]
  cases (S.isLoaded x).1 with
  | true => rfl
  | false =>
    rw [if_neg Bool.false_ne_true, if_neg Bool.false_ne_true, get_bind_apply]
    split <;> rfl

theorem turns_poll_succ :
    turns (poll S.recorded interval timeout began (fuel + 1)) x =
      .isLoaded (S.isLoaded x).1 ::
        if (S.isLoaded x).1 = true then []
        else if timeout ≤ S.now (S.isLoaded x).2 - began then []
        else .sleep (min interval (timeout - (S.now (S.isLoaded x).2 - began))) ::
          turns (poll S.recorded interval timeout began fuel)
            (S.sleep (min interval (timeout - (S.now (S.isLoaded x).2 - began))) (S.isLoaded x).2).2 := by
  unfold turns
  rw [poll_succ]
  show Prod.snd (Prod.snd (if (S.isLoaded x).1 = true then _
    else if timeout ≤ S.now (S.isLoaded x).2 - began then _ else _)) = _
  split
  · rfl
  · split
    · rfl
    · exact congrArg (·.2.2) ((records_poll S interval timeout began fuel).run _ _)

end Steps

/-! ## Looks until the end -/

section Runs

variable {S : Session σ} {interval timeout began : Nat} {x z : σ} {looks : List Look}
  {result : Except NotReady Unit}

theorem Polled.exists_cons (h : Polled S interval timeout began x looks result z) :
    ∃ loaded rest, looks = ⟨S.now x - began, loaded⟩ :: rest := by
  cases h with
  | loaded => exact ⟨_, _, rfl⟩
  | late => exact ⟨_, _, rfl⟩
  | again => exact ⟨_, _, rfl⟩

/-- How the clock stands after a look and a sleep. -/
theorem now_sleep (S : Session σ) (hS : S.Punctual interval) (timeout began : Nat) (x : σ) :
    S.now (S.sleep (min interval (timeout - (S.now (S.isLoaded x).2 - began))) (S.isLoaded x).2).2 =
      S.now x + min interval (timeout - (S.now x - began)) := by
  rw [hS.sleep _ (Nat.min_le_left _ _), hS.isLoaded]

/-- Each look comes after the one before it. -/
theorem Polled.isChain (hS : S.Punctual interval) (h : Polled S interval timeout began x looks result z)
    (hbegan : began ≤ S.now x) : looks.IsChain (Look.Next interval timeout) := by
  induction h with
  | loaded => exact .singleton _
  | late => exact .singleton _
  | @again x z looks result hloaded hearly hrest ih =>
    have hnow := now_sleep S hS timeout began x
    have htail := ih (by omega)
    obtain ⟨loaded, rest, rfl⟩ := hrest.exists_cons
    rw [hS.isLoaded] at hearly
    refine .cons_cons ⟨rfl, hearly, ?_⟩ htail
    show S.now _ - began = S.now x - began + min interval (timeout - (S.now x - began))
    omega

/-- The last look is made when the wait ends, and decides what it comes to. -/
theorem Polled.ending (hS : S.Punctual interval) (h : Polled S interval timeout began x looks result z)
    (hbegan : began ≤ S.now x) :
    ∃ front last, looks = front ++ [last] ∧ (∀ a ∈ front, a.loaded = false) ∧ S.now z = began + last.time ∧
      (result = .ok () ∧ last.loaded = true ∨
        result = .error (.stillIndexing timeout) ∧ last.loaded = false ∧ timeout ≤ last.time) := by
  induction h with
  | @loaded x hloaded =>
    refine ⟨[], _, rfl, fun _ ha => absurd ha List.not_mem_nil, ?_, .inl ⟨rfl, rfl⟩⟩
    rw [hS.isLoaded]
    exact (Nat.add_sub_of_le hbegan).symm
  | @late x hloaded hlate =>
    rw [hS.isLoaded] at hlate
    refine ⟨[], _, rfl, fun _ ha => absurd ha List.not_mem_nil, ?_, .inr ⟨rfl, rfl, hlate⟩⟩
    rw [hS.isLoaded]
    exact (Nat.add_sub_of_le hbegan).symm
  | @again x z looks result hloaded hearly hrest ih =>
    have hnow := now_sleep S hS timeout began x
    obtain ⟨front, last, rfl, hfront, htime, hlast⟩ := ih (by omega)
    refine ⟨_ :: front, last, rfl, ?_, htime, hlast⟩
    intro a ha
    rcases List.mem_cons.mp ha with rfl | ha
    · rfl
    · exact hfront a ha

/-- A number of looks that exceeds the milliseconds left is enough. -/
theorem polled_poll (hS : S.Punctual interval) (hinterval : 0 < interval) {fuel : Nat} (hbegan : began ≤ S.now x)
    (hfuel : timeout - (S.now x - began) < fuel) :
    ∃ looks, Polled S interval timeout began x looks (poll S interval timeout began fuel x).1
        (poll S interval timeout began fuel x).2 ∧
      turns (poll S.recorded interval timeout began fuel) x = Look.turns looks := by
  induction fuel generalizing x with
  | zero => omega
  | succ fuel ih =>
    rw [poll_succ, turns_poll_succ]
    cases hloaded : (S.isLoaded x).1 with
    | true => exact ⟨_, .loaded hloaded, rfl⟩
    | false =>
      by_cases hlate : timeout ≤ S.now (S.isLoaded x).2 - began
      · rw [if_neg Bool.false_ne_true, if_pos hlate, if_neg Bool.false_ne_true, if_pos hlate]
        exact ⟨_, .late hloaded hlate, rfl⟩
      · rw [if_neg Bool.false_ne_true, if_neg hlate, if_neg Bool.false_ne_true, if_neg hlate]
        have hnow := now_sleep S hS timeout began x
        rw [hS.isLoaded] at hlate
        -- A sleep takes at least a millisecond, so there are fewer of them left afterwards.
        obtain ⟨looks, hpolled, hturns⟩ := ih (x := (S.sleep (min interval
          (timeout - (S.now (S.isLoaded x).2 - began))) (S.isLoaded x).2).2) (by omega) (by omega)
        refine ⟨_, .again hloaded (by rw [hS.isLoaded]; omega) hpolled, ?_⟩
        obtain ⟨loaded, rest, rfl⟩ := hpolled.exists_cons
        rw [hturns, Look.turns, hnow, hS.isLoaded]
        congr 3
        show _ = S.now x + min interval (timeout - (S.now x - began)) - began - (S.now x - began)
        omega

end Runs

/-! ## Starting -/

section Starts

variable (S : Session σ) (root : Path) (x : σ)

/-- The state of the session once it is known to run or a start was tried. -/
def afterStart : σ :=
  if (S.isRunning x).1 = true then (S.isRunning x).2 else (S.start root (S.isRunning x).2).2

/-- What the session is asked until then. -/
def startTurns : List Turn :=
  .isRunning (S.isRunning x).1 ::
    if (S.isRunning x).1 = true then [] else [.start root (S.start root (S.isRunning x).2).1]

/-- How long that takes. -/
def startTime : Nat := S.now (afterStart S root x) - S.now x

/-- The session did not run and could not be started. -/
def StartFails (e : Failure) : Prop :=
  (S.isRunning x).1 = false ∧ (S.start root (S.isRunning x).2).1 = .error e ∧ e ≠ .alreadyRunning

/-- What the answer to a start means for a wait. -/
def startOutcome : Attempt Unit → Except NotReady Unit
  | .ok _ | .error .alreadyRunning => .ok ()
  | .error e => .error (.startFailed e)

theorem startOutcome_of_ne {e : Failure} (h : e ≠ .alreadyRunning) :
    startOutcome (.error e) = .error (.startFailed e) := by
  cases e with
  | alreadyRunning => exact absurd rfl h
  | _ => rfl

theorem ensureStarted_of_running (h : (S.isRunning x).1 = true) :
    ensureStarted S root x = (.ok (), (S.isRunning x).2) := by
  unfold ensureStarted
  rw [bind_apply, h]
  rfl

theorem ensureStarted_of_stopped (h : (S.isRunning x).1 = false) :
    ensureStarted S root x =
      (startOutcome (S.start root (S.isRunning x).2).1, (S.start root (S.isRunning x).2).2) := by
  unfold ensureStarted
  rw [bind_apply, h, if_neg Bool.false_ne_true, bind_apply]
  cases (S.start root (S.isRunning x).2).1 with
  | ok u => rfl
  | error e => cases e <;> rfl

/-- Starting comes to a failure exactly if the session did not run and could not be started. -/
theorem ensureStarted_spec :
    (∃ e, StartFails S root x e ∧ ensureStarted S root x = (.error (.startFailed e), afterStart S root x)) ∨
      (∀ e, ¬ StartFails S root x e) ∧ ensureStarted S root x = (.ok (), afterStart S root x) := by
  unfold StartFails afterStart
  cases hrunning : (S.isRunning x).1 with
  | true =>
    rw [if_pos rfl, ensureStarted_of_running S root x hrunning]
    exact .inr ⟨fun e h => Bool.noConfusion h.1, rfl⟩
  | false =>
    rw [if_neg Bool.false_ne_true, ensureStarted_of_stopped S root x hrunning]
    cases (S.start root (S.isRunning x).2).1 with
    | ok u => exact .inr ⟨fun e h => (by cases h.2.1), rfl⟩
    | error e =>
      by_cases he : e = .alreadyRunning
      · subst he
        exact .inr ⟨fun e h => h.2.2 (Except.error.inj h.2.1).symm, rfl⟩
      · exact .inl ⟨e, ⟨rfl, rfl, he⟩, by rw [startOutcome_of_ne he]⟩

theorem turns_ensureStarted : turns (ensureStarted S.recorded root) x = startTurns S root x := by
  unfold startTurns turns
  cases hrunning : (S.isRunning x).1 with
  | true =>
    rw [ensureStarted_of_running S.recorded root (x, []) hrunning, if_pos rfl, ← hrunning]
    rfl
  | false =>
    rw [ensureStarted_of_stopped S.recorded root (x, []) hrunning, if_neg Bool.false_ne_true, ← hrunning]
    rfl

theorem now_le_afterStart {longest : Nat} (hS : S.Punctual longest) : S.now x ≤ S.now (afterStart S root x) := by
  unfold afterStart
  split
  · exact hS.isRunning x
  · exact Nat.le_trans (hS.isRunning x) (hS.start root _)

/-! ## The wait as a whole -/

variable (interval timeout : Nat)

theorem ensureReady_of_error {e : NotReady} {y : σ} (h : ensureStarted S root x = (.error e, y)) :
    ensureReady S root interval timeout x = (.error e, y) := by
  unfold ensureReady
  rw [get_bind_apply, bind_apply, h]
  rfl

theorem ensureReady_of_ok {y : σ} (h : ensureStarted S root x = (.ok (), y)) :
    ensureReady S root interval timeout x = poll S interval timeout (S.now x) (timeout + 2 + S.looks y) y := by
  unfold ensureReady
  rw [get_bind_apply, bind_apply, h]
  rfl

theorem turns_ensureReady_of_error {e : NotReady} {y : σ} (h : ensureStarted S root x = (.error e, y)) :
    turns (ensureReady S.recorded root interval timeout) x = startTurns S root x := by
  have hstart := (records_ensureStarted S root).run x []
  rw [h, turns_ensureStarted, List.nil_append] at hstart
  unfold turns
  rw [ensureReady_of_error S.recorded root (x, []) interval timeout hstart]

theorem turns_ensureReady_of_ok {y : σ} (h : ensureStarted S root x = (.ok (), y)) :
    turns (ensureReady S.recorded root interval timeout) x = startTurns S root x ++
      turns (poll S.recorded interval timeout (S.now x) (timeout + 2 + S.looks y)) y := by
  have hstart := (records_ensureStarted S root).run x []
  rw [h, turns_ensureStarted, List.nil_append] at hstart
  have hpoll := (records_poll S interval timeout (S.now x) (timeout + 2 + S.looks y)).run y (startTurns S root x)
  have hready : ensureReady S.recorded root interval timeout (x, []) =
      poll S.recorded interval timeout (S.now x) (timeout + 2 + S.looks y) (y, startTurns S root x) :=
    ensureReady_of_ok S.recorded root (x, []) interval timeout hstart
  rw [hpoll] at hready
  exact congrArg (·.2.2) hready

end Starts

/-- How a wait goes that starts, look by look. -/
structure Watch (S : Session σ) (root : Path) (interval timeout : Nat) (x : σ) (looks : List Look) : Prop where
  /-- The wait comes to what the looks come to, and apart from them the session is only checked and started. -/
  polled : Polled S interval timeout (S.now x) (afterStart S root x) looks
    (ensureReady S root interval timeout x).1 (ensureReady S root interval timeout x).2
  asked : turns (ensureReady S.recorded root interval timeout) x = startTurns S root x ++ Look.turns looks
  /-- The first look is made after the start, and each of the others after the one before it. -/
  first : looks.head?.map Look.time = some (startTime S root x)
  next : looks.IsChain (Look.Next interval timeout)
  /-- The wait ends with the first look that finds the project loaded, or with a look when the time is over. -/
  last : ∃ front last, looks = front ++ [last] ∧ (∀ a ∈ front, a.loaded = false) ∧
    (last.loaded = true ∨ timeout ≤ last.time) ∧
      S.now (ensureReady S root interval timeout x).2 = S.now x + last.time
  loaded_iff : (ensureReady S root interval timeout x).1 = .ok () ↔ ∃ a ∈ looks, a.loaded = true
  unloaded_iff : (ensureReady S root interval timeout x).1 = .error (.stillIndexing timeout) ↔
    ∀ a ∈ looks, a.loaded = false
  length_le : looks.length ≤ (timeout - startTime S root x) ⌈/⌉ interval + 1

/-- What a wait from a state of the session comes to. -/
structure Waits (S : Session σ) (root : Path) (interval timeout : Nat) (x : σ) : Prop where
  /-- A record of what the session is asked can be kept along. -/
  recorded : ∀ log, ensureReady S.recorded root interval timeout (x, log) =
    ((ensureReady S root interval timeout x).1, (ensureReady S root interval timeout x).2,
      log ++ turns (ensureReady S.recorded root interval timeout) x)
  failed_iff : ∀ e, (ensureReady S root interval timeout x).1 = .error (.startFailed e) ↔ StartFails S root x e
  /-- There are no looks after a start that failed. -/
  failed : ∀ e, StartFails S root x e → (ensureReady S root interval timeout x).2 = afterStart S root x ∧
    turns (ensureReady S.recorded root interval timeout) x = startTurns S root x
  watched : (∀ e, ¬ StartFails S root x e) → ∃ looks, Watch S root interval timeout x looks
  inTime : S.now (ensureReady S root interval timeout x).2 ≤ S.now x + max (startTime S root x) timeout

theorem Watch.of_polled {S : Session σ} {root : Path} {interval timeout : Nat} {x : σ} {looks : List Look}
    (hS : S.Punctual interval) (hinterval : 0 < interval)
    (hpolled : Polled S interval timeout (S.now x) (afterStart S root x) looks
      (ensureReady S root interval timeout x).1 (ensureReady S root interval timeout x).2)
    (hasked : turns (ensureReady S.recorded root interval timeout) x =
      startTurns S root x ++ Look.turns looks) :
    Watch S root interval timeout x looks := by
  have hbegan := now_le_afterStart S root x hS
  have hchain := hpolled.isChain hS hbegan
  obtain ⟨front, last, hlooks, hfront, hnow, hlast⟩ := hpolled.ending hS hbegan
  -- All looks but the last find nothing, so the last one decides both for all of them and for the result.
  have hmem : ∀ a, a ∈ looks ↔ a ∈ front ∨ a = last := by
    intro a
    rw [hlooks, List.mem_append, List.mem_singleton]
  have hloaded : (∃ a ∈ looks, a.loaded = true) ↔ last.loaded = true := by
    constructor
    · rintro ⟨a, ha, h⟩
      rcases (hmem a).mp ha with ha | rfl
      · exact Bool.noConfusion (h.symm.trans (hfront a ha))
      · exact h
    · exact fun h => ⟨last, (hmem last).mpr (.inr rfl), h⟩
  have hunloaded : (∀ a ∈ looks, a.loaded = false) ↔ last.loaded = false := by
    constructor
    · exact fun h => h last ((hmem last).mpr (.inr rfl))
    · intro h a ha
      rcases (hmem a).mp ha with ha | rfl
      · exact hfront a ha
      · exact h
  refine ⟨hpolled, hasked, ?_, hchain, ⟨front, last, hlooks, hfront, hlast.imp (·.2) (·.2.2), hnow⟩, ?_, ?_, ?_⟩
  · obtain ⟨loaded, rest, rfl⟩ := hpolled.exists_cons
    rfl
  · rw [hloaded]
    rcases hlast with ⟨hresult, hlast⟩ | ⟨hresult, hlast, -⟩ <;> rw [hresult, hlast] <;> simp
  · rw [hunloaded]
    rcases hlast with ⟨hresult, hlast⟩ | ⟨hresult, hlast, -⟩ <;> rw [hresult, hlast] <;> simp
  · obtain ⟨loaded, rest, rfl⟩ := hpolled.exists_cons
    exact Nat.succ_le_succ (Look.length_le_of_isChain hinterval hchain)

theorem Watch.time_le {S : Session σ} {root : Path} {interval timeout : Nat} {x : σ} {looks : List Look}
    (h : Watch S root interval timeout x looks) : ∀ a ∈ looks, a.time ≤ max (startTime S root x) timeout := by
  obtain ⟨loaded, rest, rfl⟩ := h.polled.exists_cons
  exact Look.time_le_of_isChain h.next

/-- A wait ends, whatever the session does. -/
theorem wait_bounded (S : Session σ) (root : Path) (interval timeout : Nat) (hinterval : 0 < interval)
    (hS : S.Punctual interval) (x : σ) : Waits S root interval timeout x := by
  have hbegan := now_le_afterStart S root x hS
  have hrecorded := (records_ensureReady S root interval timeout).run x
  rcases ensureStarted_spec S root x with ⟨e, hfails, hstart⟩ | ⟨hfails, hstart⟩
  · have hready := ensureReady_of_error S root x interval timeout hstart
    have hturns := turns_ensureReady_of_error S root x interval timeout hstart
    have honly : ∀ e', StartFails S root x e' → e' = e := fun e' h =>
      (Except.error.inj (hfails.2.1.symm.trans h.2.1)).symm
    refine ⟨hrecorded, fun e' => ?_, fun e' _ => ⟨congrArg Prod.snd hready, hturns⟩,
      fun h => absurd hfails (h e), ?_⟩
    · rw [hready]
      constructor
      · intro h
        cases h
        exact hfails
      · intro h
        rw [honly e' h]
    · rw [hready]
      show S.now (afterStart S root x) ≤ S.now x + max (S.now (afterStart S root x) - S.now x) timeout
      omega
  · have hready := ensureReady_of_ok S root x interval timeout hstart
    have hturns := turns_ensureReady_of_ok S root x interval timeout hstart
    have hfuel : timeout - (S.now (afterStart S root x) - S.now x) < timeout + 2 + S.looks (afterStart S root x) := by
      omega
    obtain ⟨looks, hpolled, hlooks⟩ := polled_poll hS hinterval hbegan hfuel
    rw [hlooks] at hturns
    rw [← hready] at hpolled
    have hwatch := Watch.of_polled hS hinterval hpolled hturns
    refine ⟨hrecorded, fun e => ?_, fun e h => absurd h (hfails e), fun _ => ⟨looks, hwatch⟩, ?_⟩
    · refine iff_of_false (fun h => ?_) (hfails e)
      obtain ⟨-, -, -, -, -, ⟨hresult, -⟩ | ⟨hresult, -⟩⟩ := hpolled.ending hS hbegan <;> cases hresult.symm.trans h
    · obtain ⟨front, last, hlooks, -, -, hnow⟩ := hwatch.last
      have hle := hwatch.time_le last (by rw [hlooks]; exact List.mem_append_right _ List.mem_cons_self)
      omega

/-- A session that takes three milliseconds to start and does not load its project in time. Four looks follow the
check, at 3, 13, 23 and 25 milliseconds. -/
theorem wait_bounded_cut_short :
    let S : Session Script :=
      { Script.session with start := fun _ s => (.ok (), { s with clock := s.clock + 3 }) }
    let x : Script := { running := [false], loaded := [false] }
    let ready := ensureReady S ⟨"/p"⟩ 10 25 x
    (0 < 10 ∧ S.Punctual 10) ∧ Waits S ⟨"/p"⟩ 10 25 x ∧ startTime S ⟨"/p"⟩ x = 3 ∧
      ready.1 = .error (.stillIndexing 25) ∧ ready.2.clock = 25 ∧ ready.2.calls.length = 5 := by
  intro S x ready
  have hS : S.Punctual 10 := by
    refine ⟨fun _ => Nat.le_refl _, fun _ _ => Nat.le_add_right _ _, fun _ => rfl, fun ms hms y => ?_⟩
    show y.clock + min ms longestSleep = y.clock + ms
    rw [Nat.min_eq_left (Nat.le_trans hms (by decide))]
  refine ⟨⟨by decide, hS⟩, wait_bounded S _ 10 25 (by decide) hS x, rfl, ?_⟩
  decide +kernel

end Readiness

end Refactor
