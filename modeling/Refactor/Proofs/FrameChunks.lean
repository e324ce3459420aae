import Refactor.Frame

/-!
# Frames do not depend on chunks

A stream of bytes comes in chunks, cut anywhere: inside a marker, a header, a
character or a body. The decoder gives the same messages, keeps the same bytes
and refuses the same streams as if the stream came at once.

* `cut?_append`, `cut?_append_of_not_infix`: bytes added at the end do not move the
  first occurrence of a pattern, and bytes that hold none can be passed over but
  for their end;
* `stepMarked_cases`, `step_cases`: what a step has decided stays decided when more
  bytes come, and the bytes it keeps are as good as all it has seen;
* `drain_append`: hence draining can be interrupted anywhere;
* `push_chunks`: and so can a stream.
-/

namespace Refactor

namespace Bytes

/-! ## The first occurrence of a pattern -/

theorem isPrefixOf_append {p b : Bytes} (h : p.length ≤ b.length) (c : Bytes) :
    p.isPrefixOf (b ++ c) = p.isPrefixOf b := by
  rw [Bool.eq_iff_iff, List.isPrefixOf_iff_prefix, List.isPrefixOf_iff_prefix]
  exact ⟨fun hp => List.prefix_of_prefix_length_le hp (List.prefix_append b c) h,
    fun hp => hp.trans (List.prefix_append b c)⟩

theorem cut?_of_isPrefixOf {p b : Bytes} (h : p.isPrefixOf b) : cut? b p = some ([], b.drop p.length) := by
  cases b with
  | nil =>
    obtain rfl := List.prefix_nil.mp (List.isPrefixOf_iff_prefix.mp h)
    rfl
  | cons x b => rw [cut?, if_pos h]

theorem cut?_prefix (p b : Bytes) : cut? (p ++ b) p = some ([], b) := by
  rw [cut?_of_isPrefixOf (List.isPrefixOf_iff_prefix.mpr (List.prefix_append p b)), List.drop_left]

theorem cut?_cons_of_not {p : Bytes} {x : UInt8} {b : Bytes} (h : p.isPrefixOf (x :: b) = false) :
    cut? (x :: b) p = (cut? b p).map fun r => (x :: r.1, r.2) := by
  rw [cut?, h]
  cases cut? b p <;> rfl

/-- The first occurrence stays where it is when bytes are added. -/
theorem cut?_append {p b before after : Bytes} (h : cut? b p = some (before, after)) (c : Bytes) :
    cut? (b ++ c) p = some (before, after ++ c) := by
  have hlen := length_of_cut? h
  induction b generalizing before with
  | nil =>
    have hp : p = [] := List.length_eq_zero_iff.mp (by simp at hlen; omega)
    subst hp
    obtain ⟨rfl, rfl⟩ : before = [] ∧ after = [] := by simpa [cut?] using h.symm
    rw [cut?_of_isPrefixOf (by simp)]
    simp
  | cons x b ih =>
    have hpre := isPrefixOf_append (p := p) (b := x :: b) (by omega) c
    cases hx : p.isPrefixOf (x :: b) with
    | true =>
      rw [cut?_of_isPrefixOf hx] at h
      simp only [Option.some.injEq, Prod.mk.injEq] at h
      obtain ⟨rfl, rfl⟩ := h
      rw [cut?_of_isPrefixOf (hpre.trans hx), List.drop_append_of_le_length (by simp at hlen; simp; omega)]
    | false =>
      rw [cut?_cons_of_not hx] at h
      obtain ⟨⟨before', after'⟩, h', heq⟩ := Option.map_eq_some_iff.mp h
      simp only [Prod.mk.injEq] at heq
      obtain ⟨rfl, rfl⟩ := heq
      have hcons := cut?_cons_of_not (b := b ++ c) (hpre.trans hx)
      rw [ih h' (length_of_cut? h')] at hcons
      exact hcons

theorem cut?_eq_none_iff {p : Bytes} (hp : p ≠ []) {b : Bytes} : cut? b p = none ↔ ¬ p <:+: b := by
  induction b with
  | nil => simp [cut?, hp]
  | cons x b ih =>
    rw [List.infix_cons_iff, ← List.isPrefixOf_iff_prefix]
    cases hx : p.isPrefixOf (x :: b) with
    | true => simp [cut?_of_isPrefixOf hx]
    | false => simp [cut?_cons_of_not hx, ih]

/-- Bytes without the pattern can be passed over, except for as many at their end as could be the
start of one. -/
theorem cut?_append_of_not_infix {p u k : Bytes} (h : ¬ p <:+: u ++ k) (hk : p.length ≤ k.length + 1)
    (c : Bytes) : cut? (u ++ k ++ c) p = (cut? (k ++ c) p).map fun r => (u ++ r.1, r.2) := by
  induction u with
  | nil => simp
  | cons x u ih =>
    have hx : p.isPrefixOf (x :: u ++ k ++ c) = false := by
      rw [isPrefixOf_append (by simp; omega), ← Bool.not_eq_true, List.isPrefixOf_iff_prefix]
      exact fun hp => h hp.isInfix
    rw [List.cons_append, List.cons_append, cut?_cons_of_not (by simpa using hx),
      ih fun hi => h (hi.trans (List.suffix_cons x (u ++ k)).isInfix), Option.map_map]
    rfl

end Bytes

namespace Frame

open Bytes (cut?)

theorem marker_ne_nil : marker ≠ [] := by decide

theorem marker_length : marker.length = 15 := by decide

/-! ## Steps -/

/-- What a buffer that starts with a marker is good for. -/
def stepMarked (buffer : Bytes) : Step :=
  match buffer.cut? terminator with
  | none => .wait buffer
  | some (header, rest) =>
    match contentLength? header with
    | none => .skip rest
    | some n =>
      if UInt64.size ≤ header.length + terminator.length + n then .overflow
      else if rest.length < n then .wait buffer
      else .deliver (rest.take n) (rest.drop n)

theorem step_of_marker {b before tail : Bytes} (h : cut? b marker = some (before, tail)) :
    step b = stepMarked (marker ++ tail) := by
  rw [step, h]
  rfl

theorem step_of_no_marker {b : Bytes} (h : cut? b marker = none) :
    step b = .wait (b.drop (b.length - (marker.length - 1))) := by
  rw [step, h]

theorem step_marker_append (tail : Bytes) : step (marker ++ tail) = stepMarked (marker ++ tail) :=
  step_of_marker (Bytes.cut?_prefix marker tail)

/-- All that can come of a buffer that starts with a marker. More bytes change none of it but the
waiting. -/
theorem stepMarked_cases (b : Bytes) :
    stepMarked b = .wait b ∨
    (∃ rest, ∀ c, stepMarked (b ++ c) = .skip (rest ++ c)) ∨
    (∃ body rest, ∀ c, stepMarked (b ++ c) = .deliver body (rest ++ c)) ∨
    ∀ c, stepMarked (b ++ c) = .overflow := by
  cases ht : cut? b terminator with
  | none => simp only [stepMarked, ht, true_or]
  | some r =>
    obtain ⟨header, rest⟩ := r
    have hmore := Bytes.cut?_append ht
    cases hn : contentLength? header with
    | none => exact .inr (.inl ⟨rest, fun c => by simp only [stepMarked, hmore c, hn]⟩)
    | some n =>
      by_cases ho : UInt64.size ≤ header.length + terminator.length + n
      · exact .inr (.inr (.inr fun c => by simp only [stepMarked, hmore c, hn, if_pos ho]))
      by_cases hw : rest.length < n
      · left
        simp only [stepMarked, ht, hn, if_neg ho, if_pos hw]
      · refine .inr (.inr (.inl ⟨rest.take n, rest.drop n, fun c => ?_⟩))
        have hc : ¬ (rest ++ c).length < n := by rw [List.length_append]; omega
        simp only [stepMarked, hmore c, hn, if_neg ho, if_neg hc,
          List.take_append_of_le_length (Nat.le_of_not_lt hw), List.drop_append_of_le_length (Nat.le_of_not_lt hw)]

/-- A step and more bytes: what was decided stays decided, and the bytes that are kept are as good
as all that were seen. -/
theorem step_cases (b : Bytes) :
    (∃ kept, step b = .wait kept ∧ ∀ c, step (b ++ c) = step (kept ++ c)) ∨
    (∃ rest, ∀ c, step (b ++ c) = .skip (rest ++ c)) ∨
    (∃ body rest, ∀ c, step (b ++ c) = .deliver body (rest ++ c)) ∨
    ∀ c, step (b ++ c) = .overflow := by
  cases hb : cut? b marker with
  | none =>
    refine .inl ⟨_, step_of_no_marker hb, fun c => ?_⟩
    -- `b` falls into `u`, which can be passed over, and the bytes kept.
    obtain ⟨u, k, rfl, hk, hkeep⟩ : ∃ u k, b = u ++ k ∧ (u = [] ∨ marker.length ≤ k.length + 1) ∧
        b.drop (b.length - (marker.length - 1)) = k :=
      ⟨b.take (b.length - (marker.length - 1)), _, (List.take_append_drop _ b).symm,
        by rw [List.take_eq_nil_iff, List.length_drop, marker_length]; omega, rfl⟩
    rw [hkeep]
    rcases hk with rfl | hk
    · rw [List.nil_append]
    have hcut := Bytes.cut?_append_of_not_infix ((Bytes.cut?_eq_none_iff marker_ne_nil).mp hb) hk c
    cases hc : cut? (k ++ c) marker with
    | none =>
      rw [hc, Option.map_none] at hcut
      rw [step_of_no_marker hcut, step_of_no_marker hc, List.append_assoc, List.length_append,
        show u.length + (k ++ c).length - (marker.length - 1) =
          u.length + ((k ++ c).length - (marker.length - 1)) by
          rw [List.length_append]; omega, List.drop_append]
      simp
    | some r =>
      rw [hc, Option.map_some] at hcut
      rw [step_of_marker hcut, step_of_marker hc]
  | some r =>
    obtain ⟨before, tail⟩ := r
    have hmore : ∀ c, step (b ++ c) = stepMarked (marker ++ tail ++ c) := fun c => by
      rw [step_of_marker (Bytes.cut?_append hb c), List.append_assoc]
    rcases stepMarked_cases (marker ++ tail) with hw | ⟨rest, hs⟩ | ⟨body, rest, hd⟩ | ho
    · refine .inl ⟨marker ++ tail, by rw [step_of_marker hb, hw], fun c => ?_⟩
      rw [hmore, List.append_assoc, step_marker_append]
    · exact .inr (.inl ⟨rest, fun c => by rw [hmore, hs]⟩)
    · exact .inr (.inr (.inl ⟨body, rest, fun c => by rw [hmore, hd]⟩))
    · exact .inr (.inr (.inr fun c => by rw [hmore, ho]))

/-! ## Draining -/

theorem drain_of_wait {b kept : Bytes} (h : step b = .wait kept) : drain b = some ⟨[], kept⟩ := by
  rw [drain]
  split <;> rename_i heq <;> rw [h] at heq <;> cases heq
  rfl

theorem drain_of_overflow {b : Bytes} (h : step b = .overflow) : drain b = none := by
  rw [drain]
  split <;> rename_i heq <;> rw [h] at heq <;> cases heq

theorem drain_of_skip {b rest : Bytes} (h : step b = .skip rest) : drain b = drain rest := by
  rw [drain]
  split <;> rename_i heq <;> rw [h] at heq <;> cases heq
  rfl

theorem drain_of_deliver {b body rest : Bytes} (h : step b = .deliver body rest) :
    drain b = (drain rest).map fun d => ⟨body :: d.bodies, d.buffer⟩ := by
  rw [drain]
  split <;> rename_i heq <;> rw [h] at heq <;> cases heq
  cases drain rest <;> rfl

theorem drain_congr {x y : Bytes} (h : step x = step y) : drain x = drain y := by
  cases hy : step y with
  | wait kept => rw [drain_of_wait hy, drain_of_wait (h.trans hy)]
  | skip rest => rw [drain_of_skip hy, drain_of_skip (h.trans hy)]
  | deliver body rest => rw [drain_of_deliver hy, drain_of_deliver (h.trans hy)]
  | overflow => rw [drain_of_overflow hy, drain_of_overflow (h.trans hy)]

/-- Draining with a break: what was drained before it, and what can be drained of the bytes kept
and those that follow. -/
theorem drain_append (x y : Bytes) :
    drain (x ++ y) =
      (drain x).bind fun d => (drain (d.buffer ++ y)).map fun e => ⟨d.bodies ++ e.bodies, e.buffer⟩ := by
  induction hn : x.length using Nat.strongRecOn generalizing x with
  | _ n ih =>
    subst hn
    rcases step_cases x with ⟨kept, hw, hk⟩ | ⟨rest, hs⟩ | ⟨body, rest, hd⟩ | ho
    · -- The step decides the same from the bytes kept, so draining them goes on alike.
      rw [drain_congr (hk y), drain_of_wait hw]
      simp
    · have hx : step x = .skip rest := by simpa using hs []
      rw [drain_of_skip (hs y), drain_of_skip hx, ih _ (length_lt_of_skip hx) rest rfl]
    · have hx : step x = .deliver body rest := by simpa using hd []
      rw [drain_of_deliver (hd y), drain_of_deliver hx, ih _ (length_lt_of_deliver hx) rest rfl]
      cases drain rest with
      | none => rfl
      | some d =>
        simp only [Option.map_some, Option.bind_some, Option.map_map]
        rfl
    · have hx : step x = .overflow := by simpa using ho []
      rw [drain_of_overflow (ho y), drain_of_overflow hx]
      rfl

/-- What draining leaves is kept as it is by a further step. -/
theorem step_buffer {x : Bytes} {d : Drained} (h : drain x = some d) : step d.buffer = .wait d.buffer := by
  induction hn : x.length using Nat.strongRecOn generalizing x d with
  | _ n ih =>
    subst hn
    rcases step_cases x with ⟨kept, hw, hk⟩ | ⟨rest, hs⟩ | ⟨body, rest, hd⟩ | ho
    · obtain rfl := Option.some.inj ((drain_of_wait hw).symm.trans h)
      have := hk []
      rw [List.append_nil, List.append_nil, hw] at this
      exact this.symm
    · have hx : step x = .skip rest := by simpa using hs []
      rw [drain_of_skip hx] at h
      exact ih _ (length_lt_of_skip hx) h rfl
    · have hx : step x = .deliver body rest := by simpa using hd []
      rw [drain_of_deliver hx] at h
      obtain ⟨e, he, rfl⟩ := Option.map_eq_some_iff.mp h
      exact ih _ (length_lt_of_deliver hx) (d := e) he rfl
    · have hx : step x = .overflow := by simpa using ho []
      rw [drain_of_overflow hx] at h
      cases h

/-! ## Chunks -/

/-- Takes in a chunk, with bodies read by any function of their bytes. -/
def feed {α : Type} (parse : Bytes → Option α) (d : Decoder) (chunk : Bytes) : Option (List α × Decoder) :=
  (drain (d.buffer ++ chunk)).map fun r => (r.bodies.filterMap parse, ⟨r.buffer⟩)

theorem push_eq_feed (d : Decoder) (chunk : Bytes) : d.push chunk = feed bodyValue? d chunk := by
  rw [Decoder.push, feed]
  cases drain (d.buffer ++ chunk) <;> rfl

/-- Takes in chunks one after the other; none as soon as one of them is refused. -/
def takeAll {α : Type} (take : Decoder → Bytes → Option (List α × Decoder)) :
    Decoder → List Bytes → Option (List α × Decoder)
  | d, [] => some ([], d)
  | d, c :: cs => (take d c).bind fun r => (takeAll take r.2 cs).map fun q => (r.1 ++ q.1, q.2)

theorem feed_append {α : Type} (parse : Bytes → Option α) (d : Decoder) (x y : Bytes) :
    feed parse d (x ++ y) =
      (feed parse d x).bind fun r => (feed parse r.2 y).map fun q => (r.1 ++ q.1, q.2) := by
  rw [feed, feed, ← List.append_assoc, drain_append]
  cases drain (d.buffer ++ x) with
  | none => rfl
  | some r =>
    simp only [Option.bind_some, Option.map_some, feed, Option.map_map]
    congr 1
    funext e
    simp [List.filterMap_append]

/-- From a decoder that waits, taking in chunks is taking in their concatenation. -/
theorem takeAll_feed {α : Type} (parse : Bytes → Option α) {d : Decoder} (hd : step d.buffer = .wait d.buffer)
    (chunks : List Bytes) : takeAll (feed parse) d chunks = feed parse d chunks.flatten := by
  induction chunks generalizing d with
  | nil =>
    rw [takeAll, List.flatten_nil, feed, List.append_nil, drain_of_wait hd]
    rfl
  | cons c cs ih =>
    rw [takeAll, List.flatten_cons, feed_append]
    cases hc : feed parse d c with
    | none => rfl
    | some r =>
      obtain ⟨e, he, rfl⟩ := Option.map_eq_some_iff.mp hc
      simp only [Option.bind_some]
      rw [ih (step_buffer he)]

theorem step_nil : step [] = .wait [] := step_of_no_marker ((Bytes.cut?_eq_none_iff marker_ne_nil).mpr (by decide))

/-- A stream in chunks gives the messages, the buffer and the refusal of the stream at once,
whatever reads the bodies. -/
theorem push_chunks (chunks : List Bytes) :
    takeAll Decoder.push {} chunks = Decoder.push {} chunks.flatten ∧
      ∀ {α : Type} (parse : Bytes → Option α),
        takeAll (feed parse) {} chunks = feed parse {} chunks.flatten := by
  have hall : ∀ {α : Type} (parse : Bytes → Option α),
      takeAll (feed parse) {} chunks = feed parse {} chunks.flatten :=
    fun parse => takeAll_feed parse step_nil chunks
  have hpush : Decoder.push = feed bodyValue? := by
    funext d c
    exact push_eq_feed d c
  exact ⟨by rw [hpush, hall], hall⟩

end Frame

end Refactor
