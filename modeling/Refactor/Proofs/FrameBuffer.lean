import Refactor.Proofs.FrameChunks

/-!
# What a decoder keeps

After every chunk the decoder keeps the bytes that it cannot use yet: the start of a marker, a header without its end, or
a header and a part of its body. All else is taken from the buffer, in as many rounds as there are frames and headers in
it.

* `Bytes.CutAt`, `Bytes.cut?_eq_some_iff`: the first occurrence of a pattern;
* `Resting`, `step_eq_wait_iff`: the buffers that a step leaves as they are;
* `outcome_step`: what is left after a step, and by how much it is shorter;
* `Loops`, `exists_loops`: the rounds of a decoding, of which there are finitely many; `drain_of_loops`: what comes of
  them;
* `pushes_settle`: chunks one after the other.
-/

namespace Refactor

namespace Bytes

/-! ## First occurrences -/

/-- The first occurrence of a pattern in bytes, with what stands before it and what follows. -/
structure CutAt (p b before after : Bytes) : Prop where
  eq : b = before ++ p ++ after
  first : ¬ p <:+: before ++ p.dropLast

theorem not_infix_dropLast {p : Bytes} (hp : p ≠ []) : ¬ p <:+: p.dropLast := by
  intro h
  have hlen := h.length_le
  have hpos := List.length_pos_iff.mpr hp
  rw [List.length_dropLast] at hlen
  omega

theorem cutAt_append {p : Bytes} (hp : p ≠ []) (after : Bytes) : CutAt p (p ++ after) [] after :=
  ⟨rfl, not_infix_dropLast hp⟩

/-- Bytes up to an occurrence, without its last byte, are a start of the bytes. -/
theorem prefix_of_eq {p b before after : Bytes} (h : b = before ++ p ++ after) : before ++ p.dropLast <+: b := by
  rw [h]
  exact (List.prefix_append_right_inj before).mpr (List.dropLast_prefix p) |>.trans (List.prefix_append _ _)

theorem CutAt.before_length_le {p b before after before' after' : Bytes} (hp : p ≠ []) (h : CutAt p b before after)
    (h' : CutAt p b before' after') : before'.length ≤ before.length := by
  refine Nat.le_of_not_lt fun hlt => h'.first ?_
  have hpos := List.length_pos_iff.mpr hp
  have hstart : before ++ p <+: before' ++ p.dropLast := by
    refine List.prefix_of_prefix_length_le ⟨after, h.eq.symm⟩ (prefix_of_eq h'.eq) ?_
    rw [List.length_append, List.length_append, List.length_dropLast]
    omega
  exact (List.suffix_append before p).isInfix.trans hstart.isInfix

/-- A pattern has only one first occurrence. -/
theorem CutAt.unique {p b before after before' after' : Bytes} (hp : p ≠ []) (h : CutAt p b before after)
    (h' : CutAt p b before' after') : before' = before ∧ after' = after := by
  have hlen : before'.length = before.length := Nat.le_antisymm (h.before_length_le hp h') (h'.before_length_le hp h)
  have heq : before' ++ (p ++ after') = before ++ (p ++ after) := by
    rw [← List.append_assoc, ← List.append_assoc, ← h'.eq, h.eq]
  obtain ⟨hbefore, hafter⟩ := List.append_inj heq hlen
  exact ⟨hbefore, List.append_cancel_left hafter⟩

theorem cutAt_of_cut? {p b before after : Bytes} (hp : p ≠ []) (h : cut? b p = some (before, after)) :
    CutAt p b before after := by
  refine ⟨eq_of_cut? h, ?_⟩
  induction b generalizing before with
  | nil => simp [cut?, hp] at h
  | cons x b ih =>
    cases hx : p.isPrefixOf (x :: b) with
    | true =>
      rw [cut?_of_isPrefixOf hx] at h
      obtain ⟨rfl, -⟩ := Prod.mk.inj (Option.some.inj h)
      exact not_infix_dropLast hp
    | false =>
      have hstart := prefix_of_eq (eq_of_cut? h)
      rw [cut?_cons_of_not hx] at h
      obtain ⟨⟨before', after'⟩, h', heq⟩ := Option.map_eq_some_iff.mp h
      obtain ⟨rfl, rfl⟩ := Prod.mk.inj heq
      rw [List.cons_append, List.infix_cons_iff, not_or]
      refine ⟨fun hbegin => ?_, ih h'⟩
      rw [← Bool.not_eq_true, List.isPrefixOf_iff_prefix] at hx
      exact hx (hbegin.trans hstart)

theorem cut?_eq_some_iff {p b before after : Bytes} (hp : p ≠ []) :
    cut? b p = some (before, after) ↔ CutAt p b before after := by
  refine ⟨cutAt_of_cut? hp, fun h => ?_⟩
  cases hcut : cut? b p with
  | none =>
    rw [cut?_eq_none_iff hp, h.eq] at hcut
    exact absurd ⟨before, after, rfl⟩ hcut
  | some r =>
    obtain ⟨hbefore, hafter⟩ := h.unique hp (cutAt_of_cut? hp hcut)
    rw [← hbefore, ← hafter]

end Bytes

namespace Frame

open Bytes (cut? CutAt)

/-! ## Buffers that wait -/

theorem terminator_ne_nil : terminator ≠ [] := by decide

/-- Bytes that are of no use until more come. -/
inductive Resting (b : Bytes) : Prop where
  /-- Perhaps the start of a marker. -/
  | noise (hlen : b.length ≤ 14) (hno : ¬ marker <:+: b)
  /-- A header without its end. -/
  | header (hstart : marker <+: b) (hno : ¬ terminator <:+: b)
  /-- A header and a part of its body. -/
  | body {header rest : Bytes} {n : Nat} (hstart : marker <+: b) (hcut : CutAt terminator b header rest)
    (hlength : contentLength? header = some n) (hfits : header.length + terminator.length + n < UInt64.size)
    (hshort : rest.length < n)

theorem step_of_resting {b : Bytes} (h : Resting b) : step b = .wait b := by
  have hmarked : marker <+: b → step b = stepMarked b := by
    rintro ⟨tail, rfl⟩
    exact step_marker_append tail
  cases h with
  | noise hlen hno =>
    rw [step_of_no_marker ((Bytes.cut?_eq_none_iff marker_ne_nil).mpr hno), marker_length,
      show b.length - (15 - 1) = 0 by omega, List.drop_zero]
  | header hstart hno =>
    rw [hmarked hstart, stepMarked, (Bytes.cut?_eq_none_iff terminator_ne_nil).mpr hno]
  | body hstart hcut hlength hfits hshort =>
    rw [hmarked hstart]
    simp only [stepMarked, (Bytes.cut?_eq_some_iff terminator_ne_nil).mpr hcut, hlength,
      if_neg (Nat.not_le_of_lt hfits), if_pos hshort]

/-! ## What a step leaves -/

/-- What is left of a buffer is its end, and is at rest or shorter by a marker and the end of a header. -/
def Outcome (b : Bytes) : Step → Prop
  | .wait kept => kept <:+ b ∧ Resting kept
  | .skip rest => rest <:+ b ∧ rest.length + 19 ≤ b.length
  | .deliver _ rest => rest <:+ b ∧ rest.length + 19 ≤ b.length
  | .overflow => True

theorem Outcome.mono {b b' : Bytes} (hb : b <:+ b') {s : Step} (h : Outcome b s) : Outcome b' s := by
  have hlen := hb.length_le
  cases s with
  | wait kept => exact ⟨h.1.trans hb, h.2⟩
  | skip rest => exact ⟨h.1.trans hb, Nat.le_trans h.2 hlen⟩
  | deliver body rest => exact ⟨h.1.trans hb, Nat.le_trans h.2 hlen⟩
  | overflow => trivial

/-- A header with a marker at its start is as long as the marker, since the marker has none of the bytes that end it. -/
theorem marker_length_le {b header rest : Bytes} (hstart : marker <+: b) (hcut : CutAt terminator b header rest) :
    15 ≤ header.length := by
  refine Nat.le_of_not_lt fun hlt => ?_
  obtain ⟨tail, rfl⟩ := hstart
  have hreturn : (13 : UInt8) ∈ marker := by
    have hget : (marker ++ tail)[header.length]? = some 13 := by
      rw [hcut.eq, List.append_assoc, List.getElem?_append_right (Nat.le_refl _), Nat.sub_self]
      rfl
    rw [List.getElem?_append_left (by rw [marker_length]; omega)] at hget
    exact List.mem_of_getElem? hget
  exact absurd hreturn (by decide)

theorem outcome_stepMarked {b : Bytes} (hstart : marker <+: b) : Outcome b (stepMarked b) := by
  cases ht : cut? b terminator with
  | none =>
    have hstep : stepMarked b = .wait b := by simp only [stepMarked, ht]
    rw [hstep]
    exact ⟨List.suffix_refl b, .header hstart ((Bytes.cut?_eq_none_iff terminator_ne_nil).mp ht)⟩
  | some r =>
    obtain ⟨header, rest⟩ := r
    have hcut := Bytes.cutAt_of_cut? terminator_ne_nil ht
    have hsuffix : rest <:+ b := ⟨header ++ terminator, hcut.eq.symm⟩
    have hlen : rest.length + 19 ≤ b.length := by
      have hheader := marker_length_le hstart hcut
      have hb := Bytes.length_of_cut? ht
      rw [terminator_length] at hb
      omega
    cases hn : contentLength? header with
    | none =>
      have hstep : stepMarked b = .skip rest := by simp only [stepMarked, ht, hn]
      rw [hstep]
      exact ⟨hsuffix, hlen⟩
    | some n =>
      by_cases hover : UInt64.size ≤ header.length + terminator.length + n
      · have hstep : stepMarked b = .overflow := by simp only [stepMarked, ht, hn, if_pos hover]
        rw [hstep]
        trivial
      by_cases hshort : rest.length < n
      · have hstep : stepMarked b = .wait b := by simp only [stepMarked, ht, hn, if_neg hover, if_pos hshort]
        rw [hstep]
        exact ⟨List.suffix_refl b, .body hstart hcut hn (Nat.lt_of_not_le hover) hshort⟩
      · have hstep : stepMarked b = .deliver (rest.take n) (rest.drop n) := by
          simp only [stepMarked, ht, hn, if_neg hover, if_neg hshort]
        rw [hstep]
        refine ⟨(List.drop_suffix n rest).trans hsuffix, ?_⟩
        rw [List.length_drop]
        omega

theorem outcome_step (b : Bytes) : Outcome b (step b) := by
  cases hb : cut? b marker with
  | none =>
    have hno := (Bytes.cut?_eq_none_iff marker_ne_nil).mp hb
    have hsuffix := List.drop_suffix (b.length - 14) b
    rw [step_of_no_marker hb, marker_length]
    refine ⟨hsuffix, .noise ?_ fun h => hno (h.trans hsuffix.isInfix)⟩
    rw [List.length_drop]
    omega
  | some r =>
    obtain ⟨before, tail⟩ := r
    rw [step_of_marker hb]
    refine (outcome_stepMarked (List.prefix_append marker tail)).mono ⟨before, ?_⟩
    rw [Bytes.eq_of_cut? hb, List.append_assoc]

theorem outcome_of_step {b : Bytes} {s : Step} (h : step b = s) : Outcome b s := h ▸ outcome_step b

/-- A step leaves exactly the buffers at rest as they are. -/
theorem step_eq_wait_iff {b : Bytes} : step b = .wait b ↔ Resting b :=
  ⟨fun h => (outcome_of_step h).2, step_of_resting⟩

/-! ## Rounds -/

/-- The rounds of a decoding: how many of them take a frame or a header, the bodies of the frames, and the bytes that
are kept in the end, or none on overflow. -/
inductive Loops : Bytes → Nat → List Bytes → Option Bytes → Prop where
  | wait {b kept : Bytes} (h : step b = .wait kept) : Loops b 0 [] (some kept)
  | overflow {b : Bytes} (h : step b = .overflow) : Loops b 0 [] none
  | skip {b rest : Bytes} {n : Nat} {bodies : List Bytes} {kept : Option Bytes} (h : step b = .skip rest)
    (hrest : Loops rest n bodies kept) : Loops b (n + 1) bodies kept
  | deliver {b body rest : Bytes} {n : Nat} {bodies : List Bytes} {kept : Option Bytes}
    (h : step b = .deliver body rest) (hrest : Loops rest n bodies kept) : Loops b (n + 1) (body :: bodies) kept

/-- There are only so many rounds: each but the last takes a marker and the end of a header. -/
theorem exists_loops (b : Bytes) : ∃ n bodies kept, Loops b n bodies kept ∧ 19 * n ≤ b.length := by
  induction hlen : b.length using Nat.strongRecOn generalizing b with
  | _ len ih =>
    subst hlen
    cases hs : step b with
    | wait kept => exact ⟨0, [], some kept, .wait hs, Nat.zero_le _⟩
    | overflow => exact ⟨0, [], none, .overflow hs, Nat.zero_le _⟩
    | skip rest =>
      obtain ⟨-, hshorter⟩ := outcome_of_step hs
      obtain ⟨n, bodies, kept, hloops, hn⟩ := ih rest.length (by omega) rest rfl
      exact ⟨n + 1, bodies, kept, .skip hs hloops, by omega⟩
    | deliver body rest =>
      obtain ⟨-, hshorter⟩ := outcome_of_step hs
      obtain ⟨n, bodies, kept, hloops, hn⟩ := ih rest.length (by omega) rest rfl
      exact ⟨n + 1, body :: bodies, kept, .deliver hs hloops, by omega⟩

theorem drain_of_loops {b : Bytes} {n : Nat} {bodies : List Bytes} {kept : Option Bytes} (h : Loops b n bodies kept) :
    drain b = kept.map fun buffer => ⟨bodies, buffer⟩ := by
  induction h with
  | wait h => exact drain_of_wait h
  | overflow h => exact drain_of_overflow h
  | skip h _ ih => rw [drain_of_skip h, ih]
  | deliver h _ ih =>
    rw [drain_of_deliver h, ih, Option.map_map]
    rfl

/-- What is kept in the end is the end of the bytes, at rest. -/
theorem Loops.resting {b kept : Bytes} {n : Nat} {bodies : List Bytes} (h : Loops b n bodies (some kept)) :
    kept <:+ b ∧ Resting kept := by
  generalize hexit : some kept = exit at h
  induction h with
  | wait h =>
    obtain rfl := Option.some.inj hexit
    exact outcome_of_step h
  | overflow h => cases hexit
  | skip h _ ih =>
    obtain ⟨hsuffix, -⟩ := outcome_of_step h
    exact ⟨(ih hexit).1.trans hsuffix, (ih hexit).2⟩
  | deliver h _ ih =>
    obtain ⟨hsuffix, -⟩ := outcome_of_step h
    exact ⟨(ih hexit).1.trans hsuffix, (ih hexit).2⟩

theorem push_of_loops {d : Decoder} {chunk : Bytes} {n : Nat} {bodies : List Bytes} {kept : Option Bytes}
    (h : Loops (d.buffer ++ chunk) n bodies kept) :
    d.push chunk = kept.map fun buffer => (bodies.filterMap bodyValue?, ⟨buffer⟩) := by
  rw [Decoder.push, drain_of_loops h]
  cases kept <;> rfl

/-! ## Frames in the buffer -/

/-- A whole frame, which is the first in the bytes: a header with a length, and a body of that length. -/
def HoldsFrame (b : Bytes) : Prop :=
  ∃ noise tail header body rest, CutAt marker b noise tail ∧ CutAt terminator (marker ++ tail) header (body ++ rest) ∧
    contentLength? header = some body.length

theorem not_holdsFrame_of_resting {b : Bytes} (h : Resting b) : ¬ HoldsFrame b := by
  rintro ⟨noise, tail, header, body, rest, hmarker, hterm, hlength⟩
  -- Where the bytes start with a marker nothing stands before the first one.
  have hstart : marker <+: b → marker ++ tail = b := by
    rintro ⟨tail', rfl⟩
    rw [((Bytes.cutAt_append marker_ne_nil tail').unique marker_ne_nil hmarker).2]
  cases h with
  | noise _ hno => exact hno ⟨noise, tail, hmarker.eq.symm⟩
  | header h hno =>
    rw [hstart h] at hterm
    exact hno ⟨header, body ++ rest, hterm.eq.symm⟩
  | body h hcut hlength' _ hshort =>
    rw [hstart h] at hterm
    obtain ⟨rfl, rfl⟩ := hcut.unique terminator_ne_nil hterm
    obtain rfl := Option.some.inj (hlength.symm.trans hlength')
    rw [List.length_append] at hshort
    omega

/-! ## Chunks -/

/-- A decoder with nothing in its buffer but what it waits with. -/
structure Settled (received : Bytes) (d : Decoder) : Prop where
  suffix : d.buffer <:+ received
  resting : Resting d.buffer
  /-- Noise is not kept, except for what may be the start of a marker. -/
  noise : marker <+: d.buffer ∨ d.buffer.length < marker.length
  no_frame : ¬ HoldsFrame d.buffer
  idle : d.push [] = some ([], d)

theorem settled_of_resting {received : Bytes} {d : Decoder} (hsuffix : d.buffer <:+ received) (h : Resting d.buffer) :
    Settled received d where
  suffix := hsuffix
  resting := h
  noise := by
    cases h with
    | noise hlen _ => exact .inr (Nat.lt_succ_of_le hlen)
    | header hstart _ => exact .inl hstart
    | body hstart _ _ _ _ => exact .inl hstart
  no_frame := not_holdsFrame_of_resting h
  idle := by
    have hwait : Loops (d.buffer ++ []) 0 [] (some d.buffer) := by
      rw [List.append_nil]
      exact .wait (step_of_resting h)
    exact push_of_loops hwait

/-- A chunk leaves a settled decoder settled, unless it overflows. -/
theorem Settled.push {received chunk : Bytes} {d d' : Decoder} {messages : List Json} (h : Settled received d)
    (hpush : d.push chunk = some (messages, d')) : Settled (received ++ chunk) d' := by
  obtain ⟨n, bodies, kept, hloops, -⟩ := exists_loops (d.buffer ++ chunk)
  rw [push_of_loops hloops] at hpush
  obtain ⟨buffer, rfl, heq⟩ := Option.map_eq_some_iff.mp hpush
  obtain ⟨-, rfl⟩ := Prod.mk.inj heq
  obtain ⟨hsuffix, hresting⟩ := hloops.resting
  refine settled_of_resting (hsuffix.trans ?_) hresting
  obtain ⟨before, hbefore⟩ := h.suffix
  exact ⟨before, by rw [← hbefore, List.append_assoc]⟩

theorem Settled.takeAll {received : Bytes} {d d' : Decoder} {chunks : List Bytes} {messages : List Json}
    (h : Settled received d) (htake : takeAll Decoder.push d chunks = some (messages, d')) :
    Settled (received ++ chunks.flatten) d' := by
  induction chunks generalizing received d messages with
  | nil =>
    obtain ⟨-, rfl⟩ := Prod.mk.inj (Option.some.inj htake)
    rwa [List.flatten_nil, List.append_nil]
  | cons chunk chunks ih =>
    obtain ⟨⟨first, e⟩, hpush, hrest⟩ := Option.bind_eq_some_iff.mp htake
    obtain ⟨⟨others, e'⟩, hothers, heq⟩ := Option.map_eq_some_iff.mp hrest
    obtain ⟨-, rfl⟩ := Prod.mk.inj heq
    rw [List.flatten_cons, ← List.append_assoc]
    exact ih (h.push hpush) hothers

theorem settled_fresh : Settled [] {} := settled_of_resting (List.suffix_refl []) (step_eq_wait_iff.mp step_nil)

/-- Chunks that a fresh decoder takes in. -/
structure Settles (chunks : List Bytes) : Prop where
  /-- After each chunk there are only so many rounds, and it is refused only if the last of them is an overflow. -/
  ends : ∀ before chunk after messages d, chunks = before ++ chunk :: after →
    takeAll Decoder.push {} before = some (messages, d) →
      ∃ n bodies kept, Loops (d.buffer ++ chunk) n bodies kept ∧ 19 * n ≤ (d.buffer ++ chunk).length ∧
        d.push chunk = kept.map fun buffer => (bodies.filterMap bodyValue?, ⟨buffer⟩)
  settled : ∀ messages d, takeAll Decoder.push {} chunks = some (messages, d) → Settled chunks.flatten d

/-- Chunks of any bytes settle, however they are cut. -/
theorem pushes_settle (chunks : List Bytes) : Settles chunks where
  ends before chunk after messages d hsplit htake := by
    obtain ⟨n, bodies, kept, hloops, hn⟩ := exists_loops (d.buffer ++ chunk)
    exact ⟨n, bodies, kept, hloops, hn, push_of_loops hloops⟩
  settled messages d htake := by
    have hsettled := settled_fresh.takeAll htake
    rwa [List.nil_append] at hsettled

end Frame

end Refactor
