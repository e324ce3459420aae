import Refactor.Proofs.FrameChunks

/-!
# Frames among noise

A stream of frames, noise and headers without a usable length decodes to the
bodies of the frames. A body may hold anything, markers and header ends too,
since its length says where it stops.

* `toString?_eq_some_iff`, `toString?_append`: bytes and the text they stand for;
* `cut?_marker`, `cut?_terminator`: markers and header ends are found where they
  are put;
* `contentLength?_eq`: the length that a header of one line gives;
* `contentLength?_headerValue`: the length of a frame is read as it was written;
* `step_frame`, `step_badHeader`, `step_noise`: one step for each kind of segment;
* `push_segments`: a stream of segments.
-/

namespace Refactor

namespace Bytes

/-! ## Bytes of a text -/

theorem ofString_append (s t : String) : ofString (s ++ t) = ofString s ++ ofString t := by
  simp [ofString, String.toByteArray_append]

theorem ofString_ofList (t : Text) : ofString (String.ofList t) = t.utf8Encode.data.toList := by
  simp [ofString]

/-- Bytes stand for at most one text, and every text has bytes. -/
theorem toString?_eq_some_iff {b : Bytes} {s : String} : toString? b = some s ↔ ofString s = b := by
  have hs : ofString s = b ↔ s.toByteArray = ⟨b.toArray⟩ := by
    rw [ofString, String.toUTF8_eq_toByteArray]
    constructor
    · rintro rfl
      simp
    · intro h
      simp [h]
  rw [hs, toString?, String.fromUTF8?]
  split
  · rename_i h
    rw [Option.some.injEq, ← String.toByteArray_inj, eq_comm]
    rfl
  · rename_i h
    simp only [reduceCtorEq, false_iff]
    intro he
    exact h (he ▸ s.isValidUTF8)

theorem toString?_ofString (s : String) : toString? (ofString s) = some s := toString?_eq_some_iff.mpr rfl

theorem utf8Encode_append_of_ofString {s u : String} {b : Bytes} (h : ofString u = ofString s ++ b) :
    s.toList.utf8Encode ++ ⟨b.toArray⟩ = u.toList.utf8Encode := by
  rw [ofString, ofString, String.toUTF8_eq_toByteArray, String.toUTF8_eq_toByteArray] at h
  rw [String.utf8Encode_toList, String.utf8Encode_toList]
  apply ByteArray.ext
  rw [ByteArray.data_append]
  apply Array.toList_inj.mp
  simp [h]

/-- A text in front of bytes is the start of the text they stand for together. -/
theorem toString?_append (s : String) (b : Bytes) :
    toString? (ofString s ++ b) = (toString? b).map fun t => s ++ t := by
  cases hb : toString? b with
  | some t =>
    rw [Option.map_some, toString?_eq_some_iff, ofString_append, toString?_eq_some_iff.mp hb]
  | none =>
    rw [Option.map_none, Option.eq_none_iff_forall_not_mem]
    intro u hu
    have henc := utf8Encode_append_of_ofString (toString?_eq_some_iff.mp hu)
    obtain ⟨r, hr⟩ := List.isPrefix_of_utf8Encode_append_eq_utf8Encode _ henc
    rw [← hr, List.utf8Encode_append, ByteArray.append_right_inj] at henc
    have hbr : toString? b = some (String.ofList r) := by
      rw [toString?_eq_some_iff, ofString_ofList, ← henc]
    rw [hb] at hbr
    cases hbr

/-- A part of a text is a part of its bytes. -/
theorem infix_ofString {t : Text} {s : String} (h : t <:+: s.toList) : t.utf8Encode.data.toList <:+: ofString s := by
  obtain ⟨u, v, huv⟩ := h
  refine ⟨u.utf8Encode.data.toList, v.utf8Encode.data.toList, ?_⟩
  rw [ofString, String.toUTF8_eq_toByteArray, ← String.utf8Encode_toList, ← huv]
  simp

/-! ## Patterns put into bytes -/

/-- A pattern whose first byte it has only once is found right after bytes that do not hold it. -/
theorem cut?_of_head {a : UInt8} {p u : Bytes} (ha : a ∉ p) (hu : ¬ (a :: p) <:+: u) (b : Bytes) :
    cut? (u ++ (a :: p ++ b)) (a :: p) = some (u, b) := by
  induction u with
  | nil => exact cut?_prefix (a :: p) b
  | cons x u ih =>
    have hx : List.isPrefixOf (a :: p) (x :: (u ++ (a :: p ++ b))) = false := by
      rw [← Bool.not_eq_true, List.isPrefixOf_iff_prefix]
      intro hp
      rcases Nat.lt_or_ge u.length p.length with hlen | hlen
      · -- The pattern would start again inside itself.
        obtain ⟨q, hq⟩ := List.prefix_of_prefix_length_le (List.prefix_append (x :: u) (a :: p ++ b)) hp
          (by simp; omega)
        obtain ⟨rfl, rfl⟩ : x = a ∧ u ++ q = p := by simpa using hq
        obtain ⟨r, hr⟩ := hp
        rw [List.cons_append, List.cons.injEq, List.append_assoc, List.append_cancel_left_eq] at hr
        cases q with
        | nil => simp at hlen
        | cons y q =>
          obtain rfl : y = x := by simpa using (List.cons.inj hr.2).1
          exact ha (by simp)
      · refine hu (List.IsPrefix.isInfix ?_)
        exact List.prefix_of_prefix_length_le hp (List.prefix_append (x :: u) _) (by simp; omega)
    have hcons := cut?_cons_of_not hx
    rw [ih fun hi => hu (hi.trans (List.suffix_cons x u).isInfix)] at hcons
    exact hcons

theorem not_infix_append {p u v : Bytes} {a : UInt8} (hp : p.head? = some a) (hu : a ∉ u) (hv : ¬ p <:+: v) :
    ¬ p <:+: u ++ v := by
  induction u with
  | nil => exact hv
  | cons x u ih =>
    simp only [List.mem_cons, not_or] at hu
    rw [List.cons_append, List.infix_cons_iff, not_or]
    refine ⟨fun h => ?_, ih hu.2⟩
    cases p with
    | nil => simp at hp
    | cons y p =>
      obtain rfl : y = a := by simpa using hp
      exact hu.1 (List.cons_prefix_cons.mp h).1

end Bytes

namespace Text

theorem trim_of_not_blank {t : Text} (h : ∀ c ∈ t, isBlankChar c = false) : trim (' ' :: t) = t := by
  have hd : ∀ u : Text, (∀ c ∈ u, isBlankChar c = false) → u.dropWhile isBlankChar = u := by
    intro u hu
    cases u with
    | nil => rfl
    | cons c u => rw [List.dropWhile_cons_of_neg (by rw [hu c List.mem_cons_self]; decide)]
  rw [trim, trimStart, List.dropWhile_cons_of_pos (by decide), hd t h,
    hd t.reverse fun c hc => h c (List.mem_reverse.mp hc), List.reverse_reverse]

theorem isBlankChar_of_isDigit {c : Char} (h : c.isDigit) : isBlankChar c = false := by
  have hn : 48 ≤ c.toNat ∧ c.toNat ≤ 57 := by
    simpa [Char.isDigit, UInt32.le_iff_toNat_le] using h
  simp only [isBlankChar, Bool.or_eq_false_iff, Bool.and_eq_false_iff, decide_eq_false_iff_not, beq_eq_false_iff_ne]
  omega

end Text

namespace Frame

open Bytes (cut? ofString toString?)

/-! ## Lengths -/

/-- A decimal number of 64 bits, with or without a plus sign. -/
def IsLength (t : Text) (n : Nat) : Prop :=
  ∃ ds : Text, (t = ds ∨ t = '+' :: ds) ∧ ds ≠ [] ∧ (∀ c ∈ ds, c.isDigit) ∧
    Nat.ofDigitChars 10 ds 0 = n ∧ n < UInt64.size

theorem digitsValue_eq (ds : Text) : Json.digitsValue ds = Nat.ofDigitChars 10 ds 0 := by
  rw [Json.digitsValue, Nat.ofDigitChars_eq_foldl]
  simp only [Nat.mul_comm]

/-- The digits that a length is read from. -/
theorem length?_digits (ds : Text) (n : Nat) :
    (if ds.isEmpty || !ds.all Char.isDigit then none
      else if Json.digitsValue ds < UInt64.size then some (Json.digitsValue ds) else none) = some n ↔
      ds ≠ [] ∧ (∀ c ∈ ds, c.isDigit) ∧ Nat.ofDigitChars 10 ds 0 = n ∧ n < UInt64.size := by
  rw [digitsValue_eq]
  by_cases hd : ds.isEmpty || !ds.all Char.isDigit
  · rw [if_pos hd]
    simp only [Bool.or_eq_true, List.isEmpty_iff, Bool.not_eq_true', ← Bool.not_eq_true, List.all_eq_true] at hd
    simp only [reduceCtorEq, false_iff]
    rintro ⟨h₁, h₂, -⟩
    rcases hd with hd | hd
    · exact h₁ hd
    · exact hd h₂
  · rw [if_neg hd]
    simp only [Bool.or_eq_true, List.isEmpty_iff, Bool.not_eq_true', ← Bool.not_eq_true, List.all_eq_true,
      not_or, Decidable.not_not] at hd
    by_cases hn : Nat.ofDigitChars 10 ds 0 < UInt64.size
    · rw [if_pos hn, Option.some.injEq]
      exact ⟨fun h => ⟨hd.1, hd.2, h, h ▸ hn⟩, fun h => h.2.2.1⟩
    · rw [if_neg hn]
      simp only [reduceCtorEq, false_iff]
      rintro ⟨-, -, rfl, h⟩
      exact hn h

theorem length?_eq_some_iff {t : Text} {n : Nat} : length? t = some n ↔ IsLength t n := by
  have hplus : ¬ '+'.isDigit := by decide
  unfold length? IsLength
  split
  · rename_i ds
    dsimp only
    rw [length?_digits]
    constructor
    · intro h
      exact ⟨ds, .inr rfl, h⟩
    · rintro ⟨es, rfl | he, h⟩
      · exact absurd (h.2.1 '+' List.mem_cons_self) hplus
      · obtain rfl : ds = es := by simpa using he
        exact h
  · rename_i hne
    dsimp only
    rw [length?_digits]
    constructor
    · intro h
      exact ⟨t, .inl rfl, h⟩
    · rintro ⟨es, rfl | rfl, h⟩
      · exact h
      · exact absurd rfl (hne es)

/-! ## Headers -/

theorem marker_not_mem : (13 : UInt8) ∉ marker := by decide

/-- The marker starts with a byte that it has only once. -/
theorem marker_eq : ∃ p, marker = 67 :: p ∧ 67 ∉ p := ⟨marker.tail, by decide, by decide⟩

theorem cut?_marker {u : Bytes} (hu : ¬ marker <:+: u) (b : Bytes) :
    cut? (u ++ (marker ++ b)) marker = some (u, b) := by
  obtain ⟨p, hp, hnot⟩ := marker_eq
  rw [hp] at hu ⊢
  exact Bytes.cut?_of_head hnot hu b

theorem cut?_terminator {u : Bytes} (hu : ¬ [13, 10] <:+: u) (b : Bytes) :
    cut? (u ++ (terminator ++ b)) terminator = some (u, b) := by
  induction u with
  | nil => exact Bytes.cut?_prefix terminator b
  | cons x u ih =>
    rw [List.infix_cons_iff, not_or] at hu
    have hx : List.isPrefixOf terminator (x :: (u ++ (terminator ++ b))) = false := by
      rw [← Bool.not_eq_true, List.isPrefixOf_iff_prefix, terminator, List.cons_prefix_cons]
      rintro ⟨rfl, h⟩
      cases u with
      | nil => simp at h
      | cons y u =>
        obtain ⟨rfl, -⟩ := List.cons_prefix_cons.mp h
        exact hu.1 (by simp)
    have hcons := Bytes.cut?_cons_of_not hx
    rw [ih hu.2] at hcons
    exact hcons

theorem headerLines_of_no_break {t : Text} (h : ¬ ['\r', '\n'] <:+: t) : headerLines t = [t] := by
  fun_induction headerLines t with
  | case1 => rfl
  | case2 t ih => exact absurd (List.prefix_append ['\r', '\n'] t).isInfix h
  | case3 c t hc ih =>
    rw [ih fun hi => h (hi.trans (List.suffix_cons c t).isInfix)]
    rfl

theorem lineLength?_name (t : Text) : lineLength? ("Content-Length:".toList ++ t) = length? (Text.trim t) := by
  rw [lineLength?, if_pos (List.isPrefixOf_iff_prefix.mpr (List.prefix_append _ t)), List.drop_left]

/-- The length that a header of one line gives. -/
theorem contentLength?_eq {v : Bytes} (hv : ¬ [13, 10] <:+: v) :
    contentLength? (marker ++ v) = (toString? v).bind fun s => length? (Text.trim s.toList) := by
  rw [contentLength?, marker, Bytes.toString?_append]
  cases hs : toString? v with
  | none => rfl
  | some s =>
    have hbreak : ¬ ['\r', '\n'] <:+: ("Content-Length:" ++ s).toList := by
      intro hi
      have hb := Bytes.infix_ofString hi
      rw [Bytes.ofString_append, Bytes.toString?_eq_some_iff.mp hs] at hb
      exact Bytes.not_infix_append rfl marker_not_mem hv hb
    simp only [Option.map_some, Option.bind_some]
    rw [headerLines_of_no_break hbreak, String.toList_append, List.findSome?_singleton, lineLength?_name]

theorem mem_ofString {x : UInt8} {s : String} (h : x ∈ ofString s) :
    ∃ c ∈ s.toList, x ∈ String.utf8EncodeChar c := by
  rw [ofString, String.toUTF8_eq_toByteArray, ← String.utf8Encode_toList] at h
  simpa [List.utf8Encode] using h

/-- The value of the header of a frame. -/
def headerValue (n : Nat) : Bytes := ofString (" " ++ toString n)

theorem headerValue_no_break (n : Nat) : ¬ [13, 10] <:+: headerValue n := by
  intro hi
  have h13 : (13 : UInt8) ∈ headerValue n := hi.subset (by simp)
  obtain ⟨c, hc, hx⟩ := mem_ofString h13
  have hn : 32 ≤ c.toNat ∧ c.toNat ≤ 57 := by
    rw [String.toList_append, List.mem_append] at hc
    rcases hc with hc | hc
    · obtain rfl : c = ' ' := by simpa using hc
      decide
    · rw [Nat.toString_eq_repr, Nat.toList_repr] at hc
      have hd := Nat.isDigit_of_mem_toDigits (by decide) (by decide) hc
      have : 48 ≤ c.toNat ∧ c.toNat ≤ 57 := by simpa [Char.isDigit, UInt32.le_iff_toNat_le] using hd
      omega
  have hsize : c.utf8Size = 1 := by
    rw [Char.utf8Size_eq_one_iff, UInt32.le_iff_toNat_le]
    exact Nat.le_trans hn.2 (by decide)
  rw [String.utf8EncodeChar_eq_singleton hsize, List.mem_singleton] at hx
  have hx' : 13 = c.toNat % 256 := congrArg UInt8.toNat hx
  omega

/-- The length of a frame is read as it was written. -/
theorem contentLength?_headerValue {n : Nat} (hn : n < UInt64.size) :
    contentLength? (marker ++ headerValue n) = some n := by
  have hdigit : ∀ c ∈ Nat.toDigits 10 n, c.isDigit := fun c hc =>
    Nat.isDigit_of_mem_toDigits (by decide) (by decide) hc
  rw [contentLength?_eq (headerValue_no_break n), headerValue, Bytes.toString?_ofString, Option.bind_some,
    String.toList_append, Nat.toString_eq_repr, Nat.toList_repr]
  show length? (Text.trim (' ' :: Nat.toDigits 10 n)) = some n
  rw [Text.trim_of_not_blank fun c hc => Text.isBlankChar_of_isDigit (hdigit c hc), length?_eq_some_iff]
  exact ⟨_, .inl rfl, Nat.toDigits_ne_nil, hdigit, Nat.ofDigitChars_ten_toDigits, hn⟩

/-! ## Segments -/

/-- A part of a stream. -/
inductive Segment where
  | frame (body : String)
  | noise (bytes : Bytes)
  | badHeader (value : Bytes)

namespace Segment

/-- The bytes of a segment. -/
def bytes : Segment → Bytes
  | frame body => encode body
  | noise bytes => bytes
  | badHeader value => marker ++ (value ++ terminator)

/-- A frame has a length of 64 bits, as every byte string in memory has. Noise holds no marker. A
bad header is one line with no second marker, and what it gives is no length. -/
def WellFormed : Segment → Prop
  | frame body => (encode body).length < UInt64.size
  | noise bytes => ¬ marker <:+: bytes
  | badHeader value => ¬ [13, 10] <:+: value ∧ ¬ marker <:+: value ∧
      ∀ s n, toString? value = some s → ¬ IsLength (Text.trim s.toList) n

def isNoise : Segment → Bool
  | noise _ => true
  | _ => false

/-- The body of a frame. -/
def body? : Segment → Option String
  | frame body => some body
  | _ => none

end Segment

/-- Two segments of noise never follow each other. -/
def NoiseApart : List Segment → Prop
  | a :: b :: ss => ¬ (a.isNoise ∧ b.isNoise) ∧ NoiseApart (b :: ss)
  | _ => True

theorem NoiseApart.tail {s : Segment} {ss : List Segment} (h : NoiseApart (s :: ss)) : NoiseApart ss := by
  cases ss with
  | nil => trivial
  | cons b ss => exact h.2

/-- The bytes of a stream of segments. -/
def streamOf (ss : List Segment) : Bytes := ss.flatMap Segment.bytes

/-- A frame is delivered. -/
theorem step_frame {body : String} (h : (encode body).length < UInt64.size) (rest : Bytes) :
    step (encode body ++ rest) = .deliver (ofString body) rest := by
  have henc : encode body = marker ++ (headerValue (ofString body).length ++ (terminator ++ ofString body)) := by
    simp only [encode, headerValue, List.append_assoc]
  have hlen : (encode body).length =
      (marker ++ headerValue (ofString body).length).length + terminator.length + (ofString body).length := by
    rw [henc]
    simp only [List.length_append]
    omega
  have hbreak := Bytes.not_infix_append rfl marker_not_mem (headerValue_no_break (ofString body).length)
  have hcut := cut?_terminator hbreak (ofString body ++ rest)
  rw [henc, List.append_assoc, step_marker_append]
  rw [show marker ++ (headerValue (ofString body).length ++ (terminator ++ ofString body) ++ rest) =
    marker ++ headerValue (ofString body).length ++ (terminator ++ (ofString body ++ rest)) by
      simp only [List.append_assoc]]
  have hfit : ¬ UInt64.size ≤
      (marker ++ headerValue (ofString body).length).length + terminator.length + (ofString body).length := by
    rw [← hlen]
    omega
  have hshort : ¬ (ofString body ++ rest).length < (ofString body).length := by rw [List.length_append]; omega
  simp only [stepMarked, hcut, contentLength?_headerValue (n := (ofString body).length) (by omega),
    if_neg hfit, if_neg hshort, List.take_left', List.drop_left']

/-- A bad header is skipped. -/
theorem step_badHeader {v : Bytes} (h : (Segment.badHeader v).WellFormed) (rest : Bytes) :
    step (marker ++ (v ++ terminator) ++ rest) = .skip rest := by
  obtain ⟨hv, -, hlen⟩ := h
  have hnone : contentLength? (marker ++ v) = none := by
    rw [contentLength?_eq hv, Option.bind_eq_none_iff]
    intro s hs
    rw [Option.eq_none_iff_forall_not_mem]
    intro n hn
    exact hlen s n hs (length?_eq_some_iff.mp hn)
  have hcut := cut?_terminator (Bytes.not_infix_append rfl marker_not_mem hv) rest
  rw [List.append_assoc, step_marker_append]
  rw [show marker ++ (v ++ terminator ++ rest) = marker ++ v ++ (terminator ++ rest) by
    simp only [List.append_assoc]]
  simp only [stepMarked, hcut, hnone]

/-- Noise before a marker is passed over. -/
theorem step_noise {u : Bytes} (hu : ¬ marker <:+: u) (b : Bytes) :
    step (u ++ (marker ++ b)) = step (marker ++ b) := by
  rw [step_of_marker (cut?_marker hu b), step_marker_append]

theorem streamOf_cons (s : Segment) (ss : List Segment) : streamOf (s :: ss) = s.bytes ++ streamOf ss :=
  List.flatMap_cons

theorem exists_marker_of_not_noise {s : Segment} (h : ¬ s.isNoise) (rest : Bytes) :
    ∃ b, s.bytes ++ rest = marker ++ b := by
  cases s with
  | frame body =>
    refine ⟨headerValue (ofString body).length ++ (terminator ++ (ofString body ++ rest)), ?_⟩
    simp only [Segment.bytes, encode, headerValue, List.append_assoc]
  | noise u => exact absurd rfl h
  | badHeader v => exact ⟨v ++ terminator ++ rest, by rw [Segment.bytes, List.append_assoc]⟩

/-- Draining a stream of segments gives the bodies of its frames, and leaves nothing unless noise
comes last. -/
theorem drain_segments {ss : List Segment} (hw : ∀ s ∈ ss, s.WellFormed) (hn : NoiseApart ss) :
    ∃ buffer, drain (streamOf ss) = some ⟨(ss.filterMap Segment.body?).map ofString, buffer⟩ ∧
      ((∀ s, ss.getLast? = some s → ¬ s.isNoise) → buffer = []) := by
  induction ss with
  | nil => exact ⟨[], drain_of_wait step_nil, fun _ => rfl⟩
  | cons s ss ih =>
    have hs := hw s List.mem_cons_self
    obtain ⟨buffer, hd, hlast⟩ := ih (fun r hr => hw r (List.mem_cons_of_mem _ hr)) hn.tail
    have hlast' : (∀ r, (s :: ss).getLast? = some r → ¬ r.isNoise) → buffer = [] := by
      intro h
      refine hlast fun r hr => h r ?_
      cases ss with
      | nil => simp at hr
      | cons q qs => rw [List.getLast?_cons_cons, hr]
    rw [streamOf_cons]
    cases s with
    | frame body =>
      refine ⟨buffer, ?_, hlast'⟩
      rw [Segment.bytes, drain_of_deliver (step_frame hs _), hd]
      rfl
    | badHeader v =>
      refine ⟨buffer, ?_, hlast'⟩
      rw [Segment.bytes, drain_of_skip (step_badHeader hs _), hd]
      rfl
    | noise u =>
      cases ss with
      | nil =>
        have hcut := (Bytes.cut?_eq_none_iff marker_ne_nil).mpr hs
        refine ⟨u.drop (u.length - (marker.length - 1)), ?_, fun h => absurd rfl (h (.noise u) rfl)⟩
        rw [streamOf, List.flatMap_nil, List.append_nil]
        exact drain_of_wait (step_of_no_marker hcut)
      | cons r rs =>
        -- What follows noise starts with a marker, so the noise ends where it was put to end.
        have hr : ¬ r.isNoise := fun hr => hn.1 ⟨rfl, hr⟩
        obtain ⟨b, hb⟩ := exists_marker_of_not_noise hr (streamOf rs)
        refine ⟨buffer, ?_, hlast'⟩
        rw [streamOf_cons, hb] at hd ⊢
        rw [Segment.bytes, drain_congr (step_noise hs b), hd]
        rfl

/-- A fresh decoder takes a stream of segments to the values of the bodies of its frames, in order
and no others; when a frame comes last it keeps nothing. This holds whatever reads the bodies. -/
theorem push_segments {ss : List Segment} (hw : ∀ s ∈ ss, s.WellFormed) (hn : NoiseApart ss) :
    ∃ buffer,
      Decoder.push {} (streamOf ss) =
        some ((ss.filterMap Segment.body?).filterMap fun body => Json.parse? body.toList, ⟨buffer⟩) ∧
      (∀ {α : Type} (parse : Bytes → Option α), feed parse {} (streamOf ss) =
        some ((ss.filterMap Segment.body?).filterMap fun body => parse (ofString body), ⟨buffer⟩)) ∧
      ∀ body, ss.getLast? = some (.frame body) → buffer = [] := by
  obtain ⟨buffer, hd, hlast⟩ := drain_segments hw hn
  have hfeed : ∀ {α : Type} (parse : Bytes → Option α), feed parse {} (streamOf ss) =
      some ((ss.filterMap Segment.body?).filterMap fun body => parse (ofString body), ⟨buffer⟩) := by
    intro α parse
    rw [feed, List.nil_append, hd, Option.map_some, List.filterMap_map]
    rfl
  refine ⟨buffer, ?_, hfeed, fun body hb => hlast fun s hs => ?_⟩
  · rw [push_eq_feed, hfeed]
    simp only [bodyValue?, Bytes.toString?_ofString]
  · obtain rfl : Segment.frame body = s := Option.some.inj (hb.symm.trans hs)
    exact Bool.false_ne_true

/-- Noise that ends in the start of a marker, a frame whose body looks like a frame, and a header
whose value is no number. -/
theorem push_segments_nested :
    let ss : List Segment :=
      [.noise (ofString "log Content-Len"), .frame "Content-Length: 2\r\n\r\n[]", .badHeader (ofString " x"), .frame "[]"]
    ((∀ s ∈ ss, s.WellFormed) ∧ NoiseApart ss) ∧
      ∃ buffer, Decoder.push {} (streamOf ss) =
        some ((ss.filterMap Segment.body?).filterMap fun body => Json.parse? body.toList, ⟨buffer⟩) ∧
      (∀ {α : Type} (parse : Bytes → Option α), feed parse {} (streamOf ss) =
        some ((ss.filterMap Segment.body?).filterMap fun body => parse (ofString body), ⟨buffer⟩)) ∧
      ∀ body, ss.getLast? = some (.frame body) → buffer = [] := by
  intro ss
  have hw : ∀ s ∈ ss, s.WellFormed := by
    intro s hs
    simp only [ss, List.mem_cons, List.not_mem_nil, or_false] at hs
    rcases hs with rfl | rfl | rfl | rfl
    · exact (Bytes.cut?_eq_none_iff marker_ne_nil).mp (by decide)
    · show (encode "Content-Length: 2\r\n\r\n[]").length < UInt64.size
      decide
    · refine ⟨?_, (Bytes.cut?_eq_none_iff marker_ne_nil).mp (by decide), fun s n hs hl => ?_⟩
      · exact (Bytes.cut?_eq_none_iff (by decide)).mp (by decide)
      · rw [Bytes.toString?_ofString] at hs
        obtain rfl := Option.some.inj hs
        have hnone : length? (Text.trim " x".toList) = none := by decide
        rw [← length?_eq_some_iff, hnone] at hl
        cases hl
    · show (encode "[]").length < UInt64.size
      decide
  have hn : NoiseApart ss := by simp [ss, NoiseApart, Segment.isNoise]
  exact ⟨⟨hw, hn⟩, push_segments hw hn⟩

end Frame

end Refactor
