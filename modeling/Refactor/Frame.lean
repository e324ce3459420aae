import Refactor.Bytes
import Refactor.Json.Reader
import Refactor.Text.Blank

/-!
# Framed messages

A message travels as a header `Content-Length: N`, an empty line and N bytes of
body. The decoder keeps the bytes it cannot use yet. Bytes before a header are
noise and are passed over; a header without a usable length is passed over with
its empty line; a body that is no JSON is dropped. Of noise only as much is kept
as could be the start of a header.

A length is refused, as an overflow, when the end of its frame does not fit in
64 bits.
-/

namespace Refactor.Frame

/-- The start of a header. -/
def marker : Bytes := Bytes.ofString "Content-Length:"

/-- The end of a header. -/
def terminator : Bytes := [13, 10, 13, 10]

/-- A body with its header. -/
def encode (body : String) : Bytes :=
  let bytes := Bytes.ofString body
  marker ++ Bytes.ofString (" " ++ toString bytes.length) ++ terminator ++ bytes

/-! ## Headers -/

/-- The lines of a header. -/
def headerLines : Text → List Text
  | [] => [[]]
  | '\r' :: '\n' :: t => [] :: headerLines t
  | c :: t => (headerLines t).modifyHead (c :: ·)

/-- A number of 64 bits in decimal digits, with or without a plus sign. -/
def length? (t : Text) : Option Nat :=
  let digits := match t with
    | '+' :: ds => ds
    | ds => ds
  if digits.isEmpty || !digits.all Char.isDigit then none
  else
    let n := Json.digitsValue digits
    if n < UInt64.size then some n else none

/-- The length that a header line gives. -/
def lineLength? (line : Text) : Option Nat :=
  let name := "Content-Length:".toList
  if name.isPrefixOf line then length? (Text.trim (line.drop name.length)) else none

/-- The first length that a header gives. -/
def contentLength? (header : Bytes) : Option Nat :=
  match header.toString? with
  | some s => (headerLines s.toList).findSome? lineLength?
  | none => none

/-! ## Decoding -/

/-- What the start of a buffer is good for. -/
inductive Step where
  /-- Nothing more, until more bytes come; this is what to keep. -/
  | wait (buffer : Bytes)
  /-- A header without a length; this follows it. -/
  | skip (rest : Bytes)
  /-- A whole frame; this is its body and this follows it. -/
  | deliver (body rest : Bytes)
  /-- A frame whose end does not fit in 64 bits. -/
  | overflow
deriving DecidableEq, Repr

/-- Looks at the start of a buffer. -/
def step (buffer : Bytes) : Step :=
  match buffer.cut? marker with
  | none => .wait (buffer.drop (buffer.length - (marker.length - 1)))
  | some (_, tail) =>
    let buffer := marker ++ tail
    match buffer.cut? terminator with
    | none => .wait buffer
    | some (header, rest) =>
      match contentLength? header with
      | none => .skip rest
      | some n =>
        if UInt64.size ≤ header.length + terminator.length + n then .overflow
        else if rest.length < n then .wait buffer
        else .deliver (rest.take n) (rest.drop n)

theorem terminator_length : terminator.length = 4 := rfl

theorem length_lt_of_skip {buffer rest : Bytes} (h : step buffer = .skip rest) :
    rest.length < buffer.length := by
  unfold step at h
  split at h
  · simp at h
  · rename_i tail hm
    have h₁ := Bytes.length_of_cut? hm
    dsimp only at h
    split at h
    · simp at h
    · rename_i header r ht
      have h₂ := Bytes.length_of_cut? ht
      rw [List.length_append, terminator_length] at h₂
      split at h
      · simp only [Step.skip.injEq] at h
        subst h; omega
      · split at h
        · simp at h
        · split at h <;> simp at h

theorem length_lt_of_deliver {buffer body rest : Bytes} (h : step buffer = .deliver body rest) :
    rest.length < buffer.length := by
  unfold step at h
  split at h
  · simp at h
  · rename_i tail hm
    have h₁ := Bytes.length_of_cut? hm
    dsimp only at h
    split at h
    · simp at h
    · rename_i header r ht
      have h₂ := Bytes.length_of_cut? ht
      rw [List.length_append, terminator_length] at h₂
      split at h
      · simp at h
      · split at h
        · simp at h
        · split at h
          · simp at h
          · simp only [Step.deliver.injEq] at h
            obtain ⟨-, rfl⟩ := h
            rw [List.length_drop]; omega

/-- The bodies of a decoding and the bytes it leaves. -/
structure Drained where
  bodies : List Bytes
  buffer : Bytes
deriving DecidableEq, Repr

/-- Takes every whole frame from the start of a buffer; none on overflow. -/
def drain (buffer : Bytes) : Option Drained :=
  match h : step buffer with
  | .wait kept => some ⟨[], kept⟩
  | .overflow => none
  | .skip rest =>
    have := length_lt_of_skip h
    drain rest
  | .deliver body rest =>
    have := length_lt_of_deliver h
    match drain rest with
    | some d => some ⟨body :: d.bodies, d.buffer⟩
    | none => none
termination_by buffer.length

/-- The bytes received and not yet used. -/
structure Decoder where
  buffer : Bytes := []
deriving DecidableEq, Repr

/-- The value of a body. -/
def bodyValue? (body : Bytes) : Option Json :=
  match body.toString? with
  | some s => Json.parse? s.toList
  | none => none

/-- Takes in a chunk and gives the messages that it completes; none on overflow. -/
def Decoder.push (d : Decoder) (chunk : Bytes) : Option (List Json × Decoder) :=
  match drain (d.buffer ++ chunk) with
  | some r => some (r.bodies.filterMap bodyValue?, ⟨r.buffer⟩)
  | none => none

end Refactor.Frame
