import Refactor.Log.Level
import Refactor.Regex
import Refactor.Text.Alphanumeric
import Refactor.Text.Blank

/-!
# Directives on what is logged

A directive gives a verbosity to the whole program or to a part of it: to the
modules whose names start with a target, to what happens inside a span of a name,
or to what happens inside a span with certain fields. It is written as

    target[span{field=value}]=verbosity

where everything but one of target, span and verbosity may be left out. A single
word is a verbosity if it names one, and a target otherwise; a directive without a
verbosity asks for everything.

Blanks around a directive do not count for its form, but its parts are taken from
the whole text, at the positions that they have without the blanks.
-/

namespace Refactor.Log

/-- What the value of a field is held against. -/
inductive FieldValue where
  /-- A truth value or a number, which no text equals. -/
  | plain (t : Text)
  | pattern (t : Text) (r : Regex)
deriving DecidableEq, Repr

/-- A field that a span has to have, and perhaps a value for it. -/
structure FieldMatch where
  name : Text
  value : Option FieldValue
deriving DecidableEq, Repr

/-- A verbosity for a part of the program. -/
structure Directive where
  verbosity : Verbosity := .most
  target : Option Text := none
  span : Option Text := none
  fields : List FieldMatch := []
deriving DecidableEq, Repr

/-- Why a text is no directive. -/
inductive Refusal where
  | malformed
  /-- A part would start or end inside a character. -/
  | brokenOff
deriving DecidableEq, Repr

/-! ## Fields -/

/-- Whether a text reads as a number: digits with or without a point and an exponent, or a name
for what is none. -/
def isNumeral (t : Text) : Bool :=
  let t := match t with
    | '-' :: r => r
    | '+' :: r => r
    | r => r
  let name := t.map Char.toLower
  let fraction := match t.dropWhile Char.isDigit with
    | '.' :: r => r.takeWhile Char.isDigit
    | _ => []
  let rest := match t.dropWhile Char.isDigit with
    | '.' :: r => r.dropWhile Char.isDigit
    | r => r
  let isExponent : Bool := match rest with
    | [] => true
    | c :: r =>
      let r := match r with
        | '-' :: r => r
        | '+' :: r => r
        | r => r
      (c == 'e' || c == 'E') && !r.isEmpty && r.all Char.isDigit
  name = "nan".toList || name = "inf".toList || name = "infinity".toList ||
    (!(t.takeWhile Char.isDigit ++ fraction).isEmpty && isExponent)

/-- Reads the value of a field. -/
def FieldValue.parse? (t : Text) : Option FieldValue :=
  if t = "true".toList ∨ t = "false".toList ∨ isNumeral t then some (.plain t)
  else (Regex.parse? .modern t).map (.pattern t)

/-- Whether a text has the value: whether its first match with the pattern goes to its end. -/
def FieldValue.covers : FieldValue → Text → Bool
  | .plain _, _ => false
  | .pattern _ r, t =>
    match r.find? 0 [] t with
    | some (_, _, spot) => spot.rest.isEmpty
    | none => false

/-- Reads a field: a name, and a value after an equals sign. -/
def FieldMatch.parse (t : Text) : Except Refusal FieldMatch :=
  match Text.pieces '=' t with
  | [] | [[]] => .error .malformed
  | [name] => .ok ⟨name, none⟩
  | name :: value :: _ =>
    match FieldValue.parse? value with
    | some v => .ok ⟨name, some v⟩
    | none => .error .malformed

/-! ## Reading directives -/

/-- The text between two byte positions. -/
def slice (t : Text) (first last : Nat) : Except Refusal Text :=
  let before := t.takeBytes first
  let upTo := t.takeBytes last
  if Text.byteSize before = first ∧ Text.byteSize upTo = last then .ok (upTo.drop before.length)
  else .error .brokenOff

/-- The text from a byte position on. -/
def sliceFrom (t : Text) (first : Nat) : Except Refusal Text := slice t first (Text.byteSize t)

/-- What a reader of directives is in. Positions are in bytes. -/
inductive Stage where
  | start
  | word (since : Nat)
  | span (since : Nat)
  | field (since : Nat)
  | afterFields
  | afterSpan
  | verbosity (since : Nat)
deriving DecidableEq, Repr

/-- Whether a directive may start with a character. -/
def startsWord (c : Char) : Bool :=
  c == '-' || c == ':' || c == '_' || Text.isAlphanumeric c

/-- Takes one character at a position. -/
def Stage.next (whole : Text) (pos : Nat) (c : Char) (d : Directive) :
    Stage → Except Refusal (Directive × Stage)
  | .start =>
    if c = '[' then .ok (d, .span (pos + 1))
    else if startsWord c then .ok (d, .word pos)
    else .error .malformed
  | .word since =>
    if c = '=' then do return ({ d with target := some (← slice whole since pos) }, .verbosity (pos + 1))
    else if c = '[' then do
      return ({ d with target := some (← slice whole since pos) }, .span (pos + 1))
    else .ok (d, .word since)
  | .span since =>
    if c = ']' then do return ({ d with span := some (← slice whole since pos) }, .afterSpan)
    else if c = '{' then do
      let name ← slice whole since pos
      return ({ d with span := if name.isEmpty then none else some name }, .field (pos + 1))
    else .ok (d, .span since)
  | .field since =>
    if c = '}' then do
      let f ← FieldMatch.parse (← slice whole since pos)
      return ({ d with fields := d.fields ++ [f] }, .afterFields)
    else .ok (d, .field since)
  | .afterFields => if c = ']' then .ok (d, .afterSpan) else .error .malformed
  | .afterSpan => if c = '=' then .ok (d, .verbosity (pos + 1)) else .error .malformed
  | .verbosity since => .ok (d, .verbosity since)

/-- Takes characters from a position on. -/
def Stage.run (whole : Text) : Nat → Directive → Stage → Text → Except Refusal (Directive × Stage)
  | _, d, s, [] => .ok (d, s)
  | pos, d, s, c :: t => do
    let (d, s) ← s.next whole pos c d
    Stage.run whole (pos + c.utf8Size) d s t

/-- Reads a directive. -/
def Directive.parse (t : Text) : Except Refusal Directive := do
  let (d, s) ← Stage.run t 0 {} .start (Text.trim t)
  match s with
  | .word since =>
    let w ← sliceFrom t since
    match Verbosity.parse? w with
    | some v => return { d with verbosity := v }
    | none => return { d with target := some w }
  | .verbosity since =>
    let w ← sliceFrom t since
    if w.isEmpty then return d
    match Verbosity.parse? w with
    | some v => return { d with verbosity := v }
    | none => .error .malformed
  | .afterSpan => return d
  | _ => .error .malformed

/-- Reads directives that commas divide. Those that are malformed are passed over. -/
def Directive.parseAll (t : Text) : Except Refusal (List Directive) :=
  go ((Text.pieces ',' t).filter fun p => !p.isEmpty)
where
  /-- Reads each piece. -/
  go : List Text → Except Refusal (List Directive)
    | [] => .ok []
    | p :: ps =>
      match Directive.parse p with
      | .ok d => (go ps).map (d :: ·)
      | .error .malformed => go ps
      | .error .brokenOff => .error .brokenOff

end Refactor.Log
