import Refactor.Log.Directive

/-!
# What directives let through

Directives come in two kinds. One on a span or on fields has to do with what
happens inside a span (`Filter.inner`): it lets a span in that it is about, and
then messages inside the span down to its verbosity. One without a span, and
without values for fields, also has to do with a message as such (`Filter.outer`);
of those the most specific one that fits decides.

Of two directives of the same form the later counts.
-/

namespace Refactor.Log

/-- A span that messages belong to. -/
structure Span where
  /-- The module it is opened in. -/
  target : Text
  name : Text
  level : Level
  fields : List (Text × Text)

/-- The kind of messages that a place in the program writes. -/
structure Source where
  target : Text
  fields : List Text

/-- A directive on messages as such. -/
structure OuterDirective where
  target : Option Text
  fields : List Text
  verbosity : Verbosity
deriving DecidableEq, Repr

namespace OuterDirective

/-- The directive as one on messages as such. -/
def of? (d : Directive) : Option OuterDirective :=
  if d.span.isNone && d.fields.all (·.value.isNone) then
    some ⟨d.target, d.fields.map (·.name), d.verbosity⟩
  else none

/-- Whether two directives are of the same form. -/
def sameForm (a b : OuterDirective) : Bool := a.target = b.target && a.fields = b.fields

/-- How the targets of two directives compare: having one before having none, and a long one
before a short one. -/
def targetRank (d : OuterDirective) : Nat := d.target.elim 0 fun t => Text.byteSize t + 1

/-- Whether a directive is more specific than another one. -/
def before (a b : OuterDirective) : Bool :=
  targetRank b < targetRank a ||
    (targetRank a == targetRank b && b.fields.length < a.fields.length)

/-- Adds a directive, in place of one of the same form. -/
def insert (d : OuterDirective) (ds : List OuterDirective) : List OuterDirective :=
  if ds.any (sameForm d) then ds.map fun e => if sameForm d e then d else e
  else ds.takeWhile (fun e => !before d e) ++ d :: ds.dropWhile fun e => !before d e

/-- Whether a directive is about modules of a name. -/
def coversTarget (d : OuterDirective) (target : Text) : Bool :=
  d.target.elim true (·.isPrefixOf target)

end OuterDirective

/-- What is let through. -/
structure Filter where
  outer : List OuterDirective
  outerMost : Verbosity
  inner : List Directive
  innerMost : Verbosity

namespace Filter

/-- Whether a directive is about spans. -/
def isInner (d : Directive) : Bool := d.span.isSome || !d.fields.isEmpty

/-- Adds a directive on spans, in place of one of the same form. -/
def insertInner (d : Directive) (ds : List Directive) : List Directive :=
  let sameForm (e : Directive) : Bool :=
    e.target = d.target && e.span = d.span && e.fields = d.fields
  if ds.any sameForm then ds.map fun e => if sameForm e then d else e else ds ++ [d]

/-- The greatest of some verbosities. -/
def greatest (vs : List Verbosity) : Verbosity := vs.foldl max 0

/-- The filter of directives; if there are none, that of a verbosity for everything. -/
def of (v : Verbosity) (directives : List Directive) : Filter :=
  let ds := if directives.isEmpty then [{ verbosity := v }] else directives
  let inner := ds.filter isInner
  let outer := (ds.filter (!isInner ·) ++ inner).filterMap OuterDirective.of?
  { outer := outer.foldl (fun acc d => d.insert acc) []
    outerMost := greatest (outer.map (·.verbosity))
    inner := inner.foldl (fun acc d => insertInner d acc) []
    innerMost := greatest (inner.map (·.verbosity)) }

/-! ## Spans -/

/-- Whether a directive is about a span. -/
def covers (d : Directive) (s : Span) : Bool :=
  d.target.elim true (·.isPrefixOf s.target) && d.span.elim true (· = s.name) &&
    d.fields.all fun f => (s.fields.lookup f.name).isSome

/-- Whether a span has the values that a directive gives. -/
def valuesFit (d : Directive) (s : Span) : Bool :=
  d.fields.all fun f => match f.value with
    | none => true
    | some v => (s.fields.lookup f.name).any v.covers

/-- The verbosity of the whole program beyond which nothing is looked at. With values to compare,
every span is. -/
def most (f : Filter) : Verbosity :=
  if f.inner.any fun d => d.fields.any (·.value.isSome) then .most
  else max f.outerMost f.innerMost

/-- Whether a span is entered. -/
def enters (f : Filter) (s : Span) : Bool :=
  f.most.writes s.level &&
    (f.inner.any (covers · s) ||
      (f.outer.find? (·.coversTarget s.target)).any (·.verbosity.writes s.level))

/-- The verbosity inside a span that is due to directives on it. -/
def inside (f : Filter) (s : Span) : Verbosity :=
  if f.enters s then
    greatest ((f.inner.filter fun d => covers d s && valuesFit d s).map (·.verbosity))
  else 0

/-! ## Messages -/

/-- Whether a message inside a span is written. -/
def writes (f : Filter) (s : Span) (source : Source) (l : Level) : Bool :=
  (f.inside s).writes l ||
    (f.outer.find? fun d => d.coversTarget source.target && d.fields.all source.fields.contains).any
      (·.verbosity.writes l)

end Filter

end Refactor.Log
