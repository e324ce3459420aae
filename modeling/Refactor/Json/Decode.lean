import Refactor.Json.Value
import Refactor.Decimal.Shortest
import Refactor.Text.Quoted

/-!
# Decoding values into records

A decoder takes a JSON value to a value of some type or says what is wrong with
it. A record is read from an object by the names of its fields, or from an array
by their order (`Record.decode`).

Reading an object looks at its members in key order, so of several bad members
the one with the least key is reported, and a bad member is reported before a
missing one. Of several missing fields the first in the order of the record is
reported. Members that are no fields are passed over.
-/

namespace Refactor.Json

/-- What a decoder found in place of what it expected. -/
inductive Shape where
  | null
  | bool (b : Bool)
  | num (n : Number)
  | str (s : String)
  | sequence
  | map
deriving DecidableEq, Repr

/-- The outermost form of a value. -/
def shape : Json → Shape
  | .null => .null
  | .bool b => .bool b
  | .num n => .num n
  | .str s => .str s
  | .arr _ => .sequence
  | .obj _ => .map

/-- The form as messages name it. -/
def Shape.describe : Shape → String
  | .null => "null"
  | .bool b => "boolean `" ++ (if b then "true" else "false") ++ "`"
  | .num (.int i) => "integer `" ++ toString i ++ "`"
  | .num (.double d) => "floating point `" ++ d.render Double.Layout.standard ++ "`"
  | .str s => "string " ++ String.ofList (Text.quoted s.toList)
  | .sequence => "sequence"
  | .map => "map"

/-- Why a value does not decode. -/
inductive DecodeError where
  /-- A value of another form. -/
  | invalidType (found : Shape) (expected : String)
  /-- A value of the right form outside the range. -/
  | invalidValue (found : Shape) (expected : String)
  /-- An array that ends before the field of this index. -/
  | shortRecord (index : Nat) (record : String) (arity : Nat)
  /-- An array with more elements than the record has fields. -/
  | longArray (length : Nat)
  /-- The same, after a tag that named the record. -/
  | longTagged (length arity : Nat)
  | missingField (name : String)
  | unknownVariant (name : String) (expected : List String)
deriving DecidableEq, Repr

/-- A count of elements. -/
def elements (n : Nat) : String := toString n ++ (if n = 1 then " element" else " elements")

/-- Choices between backquotes. -/
def choices : List String → String
  | [] => "there are no variants"
  | [a] => "`" ++ a ++ "`"
  | [a, b] => "`" ++ a ++ "` or `" ++ b ++ "`"
  | xs => "one of " ++ ", ".intercalate (xs.map fun x => "`" ++ x ++ "`")

/-- The wording of a decoding error. -/
def DecodeError.message : DecodeError → String
  | .invalidType found expected => "invalid type: " ++ found.describe ++ ", expected " ++ expected
  | .invalidValue found expected => "invalid value: " ++ found.describe ++ ", expected " ++ expected
  | .shortRecord index record arity =>
    "invalid length " ++ toString index ++ ", expected struct " ++ record ++ " with " ++ elements arity
  | .longArray length => "invalid length " ++ toString length ++ ", expected fewer elements in array"
  | .longTagged length arity =>
    "invalid length " ++ toString length ++ ", expected " ++ elements arity ++ " in sequence"
  | .missingField name => "missing field `" ++ name ++ "`"
  | .unknownVariant name expected =>
    "unknown variant `" ++ name ++ "`, expected " ++ choices expected

/-- A decoder of values of type `α`. -/
abbrev Decoder (α : Type) := Json → Except DecodeError α

namespace Decoder

variable {α : Type}

/-- Any value as it is. -/
def any : Decoder Json := .ok

/-- A string, called `expected` in messages. -/
def stringAs (expected : String) : Decoder String
  | .str s => .ok s
  | v => .error (.invalidType v.shape expected)

/-- A string. -/
def string : Decoder String := stringAs "a string"

/-- A string as a text. -/
def text : Decoder Text := fun v => (string v).map String.toList

/-- A truth value. -/
def bool : Decoder Bool
  | .bool b => .ok b
  | v => .error (.invalidType v.shape "a boolean")

/-- A natural number below `2 ^ bits`. -/
def unsigned (bits : Nat) : Decoder Nat
  | .num (.int i) =>
    if 0 ≤ i ∧ i < Nat.pow 2 bits then .ok i.toNat
    else .error (.invalidValue (.num (.int i)) ("u" ++ toString bits))
  | v => .error (.invalidType v.shape ("u" ++ toString bits))

/-- A natural number of 32 bits. -/
def word : Decoder UInt32 := fun v => (unsigned 32 v).map UInt32.ofNat

/-- A natural number of 64 bits. -/
def long : Decoder UInt64 := fun v => (unsigned 64 v).map UInt64.ofNat

/-- Null, or a value. -/
def option (d : Decoder α) : Decoder (Option α)
  | .null => .ok none
  | v => (d v).map some

/-- An array; the first bad item is reported. -/
def list (d : Decoder α) : Decoder (List α)
  | .arr items => items.mapM d
  | v => .error (.invalidType v.shape "a sequence")

end Decoder

/-! ## Records -/

/-- What reading fields by name came to: the bad members with their keys, the first missing
field, and the value if there are none of either. -/
structure Named (α : Type) where
  faults : List (String × DecodeError)
  missing : Option String
  value : Option α

/-- Why fields cannot be read by order. -/
inductive ListedError where
  | short (index : Nat)
  | field (e : DecodeError)

/-- A record of fields, read by name from the members of an object or by order from the items of
an array. -/
structure Record (α : Type) where
  arity : Nat
  named : Members → Named α
  listed : Nat → List Json → Except ListedError (α × List Json)

namespace Record

variable {α β : Type}

/-- The record without fields. -/
def const (a : α) : Record α where
  arity := 0
  named _ := ⟨[], none, some a⟩
  listed _ items := .ok (a, items)

/-- A record followed by another one. -/
def followedBy (f : Record (α → β)) (r : Record α) : Record β where
  arity := f.arity + r.arity
  named ms :=
    let x := f.named ms
    let y := r.named ms
    ⟨x.faults ++ y.faults, x.missing.or y.missing, x.value.bind fun g => y.value.map g⟩
  listed i items := do
    let (g, items) ← f.listed i items
    let (a, items) ← r.listed (i + f.arity) items
    return (g a, items)

instance : Functor Record where
  map g r := followedBy (const g) r

instance : Applicative Record where
  pure := const
  seq f r := followedBy f (r ())

/-- One field. `ifAbsent` is its value when no member has its name, `ifShort` its value when the
array ends before it. -/
def field (name : String) (d : Decoder α) (ifAbsent ifShort : Option α) : Record α where
  arity := 1
  named ms :=
    match ms.lookup name with
    | some v =>
      match d v with
      | .ok a => ⟨[], none, some a⟩
      | .error e => ⟨[(name, e)], none, none⟩
    | none =>
      match ifAbsent with
      | some a => ⟨[], none, some a⟩
      | none => ⟨[], some name, none⟩
  listed i
    | v :: items =>
      match d v with
      | .ok a => .ok (a, items)
      | .error e => .error (.field e)
    | [] =>
      match ifShort with
      | some a => .ok (a, [])
      | none => .error (.short i)

/-- A field that has to be there. -/
def required (name : String) (d : Decoder α) : Record α := field name d none none

/-- A field that is `a` if it is not there. -/
def defaulted (name : String) (d : Decoder α) (a : α) : Record α := field name d (some a) (some a)

/-- A field that may be null or absent. -/
def optional (name : String) (d : Decoder α) : Record (Option α) :=
  defaulted name d.option none

/-- A field that may be null, or absent from an object, but has its place in an array. -/
def nullable (name : String) (d : Decoder α) : Record (Option α) :=
  field name d.option (some none) none

/-- The fault with the least key. -/
def leastFault : List (String × DecodeError) → Option (String × DecodeError)
  | [] => none
  | f :: fs =>
    match leastFault fs with
    | some g => if g.1 < f.1 then some g else some f
    | none => some f

/-- Reads the fields from the members of an object. -/
def ofMembers (r : Record α) (ms : Members) : Except DecodeError α :=
  let n := r.named ms
  match leastFault n.faults, n.missing, n.value with
  | some (_, e), _, _ => .error e
  | none, some name, _ => .error (.missingField name)
  | none, none, some a => .ok a
  | none, none, none => .error (.missingField "")

/-- Reads the fields from the items of an array; `long` is the error for items left over. -/
def ofItems (r : Record α) (name : String) (long : DecodeError) (items : List Json) :
    Except DecodeError α :=
  match r.listed 0 items with
  | .ok (a, []) => .ok a
  | .ok (_, _ :: _) => .error long
  | .error (.short i) => .error (.shortRecord i name r.arity)
  | .error (.field e) => .error e

/-- Decodes the record called `name`. -/
def decode (name : String) (r : Record α) : Decoder α
  | .obj ms => r.ofMembers ms
  | .arr items => r.ofItems name (.longArray items.length) items
  | v => .error (.invalidType v.shape ("struct " ++ name))

/-- Decodes the record called `name`, but passes over items that are left over. -/
def decodeLoosely (name : String) (r : Record α) : Decoder α
  | .arr items =>
    match r.listed 0 items with
    | .ok (a, _) => .ok a
    | .error (.short i) => .error (.shortRecord i name r.arity)
    | .error (.field e) => .error e
  | v => r.decode name v

end Record

end Refactor.Json
