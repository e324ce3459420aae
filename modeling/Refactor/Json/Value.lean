import Refactor.Decimal.Double

/-!
# JSON values

Integers from -2^63 up to 2^64 - 1 are kept exactly and every other number is
a double. An object keeps its members in increasing order of their keys, one
member for each key (`Json.Sorted`).
-/

namespace Refactor

/-- A JSON number. -/
inductive Json.Number where
  | int (i : Int)
  | double (d : Double)
deriving DecidableEq, Repr

/-- A JSON value. -/
inductive Json where
  | null
  | bool (b : Bool)
  | num (n : Json.Number)
  | str (s : String)
  | arr (items : List Json)
  | obj (members : List (String × Json))
deriving Repr

namespace Json

instance : Inhabited Json := ⟨.null⟩

/-- A natural number as a value. -/
def nat (n : Nat) : Json := .num (.int n)

/-- The members of an object. -/
abbrev Members := List (String × Json)

/-- Sets the member `k`, in its place among the keys. -/
def Members.insert (k : String) (v : Json) : Members → Members
  | [] => [(k, v)]
  | (k', v') :: ms =>
    if k = k' then (k, v) :: ms
    else if k < k' then (k, v) :: (k', v') :: ms
    else (k', v') :: insert k v ms

/-- The members in key order; of several with one key the last stays. -/
def Members.ofList (ms : List (String × Json)) : Members :=
  ms.foldl (fun acc m => acc.insert m.1 m.2) []

/-- The object with the given members; of several with one key the last stays. -/
def ofMembers (ms : List (String × Json)) : Json := .obj (Members.ofList ms)

/-- The member `k` of an object. -/
def field? (k : String) : Json → Option Json
  | .obj ms => ms.lookup k
  | _ => none

/-- Keys increase strictly. -/
def Members.Sorted (ms : Members) : Prop := (ms.map Prod.fst).Pairwise (· < ·)

/-- Every object in the value has its keys in strictly increasing order. -/
inductive Sorted : Json → Prop where
  | null : Sorted .null
  | bool (b : Bool) : Sorted (.bool b)
  | num (n : Number) : Sorted (.num n)
  | str (s : String) : Sorted (.str s)
  | arr {items : List Json} (h : ∀ v ∈ items, Sorted v) : Sorted (.arr items)
  | obj {members : Members} (hk : members.Sorted) (h : ∀ m ∈ members, Sorted m.2) :
    Sorted (.obj members)

/-- `top` laid on `base`: members of two objects are merged, at any depth, and any other value
replaces what it meets. -/
def overlay (base top : Json) : Json :=
  match top with
  | .obj ms =>
    match base with
    | .obj bs => .obj (overlayMembers bs ms)
    | _ => .obj ms
  | v => v
where
  /-- Lays each member over the one of the same key. -/
  overlayMembers (bs : Members) : List (String × Json) → Members
    | [] => bs
    | (k, v) :: ms =>
      overlayMembers (bs.insert k (match bs.lookup k with
        | some b => overlay b v
        | none => v)) ms

end Json

end Refactor
