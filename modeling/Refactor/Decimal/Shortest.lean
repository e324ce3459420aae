import Refactor.Decimal.Double

/-!
# Shortest decimals

The shortest decimal of a double is the one with the fewest digits among those
that read back as it; of several with that many digits it is the nearest, and
of two equally near ones the one with an even last digit.

All of it is exact arithmetic on natural numbers. The reals that read back as
`m * 2 ^ q` form an interval that reaches half way to each neighbour and
includes its ends when `m` is even.
-/

namespace Refactor.Double

/-- A decimal `digits * 10 ^ power`. -/
structure Decimal where
  digits : Nat
  power : Int
deriving DecidableEq, Repr

/-- A double's magnitude and the ends of its interval over one denominator. -/
structure Interval where
  low : Nat
  value : Nat
  high : Nat
  den : Nat
  closed : Bool

/-- The interval of a double other than zero. The step below a power of two is half as wide as
the step above it, except at the smallest exponent. -/
def interval (d : Double) : Interval :=
  let m := d.significand
  let (sn, sd) := scale 1 2 d.exponent
  let narrow := d.code % perExponent = 0 ∧ perExponent < d.code
  { low := (if narrow then 4 * m - 1 else 4 * m - 2) * sn
    value := 4 * m * sn
    high := (4 * m + 2) * sn
    den := 4 * sd
    closed := m % 2 = 0 }

/-- Whether `digits * 10 ^ power` lies in the interval. -/
def Interval.contains (i : Interval) (digits : Nat) (power : Int) : Bool :=
  let (dn, dd) := scale digits 10 power
  let x := dn * i.den
  if i.closed then i.low * dd ≤ x && x ≤ i.high * dd else i.low * dd < x && x < i.high * dd

/-- The best decimal of the interval on the grid of multiples of `10 ^ power`. Only the two grid
points around the value matter, since the interval reaches to both sides of it. -/
def Interval.onGrid? (i : Interval) (power : Int) : Option Decimal :=
  let (gn, gd) := scale 1 10 (-power)
  let num := i.value * gn
  let den := i.den * gd
  let below := num / den
  let rest := num % den
  match i.contains below power, i.contains (below + 1) power with
  | true, true =>
    if 2 * rest < den || (2 * rest == den && below % 2 == 0) then some ⟨below, power⟩
    else some ⟨below + 1, power⟩
  | true, false => some ⟨below, power⟩
  | false, true => some ⟨below + 1, power⟩
  | false, false => none

/-- The least power of ten above `num / den`, by search downwards from `10 ^ start`. -/
def leadingPower (num den : Nat) : Nat → Int → Int
  | 0, p => p
  | fuel + 1, p =>
    let (tn, td) := scale 1 10 (p - 1)
    if num * td < den * tn then leadingPower num den fuel (p - 1) else p

/-- The first grid, from coarse to fine, that has a decimal in the interval. -/
def Interval.search (i : Interval) : Nat → Int → Decimal
  | 0, p => (i.onGrid? p).getD ⟨0, p⟩
  | fuel + 1, p =>
    match i.onGrid? p with
    | some d => d
    | none => i.search fuel (p - 1)

/-- Zeros at the end of the digits moved into the power. -/
def Decimal.trimZeros : Nat → Decimal → Decimal
  | 0, d => d
  | fuel + 1, d =>
    if d.digits % 10 = 0 ∧ d.digits ≠ 0 then trimZeros fuel ⟨d.digits / 10, d.power + 1⟩ else d

/-- The shortest decimal of a double. -/
def shortest (d : Double) : Decimal :=
  if d.code = 0 then ⟨0, 0⟩
  else
    let i := d.interval
    let top := leadingPower i.value i.den 700 310
    (i.search 18 top).trimZeros 20

/-- How a double is written. -/
structure Layout where
  /-- Positional notation starts at this power of ten. -/
  lowest : Int
  /-- Positional notation ends before this power of ten. -/
  highest : Int

/-- Positional from `0.00001` up to, and without, `10 ^ 16`. -/
def Layout.standard : Layout := ⟨-5, 16⟩

/-- A double in its shortest digits. A positional numeral always has a digit after the point; an
exponent always has its sign. -/
def render (l : Layout) (d : Double) : String :=
  let dec := d.shortest
  let digits := Nat.toDigits 10 dec.digits
  let count : Int := digits.length
  let point : Int := count + dec.power
  let body : List Char :=
    if d.code = 0 then ['0', '.', '0']
    else if l.lowest ≤ point - 1 ∧ point - 1 < l.highest then
      if point ≤ 0 then '0' :: '.' :: (List.replicate (-point).toNat '0' ++ digits)
      else if count ≤ point then digits ++ List.replicate (point - count).toNat '0' ++ ['.', '0']
      else digits.take point.toNat ++ '.' :: digits.drop point.toNat
    else
      let e := point - 1
      let mantissa := match digits with
        | [c] => [c]
        | c :: rest => c :: '.' :: rest
        | [] => []
      mantissa ++ 'e' :: (if e < 0 then '-' else '+') :: Nat.toDigits 10 e.natAbs
  String.ofList (if d.negative then '-' :: body else body)

end Refactor.Double
