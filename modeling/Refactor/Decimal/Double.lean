/-!
# Finite doubles

A finite binary64 number is a sign and a magnitude code: the code counts the
representable magnitudes upwards from zero, 2^52 of them for each exponent.
Decimal numerals are read to the nearest double, a tie going to the even code
(`Double.ofDecimal`).
-/

namespace Refactor

/-- A finite binary64 number. -/
structure Double where
  negative : Bool
  /-- Number of smaller representable magnitudes. -/
  code : Nat
deriving DecidableEq, Repr

namespace Double

/-- The number of magnitudes with one exponent, 2^52. -/
def perExponent : Nat := 4503599627370496

/-- The first code past the largest finite magnitude. -/
def codeLimit : Nat := 2047 * perExponent

/-- A magnitude as an integer times a power of two. -/
def significand (d : Double) : Nat :=
  if d.code < perExponent then d.code else perExponent + d.code % perExponent

/-- The power of two that goes with the significand. -/
def exponent (d : Double) : Int :=
  if d.code < perExponent then -1074 else (d.code / perExponent : Nat) - 1075

/-- The nearest integer to `num / den`, a tie going to the even one. -/
def roundRatio (num den : Nat) : Nat :=
  let q := num / den
  let r := num % den
  if 2 * r < den then q
  else if den < 2 * r then q + 1
  else if q % 2 = 0 then q else q + 1

/-- `n` times `2 ^ e` as a ratio of natural numbers. -/
def scale (n : Nat) (base : Nat) (e : Int) : Nat × Nat :=
  match e with
  | .ofNat k => (n * Nat.pow base k, 1)
  | .negSucc k => (n, Nat.pow base (k + 1))

/-- The magnitude code nearest to `num / den`, with no upper limit. -/
def codeOfRatio (num den : Nat) : Nat :=
  if num = 0 then 0
  else
    let guess : Int := (num.log2 : Int) - (den.log2 : Int)
    -- the exponent of the leading binary digit is the guess or one less
    let (gn, gd) := scale 1 2 guess
    let lead := if den * gn ≤ num * gd then guess else guess - 1
    let q : Int := max (lead - 52) (-1074)
    let (sn, sd) := scale 1 2 (-q)
    (q + 1074).toNat * perExponent + roundRatio (num * sn) (den * sd)

/-- The double nearest to `m * 10 ^ e`; none past the largest finite one. -/
def ofDecimal (negative : Bool) (m : Nat) (e : Int) : Option Double :=
  if m = 0 then some ⟨negative, 0⟩
  else
    let size : Int := (Nat.toDigits 10 m).length + e
    if size > 310 then none
    else if size < -330 then some ⟨negative, 0⟩
    else
      let (num, den) := scale m 10 e
      let code := codeOfRatio num den
      if code < codeLimit then some ⟨negative, code⟩ else none

end Double

end Refactor
