/-!
# Decimal text of binary floating-point numbers

A binary64 number is a sign and a value `r · 2^q` with `r < 2^53`.  `nearest?` rounds a decimal to
one, and `shortest` finds the fewest digits that read back as it; of several such, the nearest to
the value.  Both compute with natural numbers only.

## Contents
* `Binary64`, `nearest?`
* `readsBack`, `shortest`
* `positional`, which writes digits without an exponent
-/

namespace TestHarness.Decimal

/-- A non-negative finite binary64 value: `significand · 2^exponent`. -/
structure Binary64 where
  significand : Nat
  exponent : Int
deriving DecidableEq, Repr

namespace Binary64

/-- The exponent of the smallest values. -/
def minExponent : Int := -1074

/-- The exponent of the largest values. -/
def maxExponent : Int := 971

/-- `n / d` rounded to the nearest natural number, a half going to the even one. -/
def roundHalfEven (n d : Nat) : Nat :=
  let q := n / d
  let twice := 2 * (n % d)
  if twice < d ∨ (twice = d ∧ q % 2 = 0) then q else q + 1

/-- Numerator and denominator of `n / d · 2^(-e)`. -/
def scale (n d : Nat) (e : Int) : Nat × Nat :=
  match e with
  | .ofNat k => (n, d * Nat.pow 2 k)
  | .negSucc k => (n * Nat.pow 2 (k + 1), d)

/-- The number nearest to `n / d`; none when that is beyond the largest one. -/
def nearestRatio? (n d : Nat) : Option Binary64 :=
  if n = 0 then some ⟨0, minExponent⟩
  else
    let guess : Int := (n.log2 : Int) - d.log2 - 52
    let scaled := scale n d guess
    let normal := if scaled.1 < scaled.2 * Nat.pow 2 52 then guess - 1 else guess
    let exponent := max normal minExponent
    let (num, den) := scale n d exponent
    let r := roundHalfEven num den
    let rounded : Binary64 := if r = Nat.pow 2 53 then ⟨Nat.pow 2 52, exponent + 1⟩ else ⟨r, exponent⟩
    if rounded.exponent > maxExponent then none else some rounded

/-- The number nearest to `mantissa · 10^power`; none when that is beyond the largest one.  Powers
    whose value is certainly beyond the range are not computed. -/
def nearest? (mantissa : Nat) (power : Int) : Option Binary64 :=
  if mantissa = 0 then some ⟨0, minExponent⟩
  else
    let size : Int := (Nat.toDigits 10 mantissa).length + power
    if size > 310 then none
    else if size < -330 then some ⟨0, minExponent⟩
    else match power with
      | .ofNat k => nearestRatio? (mantissa * Nat.pow 10 k) 1
      | .negSucc k => nearestRatio? mantissa (Nat.pow 10 (k + 1))

/-- Whether the decimal `digits · 10^power` rounds to `b`. -/
def readsBack (b : Binary64) (digits : Nat) (power : Int) : Bool := nearest? digits power = some b

/-- Numerator and denominator of the value. -/
def ratio (b : Binary64) : Nat × Nat := scale b.significand 1 (-b.exponent)

/-- Numerator and denominator of the value divided by `10^power`. -/
def overPower (b : Binary64) (power : Int) : Nat × Nat :=
  let (n, d) := b.ratio
  match power with
  | .ofNat k => (n, d * Nat.pow 10 k)
  | .negSucc k => (n * Nat.pow 10 (k + 1), d)

/-- The decimal of the grid of `10^power` that reads back as the value: of its two neighbours on the
    grid the nearer one that does. -/
def onGrid? (b : Binary64) (power : Int) : Option Nat :=
  let (n, d) := b.overPower power
  let below := n / d
  let nearer := roundHalfEven n d
  let farther := if nearer = below then below + 1 else below
  if b.readsBack nearer power then some nearer
  else if b.readsBack farther power then some farther
  else none

/-- Tries grids from coarse to fine. -/
def finer (b : Binary64) : Nat → Int → Nat × Int
  | 0, power => (roundHalfEven (b.overPower power).1 (b.overPower power).2, power)
  | tries + 1, power =>
    match b.onGrid? power with
    | some digits => (digits, power)
    | none => b.finer tries (power - 1)

/-- The power of ten above a positive value. -/
def magnitude (b : Binary64) : Int :=
  let (n, d) := b.ratio
  if n ≥ d then (Nat.toDigits 10 (n / d)).length
  else 1 - ((Nat.toDigits 10 (d / n)).length : Int)

/-- The fewest digits that read back as a positive value, and their power of ten. -/
def shortest (b : Binary64) : Nat × Int := b.finer 20 b.magnitude

end Binary64

/-- `digits · 10^power` without an exponent, with at least one digit on each side of the point. -/
def positional (digits : Nat) (power : Int) : String :=
  let ds := Nat.toDigits 10 digits
  match power with
  | .ofNat k => String.ofList (ds ++ List.replicate k '0' ++ ['.', '0'])
  | .negSucc k =>
    let places := k + 1
    let padded := List.replicate (places + 1 - ds.length) '0' ++ ds
    let whole := padded.length - places
    String.ofList (padded.take whole ++ '.' :: padded.drop whole)

/-- The text of a non-negative binary64 value. -/
def Binary64.text (b : Binary64) : String :=
  if b.significand = 0 then "0.0" else positional b.shortest.1 b.shortest.2

end TestHarness.Decimal
