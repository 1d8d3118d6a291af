import Prefilter.Numeric.Binary64
import Prefilter.Numeric.Numeral

/-!
Decimal text of doubles. Writing takes the fewest digits that read back as the same number, the
nearest such decimal among those, and never an exponent. Reading rounds the exact decimal to the
nearest double, ties to the even significand.
-/

namespace Prefilter.Numeric

/-- A positive decimal `0.d₁d₂… · 10 ^ point`. -/
structure Digits where
  digits : List Char
  point : Int

def digitCount (n : Nat) : Nat := (Nat.toDigits 10 n).length

namespace Digits

/-- The decimal of `n · 10 ^ exponent`, without trailing zeros. -/
def ofScaled (n : Nat) (exponent : Int) : Digits :=
  let all := Nat.toDigits 10 n
  ⟨(all.reverse.dropWhile (· == '0')).reverse, all.length + exponent⟩

/-- Positional notation: zeros fill the gap between the digits and the point. -/
def plain (d : Digits) : String :=
  let zeros (n : Nat) : List Char := List.replicate n '0'
  if d.point ≤ 0 then
    String.ofList ('0' :: '.' :: zeros (-d.point).toNat ++ d.digits)
  else
    let whole := d.point.toNat
    if d.digits.length ≤ whole then
      String.ofList (d.digits ++ zeros (whole - d.digits.length))
    else
      String.ofList (d.digits.take whole ++ '.' :: d.digits.drop whole)

end Digits

/-- The reals that round to one double, as fractions over a common denominator. -/
structure RoundingInterval where
  lower : Nat
  value : Nat
  upper : Nat
  denominator : Nat
  /-- Whether the two ends themselves round to the double. -/
  closed : Bool

namespace RoundingInterval

/-- The interval of a finite nonzero magnitude. The lower half-gap is a quarter of a unit where the
number is the least of its binade. -/
def ofMagnitude (x : Binary64) : RoundingInterval :=
  let m := x.significand
  let hidden := Binary64.hiddenWeight
  let below := if m = hidden ∧ 1 < x.magnitude / hidden then 1 else 2
  let unit := Nat.pow 2 x.scale
  ⟨(4 * m - below) * unit, 4 * m * unit, (4 * m + 2) * unit, Nat.pow 2 1076, m % 2 == 0⟩

def contains (i : RoundingInterval) (num den : Nat) : Bool :=
  let scaled := num * i.denominator
  if i.closed then i.lower * den ≤ scaled ∧ scaled ≤ i.upper * den
  else i.lower * den < scaled ∧ scaled < i.upper * den

/-- The decimal exponent `p` with `10 ^ (p - 1) ≤ value < 10 ^ p`. -/
def decimalPoint (i : RoundingInterval) : Int :=
  digitCount (i.value * Nat.pow 10 400 / i.denominator) - 400

/-- The decimal of `count` digits that is nearest the value, if the interval holds one; a tie goes
up. -/
def nearest? (i : RoundingInterval) (point : Int) (count : Nat) : Option Digits :=
  let exponent := point - count
  -- The grid step is `up / down`.
  let up := Nat.pow 10 exponent.toNat
  let down := Nat.pow 10 (-exponent).toNat
  let scaled := i.value * down
  let step := i.denominator * up
  let floor := scaled / step
  let remainder := scaled % step
  let low := i.contains (floor * up) down
  let high := i.contains ((floor + 1) * up) down
  if low && (!high || 2 * remainder < step) then some (.ofScaled floor exponent)
  else if high then some (.ofScaled (floor + 1) exponent)
  else none

def firstHit (i : RoundingInterval) (point : Int) : Nat → Nat → Digits
  | 0, count => .ofScaled (i.value * Nat.pow 10 count / i.denominator) (-count)
  | tries + 1, count =>
    match i.nearest? point count with
    | some d => d
    | none => firstHit i point tries (count + 1)

/-- The shortest decimal that reads back; seventeen digits always suffice. -/
def shortest (i : RoundingInterval) : Digits := i.firstHit i.decimalPoint 17 1

end RoundingInterval

namespace Binary64

/-- The plain text of a number: the shortest decimal that reads back, without an exponent; a whole
number has no point. -/
def plain (x : Binary64) : String :=
  if x.isNaN then "NaN" else
  let unsigned :=
    if x.isInfinite then "inf"
    else if x.isZero then "0"
    else (RoundingInterval.ofMagnitude x).shortest.plain
  if x.isNegative then "-" ++ unsigned else unsigned

/-- The magnitude nearest to the positive fraction `num / den`, ties to even; fractions beyond the
finite numbers give infinity. -/
def roundFraction (num den : Nat) : Nat :=
  -- `num / den` lies between `2 ^ (52 + shift)` and `2 ^ (54 + shift)`, or the unit is the least one.
  let guess : Int := (num.log2 : Int) - den.log2 - 53
  let quotient (shift : Int) : Nat × Nat :=
    (num * Nat.pow 2 (-shift).toNat, den * Nat.pow 2 shift.toNat)
  let shift : Int :=
    let (n, d) := quotient guess
    max (-1074) (if n / d < 2 * hiddenWeight then guess else guess + 1)
  let (n, d) := quotient shift
  let floor := n / d
  let remainder := 2 * (n % d)
  let roundUp := d < remainder ∨ (d = remainder ∧ floor % 2 = 1)
  let m := if roundUp then floor + 1 else floor
  min ((shift + 1074).toNat * hiddenWeight + m) infinityWord

/-- The double nearest to `n · 10 ^ exponent`, where `n` is given by its digits. Decimals far outside
the range of doubles are settled by counting digits. -/
def ofDecimal (negative : Bool) (digits : List Char) (exponent : Int) : Binary64 :=
  let significant := digits.dropWhile (· == '0')
  let point := significant.length + exponent
  ofMagnitude negative <|
    if significant.isEmpty ∨ point < -400 then 0
    else if 400 < point then infinityWord
    else
      roundFraction (valueOf 10 significant * Nat.pow 10 exponent.toNat)
        (Nat.pow 10 (-exponent).toNat)

end Binary64
end Prefilter.Numeric
