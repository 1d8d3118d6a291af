namespace Prefilter.Numeric

/-- A double-precision number held as its 64 bits, so that the sign of a zero and the payload of a
NaN survive every operation. -/
structure Binary64 where
  bits : UInt64
deriving DecidableEq, Inhabited

namespace Binary64

def signWeight : Nat := 0x8000000000000000

/-- The weight of the hidden bit of a significand, and of the least bit of an exponent. -/
def hiddenWeight : Nat := 0x0010000000000000

/-- The word of positive infinity; every larger magnitude is a NaN. -/
def infinityWord : Nat := 0x7ff0000000000000

def isNegative (x : Binary64) : Bool := signWeight ≤ x.bits.toNat

def magnitude (x : Binary64) : Nat := x.bits.toNat % signWeight

def isNaN (x : Binary64) : Bool := infinityWord < x.magnitude

def isInfinite (x : Binary64) : Bool := x.magnitude == infinityWord

def isZero (x : Binary64) : Bool := x.magnitude == 0

def ofMagnitude (negative : Bool) (magnitude : Nat) : Binary64 :=
  ⟨.ofNat (if negative then signWeight + magnitude else magnitude)⟩

/-- The place of a number in the total order: larger magnitudes lie farther from zero on their
side, and negative zero lies just below positive zero. -/
def rank (x : Binary64) : Int :=
  if x.isNegative then -(x.magnitude : Int) - 1 else x.magnitude

/-- The total order on words: negative NaNs, negative numbers, the two zeros, positive numbers,
positive NaNs. -/
def totalCompare (x y : Binary64) : Ordering := compare x.rank y.rank

/-- Numeric equality: the zeros agree and a NaN differs from everything. -/
def numericEq (x y : Binary64) : Bool :=
  !x.isNaN && !y.isNaN && (x == y || x.isZero && y.isZero)

/-- The integral significand of a finite number, hidden bit included. -/
def significand (x : Binary64) : Nat :=
  let fraction := x.magnitude % hiddenWeight
  if x.magnitude / hiddenWeight = 0 then fraction else hiddenWeight + fraction

/-- The power of two that scales the significand, raised by 1074 so that it is never negative. -/
def scale (x : Binary64) : Nat := x.magnitude / hiddenWeight - 1

end Binary64
end Prefilter.Numeric
