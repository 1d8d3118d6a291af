namespace Prefilter

structure Span where
  nanoseconds : Nat
deriving DecidableEq, Inhabited

namespace Span

def ofMilliseconds (ms : Nat) : Span := ⟨ms * 1000000⟩

def ofSeconds (seconds nanoseconds : Nat) : Span := ⟨seconds * 1000000000 + nanoseconds⟩

/-- The digits after the point: `part` of `10 ^ width`, without trailing zeros. -/
def fractionDigits (part width : Nat) : List Char :=
  let digits := Nat.toDigits 10 part
  let padded := List.replicate (width - digits.length) '0' ++ digits
  (padded.reverse.dropWhile (· == '0')).reverse

/-- A number of units of `10 ^ width` nanoseconds, with a point only where there is a fraction. -/
def inUnit (nanoseconds width : Nat) (unit : String) : String :=
  let fraction := fractionDigits (nanoseconds % Nat.pow 10 width) width
  let point := if fraction.isEmpty then "" else "."
  s!"{nanoseconds / Nat.pow 10 width}{point}{String.ofList fraction}{unit}"

/-- The largest unit that gives a nonzero whole part. -/
def display (s : Span) : String :=
  if 1000000000 ≤ s.nanoseconds then inUnit s.nanoseconds 9 "s"
  else if 1000000 ≤ s.nanoseconds then inUnit s.nanoseconds 6 "ms"
  else if 1000 ≤ s.nanoseconds then inUnit s.nanoseconds 3 "µs"
  else inUnit s.nanoseconds 0 "ns"

end Span
end Prefilter
