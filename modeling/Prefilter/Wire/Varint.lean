import Prefilter.Wire.Codec
import Prefilter.Numeric.Binary64

/-!
Numbers on the wire. Unsigned numbers are groups of seven bits, lowest first, each but the last with
its high bit set. Signed ones are folded into unsigned ones first, so that small magnitudes stay
short. Doubles are their eight bytes, lowest first.
-/

namespace Prefilter.Wire

open Numeric (Binary64)

namespace Varint

/-- The shortest groups of a number. -/
def encode (n : Nat) : List UInt8 :=
  if n < 128 then [.ofNat n] else .ofNat (n % 128 + 128) :: encode (n / 128)
termination_by n

/-- Reads at most `groups` groups, the last of which must not exceed `lastGroup`; longer spellings of
a number than the shortest are accepted. -/
def decode (lastGroup : Nat) : Nat → List UInt8 → Decoded Nat
  | 0, _ => .error .longVarint
  | _ + 1, [] => .error .endOfInput
  | groups + 1, b :: rest =>
    if b.toNat < 128 then
      if groups = 0 ∧ lastGroup < b.toNat then .error .longVarint else .ok (b.toNat, rest)
    else (decode lastGroup groups rest).map (b.toNat - 128 + 128 * ·)

/-- Folds the integers into the naturals: zero, minus one, one, minus two, … -/
def fold (i : Int) : Nat := if i < 0 then (-2 * i - 1).toNat else (2 * i).toNat

def unfold (n : Nat) : Int := if n % 2 = 0 then n / 2 else -(n / 2) - 1

end Varint

/-- The lowest `count` bytes of a number, lowest first. -/
def littleEndian : Nat → Nat → List UInt8
  | 0, _ => []
  | count + 1, n => .ofNat n :: littleEndian count (n / 256)

/-- The number whose bytes are given, lowest first. -/
def ofLittleEndian : List UInt8 → Nat
  | [] => 0
  | b :: rest => b.toNat + 256 * ofLittleEndian rest

/-- Splits off exactly `count` bytes. -/
def takeExactly (count : Nat) (bytes : List UInt8) : Decoded (List UInt8) :=
  let (taken, rest) := bytes.splitAt count
  if taken.length = count then .ok (taken, rest) else .error .endOfInput

namespace Codec

/-- Words of 32 bits take at most five groups. -/
def word32 : Codec UInt32 where
  encode w := Varint.encode w.toNat
  decode bytes := (Varint.decode 15 5 bytes).map .ofNat

/-- Words of 64 bits take at most ten groups. -/
def word64 : Codec UInt64 where
  encode w := Varint.encode w.toNat
  decode bytes := (Varint.decode 1 10 bytes).map .ofNat

def long : Codec Int64 where
  encode i := Varint.encode (Varint.fold i.toInt)
  decode bytes := (Varint.decode 1 10 bytes).map fun n => .ofInt (Varint.unfold n)

def double : Codec Binary64 where
  encode x := littleEndian 8 x.bits.toNat
  decode bytes := (takeExactly 8 bytes).map fun taken => ⟨.ofNat (ofLittleEndian taken)⟩

end Codec
end Prefilter.Wire
