import Prefilter.Wire.Varint
import Prefilter.Text.Utf8

namespace Prefilter.Wire.Codec

variable {α : Type}

/-- The number of elements that follow. -/
def count : Codec Nat where
  encode := Varint.encode
  decode := Varint.decode 1 10

/-- A byte string after its length. -/
def bytes : Codec (List UInt8) where
  encode b := count.encode b.length ++ b
  decode input := (count.decode input).andThen takeExactly

/-- A text after the number of its UTF-8 bytes. -/
def text : Codec String where
  encode s := bytes.encode (Text.utf8 s)
  decode input :=
    (bytes.decode input).andThen fun b rest =>
      match Text.ofUtf8? b with
      | some s => .ok (s, rest)
      | none => .error .badText

/-- Reads `n` more elements; those read so far are in reverse order. -/
def decodeMany (c : Codec α) : Nat → List α → List UInt8 → Decoded (List α)
  | 0, read, rest => .ok (read.reverse, rest)
  | n + 1, read, input =>
    match c.decode input with
    | .ok (a, rest) => decodeMany c n (a :: read) rest
    | .error fault => .error fault

def list (c : Codec α) : Codec (List α) where
  encode as := count.encode as.length ++ as.flatMap c.encode
  decode input := (count.decode input).andThen fun n rest => decodeMany c n [] rest

/-- A value after the number of its variant. `branch` reads what follows each number. -/
def tagged (tag : α → UInt32) (payload : α → List UInt8)
    (branch : Nat → Option (List UInt8 → Decoded α)) : Codec α where
  encode a := word32.encode (tag a) ++ payload a
  decode input :=
    (word32.decode input).andThen fun t rest =>
      match branch t.toNat with
      | some read => read rest
      | none => .error .unknownVariant

end Prefilter.Wire.Codec
