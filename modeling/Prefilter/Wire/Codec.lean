/-!
Codecs: an encoder together with a decoder that reads one value from the front of a byte string and
leaves the rest. Larger codecs are built from smaller ones, so that a law about each combinator
gives the law about every format.
-/

namespace Prefilter.Wire

inductive DecodeFault where
  | endOfInput
  | longVarint
  | badFlag
  | badPresence
  | badText
  | unknownVariant
deriving DecidableEq, Inhabited

namespace DecodeFault

def message : DecodeFault → String
  | endOfInput => "Hit the end of buffer, expected more data"
  | longVarint => "Found a varint that didn't terminate. Is the usize too big for this platform?"
  | badFlag => "Found a bool that wasn't 0 or 1"
  | badPresence => "Found an Option discriminant that wasn't 0 or 1"
  | badText => "Tried to parse invalid utf-8"
  | unknownVariant => "Serde Deserialization Error"

end DecodeFault

/-- What a decoder makes of a byte string: a value and the bytes after it, or a fault. -/
abbrev Decoded (α : Type) := Except DecodeFault (α × List UInt8)

/-- Applies a function to the decoded value. -/
def Decoded.map {α β : Type} (f : α → β) : Decoded α → Decoded β
  | .ok (a, rest) => .ok (f a, rest)
  | .error fault => .error fault

/-- Goes on with the decoded value and the bytes after it. -/
def Decoded.andThen {α β : Type} (d : Decoded α) (next : α → List UInt8 → Decoded β) : Decoded β :=
  match d with
  | .ok (a, rest) => next a rest
  | .error fault => .error fault

/-- A format for values of one type. -/
structure Codec (α : Type) where
  encode : α → List UInt8
  decode : List UInt8 → Decoded α

namespace Codec

variable {α β : Type}

/-- The format of a type that is the same as another one up to renaming. -/
def map (c : Codec α) (build : α → β) (view : β → α) : Codec β where
  encode b := c.encode (view b)
  decode bytes := (c.decode bytes).map build

/-- One value after the other. -/
def pair (first : Codec α) (second : Codec β) : Codec (α × β) where
  encode v := first.encode v.1 ++ second.encode v.2
  decode bytes := (first.decode bytes).andThen fun a rest => (second.decode rest).map (a, ·)

def flag : Codec Bool where
  encode b := [if b then 1 else 0]
  decode
    | [] => .error .endOfInput
    | b :: rest =>
      if b = 0 then .ok (false, rest) else if b = 1 then .ok (true, rest) else .error .badFlag

/-- A byte 0 for an absent value; a byte 1 and the value for a present one. -/
def option (c : Codec α) : Codec (Option α) where
  encode
    | none => [0]
    | some a => 1 :: c.encode a
  decode
    | [] => .error .endOfInput
    | b :: rest =>
      if b = 0 then .ok (none, rest)
      else if b = 1 then (c.decode rest).map some
      else .error .badPresence

end Codec
end Prefilter.Wire
