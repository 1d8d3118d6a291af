import Prefilter.Wire.Varint

namespace Prefilter

/-- A query for all documents whose value lies in a range. -/
structure RangeQuery where
  least : Int64
  greatest : Int64
deriving DecidableEq, Inhabited

namespace RangeQuery

def all : RangeQuery := ⟨Int64.minValue, Int64.maxValue⟩

def codec : Wire.Codec RangeQuery :=
  (Wire.Codec.long.pair Wire.Codec.long).map (fun (least, greatest) => ⟨least, greatest⟩)
    fun q => (q.least, q.greatest)

/-- The query as the source of a search. -/
def toSource (q : RangeQuery) : List UInt8 := codec.encode q

/-- The query of a source; without one, every document matches. -/
def ofSource? (source : Option (List UInt8)) : Except Wire.DecodeFault RangeQuery :=
  match source with
  | none => .ok all
  | some bytes =>
    match codec.decode bytes with
    | .ok (q, _) => .ok q
    | .error fault => .error fault

def meets (q : RangeQuery) (least greatest : Int64) : Bool :=
  least ≤ q.greatest && q.least ≤ greatest

end RangeQuery
end Prefilter
