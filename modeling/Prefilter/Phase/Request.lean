import Prefilter.Sort.Bound

namespace Prefilter

/-- The parts of a search that a probe needs. -/
structure SearchRequest where
  sort : Option SortSpec := none
  source : Option (List UInt8) := none
deriving DecidableEq, Inhabited

end Prefilter
