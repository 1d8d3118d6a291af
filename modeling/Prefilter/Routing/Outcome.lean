import Prefilter.Sort.Bound

namespace Prefilter

/-- The result of probing one shard. -/
structure Outcome where
  matched : Bool
  bound : Option Bound := none
  /-- Whether no copy of the shard answered. -/
  failed : Bool := false
deriving DecidableEq, Inhabited

namespace Outcome

def success (matched : Bool) (bound : Option Bound) : Outcome := { matched, bound }

/-- A shard that could not be checked counts as one that may match, so that it is never skipped. -/
def failure : Outcome := { matched := true, failed := true }

end Outcome
end Prefilter
