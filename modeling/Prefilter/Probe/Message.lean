import Prefilter.Routing.Outcome
import Prefilter.Shard.Target

namespace Prefilter

/-- The question to one copy of a shard: could it hold a match, and what is its bound? -/
structure ProbeRequest where
  shard : ShardId
  node : NodeId
  cluster : Option String := none
  aliasFilter : AliasFilter := {}
  source : Option (List UInt8) := none
  sort : Option SortSpec := none
  shardCount : UInt64
deriving DecidableEq, Inhabited

structure ProbeResponse where
  canMatch : Bool
  bound : Option Bound := none
deriving DecidableEq, Inhabited

namespace ProbeResponse

/-- What the phase records for a shard that answered so. -/
def outcome (r : ProbeResponse) : Outcome := .success r.canMatch r.bound

end ProbeResponse

/-- The envelope of either direction. -/
inductive ProbeMessage where
  | request (request : ProbeRequest)
  | response (response : ProbeResponse)
  | failure (text : String)
deriving DecidableEq, Inhabited

end Prefilter
