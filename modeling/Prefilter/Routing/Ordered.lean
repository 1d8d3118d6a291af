import Prefilter.Shard.Target

namespace Prefilter

/-- A shard and whether the search leaves it out. -/
structure RoutedShard where
  target : ShardTarget
  skip : Bool
deriving DecidableEq, Inhabited

structure Summary where
  total : Nat := 0
  skipped : Nat := 0
  failed : Nat := 0
  sorted : Bool := false
deriving DecidableEq, Inhabited

/-- The shards of a phase in delivery order, with their summary. -/
structure OrderedShards where
  shards : List RoutedShard := []
  summary : Summary := {}
deriving DecidableEq, Inhabited

namespace OrderedShards

/-- The result over shards that are already in order; the skipped ones are counted here. -/
def ofShards (shards : List RoutedShard) (failed : Nat) (sorted : Bool) : OrderedShards where
  shards := shards
  summary := {
    total := shards.length
    skipped := shards.countP (·.skip)
    failed
    sorted }

def size (r : OrderedShards) : Nat := r.shards.length

def isEmpty (r : OrderedShards) : Bool := r.shards.isEmpty

def get? (r : OrderedShards) (position : Nat) : Option RoutedShard := r.shards[position]?

def shardIds (r : OrderedShards) : List ShardId := r.shards.map (·.target.shard)

def toQuery (r : OrderedShards) : List RoutedShard := r.shards.filter (!·.skip)

end OrderedShards
end Prefilter
