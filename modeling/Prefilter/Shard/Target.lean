import Prefilter.Shard.Name

namespace Prefilter

structure ShardId where
  index : IndexName
  ordinal : UInt32
deriving DecidableEq, Inhabited

namespace ShardId

/-- Shards are ordered by ordinal, then by index name. -/
def compare (a b : ShardId) : Ordering :=
  (Ord.compare a.ordinal b.ordinal).then (a.index.compare b.index)

def display (s : ShardId) : String := s!"[{s.index.text}][{s.ordinal.toNat}]"

def labelled (s : ShardId) : String := s!"ShardId({s.display})"

end ShardId

/-- What an alias adds to a probe: the alias names that led to the index, and the filter they stand
for, already serialized. -/
structure AliasFilter where
  aliases : List String := []
  filter : Option (List UInt8) := none
deriving DecidableEq, Inhabited

/-- A shard to probe, with the nodes that hold a copy of it in the order in which they are tried. A
target without copies is unassigned. -/
structure ShardTarget where
  shard : ShardId
  cluster : Option String := none
  aliasFilter : AliasFilter := {}
  copies : List NodeId := []
deriving DecidableEq, Inhabited

namespace ShardTarget

/-- The node that is probed first. -/
def node? (t : ShardTarget) : Option NodeId := t.copies.head?

/-- The local cluster comes before every remote one, and those follow by name. -/
def compareCluster : Option String → Option String → Ordering
  | none, none => .eq
  | none, some _ => .lt
  | some _, none => .gt
  | some a, some b => Text.compareUtf8 a b

/-- The order of identities: shard first, then cluster. Copies and alias filters play no part. -/
def compareIdentity (a b : ShardTarget) : Ordering :=
  (a.shard.compare b.shard).then (compareCluster a.cluster b.cluster)

/-- The shard, preceded by its cluster where that is a remote one. -/
def display (t : ShardTarget) : String :=
  match t.cluster with
  | some cluster => s!"{cluster}:{t.shard.display}"
  | none => t.shard.display

end ShardTarget
end Prefilter
